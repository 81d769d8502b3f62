import JobRoster.Proofs.Engine.Misfires

/-!
# One treatment of missed fire times after another

A treatment that is answered has done what it is to do (`handles_of_answer`), and what it leaves behind does not depend
on the order in which it went through the triggers (`state_applyMisfiresBy`), so a series of treatments goes through
memories that are reached.

A trigger that fires at once when it has missed its fire time gets the time of the treatment as its next fire time.
Whether that is a slot of its schedule is not asked, so later treatments find it missed in turn: the trigger is due once
more when the threshold has passed since it was due last, and it never comes back to its schedule.

Main statements:

* `due_again_iff`: when a trigger that was due in a treatment is due in the next one. Its schedule has no part in it
  (`exists_due_between_slots`).
* `times_due`: when a trigger is due in a series of treatments.
-/

namespace JobRoster

variable {now cutoff : Instant}

/-! ### One treatment -/

namespace Stored

variable {old new new' : Stored}

/-- There is only one thing that can come of a trigger. -/
theorem Handled.unique (h : old.Handled now cutoff new) (h' : old.Handled now cutoff new') : new = new' := by
  cases h with
  | kept hkept =>
    cases h' with
    | kept _ => rfl
    | skips hoverdue _ _ | due hoverdue _ => exact absurd hoverdue hkept
  | skips hoverdue hpolicy hslot =>
    cases h' with
    | kept hkept => exact absurd hoverdue hkept
    | skips _ _ hslot' => rw [hslot.unique hslot']
    | due _ hpolicy' => cases hpolicy.symm.trans hpolicy'
  | due hoverdue hpolicy =>
    cases h' with
    | kept hkept => exact absurd hoverdue hkept
    | skips _ hpolicy' _ => cases hpolicy.symm.trans hpolicy'
    | due _ _ => rfl

theorem Handled.unique_rel {old new new' : Option Stored} (h : Option.Rel (Handled now cutoff) old new)
    (h' : Option.Rel (Handled now cutoff) old new') : new = new' := by
  cases h with
  | none =>
    cases h' with
    | none => rfl
  | some h =>
    cases h' with
    | some h' => rw [h.unique h']

/-- A trigger that has not missed its fire time stays as it is. -/
theorem Handled.eq_self (h : old.Handled now cutoff new) (hkept : ¬ old.Overdue cutoff) : new = old :=
  h.unique (.kept hkept)

/-- A trigger that is due has the present as its next fire time. -/
theorem Handled.eq_due (h : old.Handled now cutoff new) (hoverdue : old.Overdue cutoff)
    (hpolicy : old.trigger.policy = .fireOnceNow) : new = { old with next := some now } :=
  h.unique (.due hoverdue hpolicy)

end Stored

namespace Store

variable {s : Store} {k : Key} {allowed : Trigger → Prop} {missed order : List (Key × Stored)} {due : List Key}
  {effect effect' : Effect Store (List Key)}

/-- A treatment that is answered has gone through with the searches that it had to make. -/
theorem searched_of_answer (h : (treatMissed now cutoff missed s).reply = .answer due) :
    ∀ entry ∈ missed, entry.2.Overdue cutoff → entry.2.trigger.policy = .doNothing →
      ∃ next, entry.2.schedule.firstFire now entry.2.trigger.start entry.2.trigger.stop = .ok next := by
  -- over the triggers to come: what has been put does not matter, since they are given
  induction missed generalizing s due with
  | nil => simp
  | cons entry rest ih =>
    obtain ⟨k, stored⟩ := entry
    rw [List.forall_mem_cons]
    unfold treatMissed at h
    split at h
    · next hnone =>
      refine ⟨?_, ih h⟩
      rintro ⟨missed, hmissed, -⟩
      cases hnone.symm.trans hmissed
    · next missed hmissed =>
      split at h
      · next hlate =>
        refine ⟨?_, ih h⟩
        rintro ⟨missed', hmissed', hlt⟩
        cases hmissed.symm.trans hmissed'
        exact absurd hlt hlate
      · split at h
        · split at h
          · cases h
          · next next hnext => exact ⟨fun _ _ => ⟨next, hnext⟩, ih h⟩
        · next hpolicy =>
          dsimp only at h
          split at h
          · next due' hdue' =>
            refine ⟨fun _ hwaits => ?_, ih hdue'⟩
            cases hpolicy.symm.trans hwaits
          · next hno => exact absurd h (hno _)

/-- Where a treatment is answered, the cutoff is in range and the triggers can be searched for slots. -/
theorem searchable_of_answer (hs : s.Reached allowed) (hthreshold : 0 ≤ s.threshold)
    (horder : order.Perm s.triggers.toList) (h : (s.applyMisfiresBy order now).reply = .answer due) :
    ∃ cutoff, now.sub s.threshold = .ok cutoff ∧ s.Every (Stored.Searchable now cutoff) := by
  unfold applyMisfiresBy at h
  split at h
  · cases h
  · next cutoff hcutoff =>
    refine ⟨cutoff, hcutoff, fun {k stored} hk => ?_⟩
    refine (hs.dated hk).searchable (Instant.sub_le hthreshold hcutoff) fun hoverdue hpolicy => ?_
    obtain ⟨next, hnext⟩ := searched_of_answer h (k, stored) ((mem_order horder).2 hk) hoverdue hpolicy
    obtain ⟨_, -, hnow, -⟩ := Cron.Schedule.steps_of_firstFire hnext
    exact Instant.exists_add_perSecond_iff.2 hnow

/-- **A treatment that is answered has done what it is to do.** -/
theorem handles_of_answer (hs : s.Reached allowed) (hthreshold : 0 ≤ s.threshold)
    (horder : order.Perm s.triggers.toList) (h : (s.applyMisfiresBy order now).reply = .answer due) :
    ∃ cutoff, now.sub s.threshold = .ok cutoff ∧ s.Handles now cutoff (s.applyMisfiresBy order now) := by
  obtain ⟨cutoff, hcutoff, hsearch⟩ := searchable_of_answer hs hthreshold horder h
  exact ⟨cutoff, hcutoff, handles_of_searchable hcutoff (Instant.sub_le hthreshold hcutoff) hsearch horder⟩

/-- What a treatment leaves behind is settled by what it has to do. -/
theorem Handles.state_eq (h : s.Handles now cutoff effect) (h' : s.Handles now cutoff effect') :
    effect.state = effect'.state := by
  have htriggers : effect.state.triggers = effect'.state.triggers := by
    ext k : 1
    exact Stored.Handled.unique_rel (h.triggers k) (h'.triggers k)
  rw [h.rest, h'.rest, htriggers]

/-- **What a treatment leaves behind does not depend on its order**, if it is answered. -/
theorem state_applyMisfiresBy (hs : s.Reached allowed) (hthreshold : 0 ≤ s.threshold)
    (horder : order.Perm s.triggers.toList) (h : (s.applyMisfiresBy order now).reply = .answer due) :
    (s.applyMisfiresBy order now).state = (s.applyMisfires now).state := by
  obtain ⟨cutoff, hcutoff, hsearch⟩ := searchable_of_answer hs hthreshold horder h
  have hhandles {order : List (Key × Stored)} (horder : order.Perm s.triggers.toList) :=
    handles_of_searchable hcutoff (Instant.sub_le hthreshold hcutoff) hsearch horder
  rw [applyMisfires_eq_by]
  exact (hhandles horder).state_eq (hhandles (.refl _))

/-- A treatment in any order leads to a memory that is reached, if it is answered. -/
theorem Reached.applyMisfiresBy (hs : s.Reached allowed) (hthreshold : 0 ≤ s.threshold)
    (horder : order.Perm s.triggers.toList) (h : (s.applyMisfiresBy order now).reply = .answer due) :
    (s.applyMisfiresBy order now).state.Reached allowed := by
  rw [state_applyMisfiresBy hs hthreshold horder h]
  exact hs.applyMisfires now

/-! ### One treatment after another -/

/-- A trigger is stored that is to fire at once when it has missed its fire time, which is a given instant. -/
def Awaits (s : Store) (k : Key) (next : Instant) : Prop :=
  ∃ stored, s.triggers[k]? = some stored ∧ stored.trigger.policy = .fireOnceNow ∧ stored.next = some next

end Store

/-- **A threshold has passed** since an instant. -/
def Instant.Lapsed (threshold : Int) (since now : Instant) : Prop :=
  ∃ cutoff, now.sub threshold = .ok cutoff ∧ since < cutoff

/-- Where the cutoff is known, it decides. -/
theorem Instant.lapsed_iff {threshold : Int} {since now cutoff : Instant} (h : now.sub threshold = .ok cutoff) :
    Lapsed threshold since now ↔ since < cutoff := by
  constructor
  · rintro ⟨cutoff', h', hlt⟩
    cases h.symm.trans h'
    exact hlt
  · intro hlt
    exact ⟨cutoff, h, hlt⟩

instance (threshold : Int) (since now : Instant) : Decidable (Instant.Lapsed threshold since now) :=
  match h : now.sub threshold with
  | .ok _ => decidable_of_iff _ (Instant.lapsed_iff h).symm
  | .error _ => isFalse fun ⟨_, h', _⟩ => by cases h.symm.trans h'

namespace Store

variable {s : Store} {k : Key} {allowed : Trigger → Prop} {order : List (Key × Stored)} {due : List Key} {next : Instant}

theorem Awaits.overdue_iff (hk : s.Awaits k next) : (∃ stored, s.triggers[k]? = some stored ∧ stored.Overdue cutoff ∧
    stored.trigger.policy = .fireOnceNow) ↔ next < cutoff := by
  obtain ⟨stored, hstored, hpolicy, hnext⟩ := hk
  constructor
  · rintro ⟨stored', hstored', ⟨missed, hmissed, hlt⟩, -⟩
    cases hstored.symm.trans hstored'
    cases hnext.symm.trans hmissed
    exact hlt
  · intro hlt
    exact ⟨stored, hstored, ⟨next, hnext, hlt⟩, hpolicy⟩

/-- **One treatment** of a trigger that is to fire at once when it has missed its fire time: it is due exactly if the
threshold has passed since then, and then it has the time of the treatment as its next fire time. -/
theorem Awaits.treat (hs : s.Reached allowed) (hthreshold : 0 ≤ s.threshold) (hk : s.Awaits k next)
    (horder : order.Perm s.triggers.toList) (h : (s.applyMisfiresBy order now).reply = .answer due) :
    (k ∈ due ↔ Instant.Lapsed s.threshold next now) ∧
      (s.applyMisfiresBy order now).state.Awaits k (if Instant.Lapsed s.threshold next now then now else next) := by
  obtain ⟨cutoff, hcutoff, hhandles⟩ := handles_of_answer hs hthreshold horder h
  have hlapsed : Instant.Lapsed s.threshold next now ↔ next < cutoff := Instant.lapsed_iff hcutoff
  obtain ⟨stored, hstored, hpolicy, hnext⟩ := id hk
  obtain ⟨due', hdue', -, hmem⟩ := hhandles.due
  cases h.symm.trans hdue'
  have htriggers := hhandles.triggers k
  rw [hstored] at htriggers
  generalize hnew : (s.applyMisfiresBy order now).state.triggers[k]? = new at htriggers
  cases htriggers with
  | @some _ new hhandled =>
    refine ⟨by rw [hmem, hk.overdue_iff, hlapsed], ⟨new, hnew, ?_⟩⟩
    by_cases hlt : next < cutoff
    · obtain rfl := hhandled.eq_due ⟨next, hnext, hlt⟩ hpolicy
      rw [if_pos (hlapsed.2 hlt)]
      exact ⟨hpolicy, rfl⟩
    · have hkept : ¬ stored.Overdue cutoff := by
        rintro ⟨missed, hmissed, hmissed_lt⟩
        cases hnext.symm.trans hmissed
        exact hlt hmissed_lt
      obtain rfl := hhandled.eq_self hkept
      rw [if_neg (mt hlapsed.1 hlt)]
      exact ⟨hpolicy, hnext⟩

/-- A trigger that is due has the time of the treatment as its next fire time. -/
theorem awaits_of_mem_due (hs : s.Reached allowed) (hthreshold : 0 ≤ s.threshold)
    (horder : order.Perm s.triggers.toList) (h : (s.applyMisfiresBy order now).reply = .answer due) (hk : k ∈ due) :
    (s.applyMisfiresBy order now).state.Awaits k now := by
  obtain ⟨cutoff, hcutoff, hhandles⟩ := handles_of_answer hs hthreshold horder h
  obtain ⟨due', hdue', -, hmem⟩ := hhandles.due
  cases h.symm.trans hdue'
  obtain ⟨stored, hstored, ⟨missed, hmissed, hlt⟩, hpolicy⟩ := (hmem k).1 hk
  have hawaits : s.Awaits k missed := ⟨stored, hstored, hpolicy, hmissed⟩
  have htreat := (hawaits.treat hs hthreshold horder h).2
  rwa [if_pos ((Instant.lapsed_iff hcutoff).2 hlt)] at htreat

/-- A treatment changes no threshold, whatever its order. -/
theorem applyMisfiresBy_threshold (order : List (Key × Stored)) (now : Instant) (s : Store) :
    (s.applyMisfiresBy order now).state.threshold = s.threshold := by
  unfold applyMisfiresBy
  split
  · rfl
  · rw [treatMissed_rest]

/-- **A series of treatments**, each in some order, with their times and with what they answer. -/
inductive Treats : Store → List (Instant × List Key) → Prop where
  /-- No treatment. -/
  | nil {s : Store} : Treats s []
  /-- A treatment that is answered, and those that follow it. -/
  | cons {s : Store} {order : List (Key × Stored)} {now : Instant} {due : List Key}
      {rest : List (Instant × List Key)} : order.Perm s.triggers.toList →
        (s.applyMisfiresBy order now).reply = .answer due → Treats (s.applyMisfiresBy order now).state rest →
          Treats s ((now, due) :: rest)

/-- The times among some at which a threshold has passed, first since a given instant and then each since the one
before. -/
def lapses (threshold : Int) : Instant → List Instant → List Instant
  | _, [] => []
  | since, now :: rest =>
    if Instant.Lapsed threshold since now then now :: lapses threshold now rest else lapses threshold since rest

/-- **When a trigger is due in a series of treatments**, if it is to fire at once when it has missed its fire time: at
first when the threshold has passed since then, and later whenever it has passed since it was due last. Its schedule has
no part in it. -/
theorem times_due {series : List (Instant × List Key)} (hs : s.Reached allowed) (hthreshold : 0 ≤ s.threshold)
    (hk : s.Awaits k next) (h : s.Treats series) :
    (series.filter fun entry => k ∈ entry.2).map Prod.fst = lapses s.threshold next (series.map Prod.fst) := by
  induction h generalizing next with
  | nil => rfl
  | @cons s order now due rest horder hanswer _ ih =>
    obtain ⟨hdue, hawaits⟩ := hk.treat hs hthreshold horder hanswer
    have hrest := ih (hs.applyMisfiresBy hthreshold horder hanswer)
      (by rwa [applyMisfiresBy_threshold]) hawaits
    rw [applyMisfiresBy_threshold] at hrest
    rw [List.map_cons, lapses]
    by_cases hlapsed : Instant.Lapsed s.threshold next now
    · rw [if_pos hlapsed] at hrest ⊢
      rw [List.filter_cons_of_pos (by simpa using hdue.2 hlapsed), List.map_cons, hrest]
    · rw [if_neg hlapsed] at hrest ⊢
      rw [List.filter_cons_of_neg (by simpa using mt hdue.1 hlapsed), hrest]

/-- **When a trigger that was due is due again in the next treatment**: exactly if the threshold has passed since it was
due, whether or not its schedule has a slot in between. -/
theorem due_again_iff {order' : List (Key × Stored)} {later : Instant} {due' : List Key} (hs : s.Reached allowed)
    (hthreshold : 0 ≤ s.threshold) (horder : order.Perm s.triggers.toList)
    (hdue : (s.applyMisfiresBy order now).reply = .answer due) (hk : k ∈ due)
    (horder' : order'.Perm (s.applyMisfiresBy order now).state.triggers.toList)
    (hdue' : ((s.applyMisfiresBy order now).state.applyMisfiresBy order' later).reply = .answer due') :
    k ∈ due' ↔ Instant.Lapsed s.threshold now later := by
  have hawaits := awaits_of_mem_due hs hthreshold horder hdue hk
  have hreached := hs.applyMisfiresBy hthreshold horder hdue
  rw [← applyMisfiresBy_threshold order now s] at hthreshold ⊢
  exact (hawaits.treat hreached hthreshold horder' hdue').1

/-- Two jobs get triggers, one of which is to fire at once when it has missed its fire time. Fire times are missed when
they are past; they are treated a day later, and a second after that. -/
theorem due_again_iff_a_second_later : ∃ (s : Store) (k : Key) (order order' : List (Key × Stored))
    (now later : Instant) (due due' : List Key), s.Reached (fun _ => True) ∧ 0 ≤ s.threshold ∧
      order.Perm s.triggers.toList ∧ (s.applyMisfiresBy order now).reply = .answer due ∧ k ∈ due ∧
        order'.Perm (s.applyMisfiresBy order now).state.triggers.toList ∧
          ((s.applyMisfiresBy order now).state.applyMisfiresBy order' later).reply = .answer due' ∧
            s.triggers.size = 2 ∧ (k ∈ due' ↔ Instant.Lapsed s.threshold now later) := by
  let start : Instant := ⟨1893491900, 0, by decide, by decide, by decide, by decide⟩
  let now : Instant := ⟨1893578300, 0, by decide, by decide, by decide, by decide⟩
  let later : Instant := ⟨1893578301, 0, by decide, by decide, by decide, by decide⟩
  let nightly : Key := ⟨"nightly", "eu"⟩
  let mirror : Key := ⟨"mirror", "eu"⟩
  let calls : List Call :=
    [.addJob ⟨nightly, "backup", ∅, true⟩ false, .addJob ⟨mirror, "backup", ∅, true⟩ false,
      .schedule { Trigger.forJob nightly "@hourly" start none with policy := .fireOnceNow },
      .schedule (.forJob mirror "@hourly" start none)]
  let s : Store := calls.foldl (fun s c => (s.serve start c).state) (empty 0)
  have hs : s.Reached fun _ => True := by
    refine List.foldlRecOn calls _ (.empty _) fun s hs c _ => ?_
    exact hs.call start c c.passes_any
  have hthreshold : 0 ≤ s.threshold := by decide +kernel
  have hdue : (s.applyMisfiresBy s.triggers.toList now).reply = .answer [nightly] := by decide +kernel
  have hdue' : ((s.applyMisfiresBy s.triggers.toList now).state.applyMisfiresBy
      (s.applyMisfiresBy s.triggers.toList now).state.triggers.toList later).reply = .answer [nightly] := by
    decide +kernel
  have hk : nightly ∈ [nightly] := List.mem_singleton_self _
  exact ⟨s, nightly, _, _, now, later, _, _, hs, hthreshold, .refl _, hdue, hk, .refl _, hdue', by decide +kernel,
    due_again_iff hs hthreshold (.refl _) hdue hk (.refl _) hdue'⟩

/-- **A trigger that is due twice with no slot in between**: it is to fire every hour, and at once when it has missed its
fire time, which it has half an hour later. Five minutes after that it is due again, under a threshold of a minute. -/
theorem exists_due_between_slots : ∃ (s : Store) (k : Key) (stored : Stored) (now later cutoff : Instant)
    (due due' : List Key), s.Reached (fun _ => True) ∧ 0 ≤ s.threshold ∧ now ≤ later ∧
      s.triggers[k]? = some stored ∧ stored.trigger.policy = .fireOnceNow ∧
        (s.applyMisfires now).reply = .answer due ∧ k ∈ due ∧
          ((s.applyMisfires now).state.applyMisfires later).reply = .answer due' ∧ k ∈ due' ∧
            later.sub s.threshold = .ok cutoff ∧ ∀ t ∈ stored.schedule, ¬ (now < t ∧ t < cutoff) := by
  let start : Instant := ⟨2208988800, 0, by decide, by decide, by decide, by decide⟩
  let now : Instant := ⟨2208990600, 0, by decide, by decide, by decide, by decide⟩
  let cutoff : Instant := ⟨2208990840, 0, by decide, by decide, by decide, by decide⟩
  let later : Instant := ⟨2208990900, 0, by decide, by decide, by decide, by decide⟩
  let before : Instant := ⟨1700000000, 0, by decide, by decide, by decide, by decide⟩
  let k : Key := ⟨"job_1", "jobgroup_1"⟩
  let calls : List Call := [.addJob ⟨k, "ScheduleJob", ∅, true⟩ false,
    .schedule { Trigger.forJob k "0 0 * * * ?" start none with policy := .fireOnceNow }]
  let s : Store := calls.foldl (fun s c => (s.serve before c).state) fresh
  have hs : s.Reached fun _ => True := by
    refine List.foldlRecOn calls _ (.empty _) fun s hs c _ => ?_
    exact hs.call before c c.passes_any
  have hread : s.triggers[k]?.map (fun stored => (stored.trigger.policy, stored.schedule.minutes,
      stored.schedule.seconds)) = some (.fireOnceNow, [0], [0]) := by decide +kernel
  obtain ⟨stored, hstored, hparts⟩ := Option.map_eq_some_iff.1 hread
  simp only [Prod.mk.injEq] at hparts
  obtain ⟨hpolicy, hminutes, hseconds⟩ := hparts
  have hslots : ∀ t ∈ stored.schedule, ¬ (now < t ∧ t < cutoff) := by
    rintro t ht ⟨hnow, hcutoff⟩
    obtain ⟨hnanos, -, htime⟩ := Cron.Schedule.mem_iff.1 ht
    obtain ⟨-, hminute, hsecond⟩ := Cron.Schedule.admitsTime_iff.1 htime
    rw [hminutes, List.mem_singleton] at hminute
    rw [hseconds, List.mem_singleton] at hsecond
    have hnow := (Instant.lt_iff_of_nanos_eq_zero hnanos).1 hnow
    have hcutoff := Instant.lt_iff.1 hcutoff
    simp only [Instant.secondOfDay, Instant.perDay, now, cutoff] at *
    omega
  exact ⟨s, k, stored, now, later, cutoff, [k], [k], hs, by decide +kernel, by decide, hstored, hpolicy,
    by decide +kernel, List.mem_singleton_self _, by decide +kernel, List.mem_singleton_self _, by decide +kernel, hslots⟩

end Store

end JobRoster
