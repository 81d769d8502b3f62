import JobRoster.Proofs.Cron.Slots
import JobRoster.Proofs.Engine.History

/-!
# Treating missed fire times

The triggers of an engine in memory can be gone through in any order, each of them once (`applyMisfiresBy`). What comes
of a trigger does not depend on the others: it is kept if it has not missed its fire time, and otherwise waits for the
first slot to come or is due at once (`Stored.Handled`). One step of the treatment does this to the trigger at hand
(`treatMissed_cons`), so by induction over the order a whole treatment does it to each trigger and to nothing else
(`treatMissed_rel`).

That no step breaks off is owed to what holds of every trigger that was ever stored (`Stored.Dated`): its window can be
entered by a search, and if it waits, it waits for a slot, none of which lies before 1970.

Main statement: `applyMisfires_exact`. Under a threshold that is not negative, exactly the triggers that have missed
their fire times are handled, and another treatment at the same time does nothing.
-/

namespace JobRoster

variable {now cutoff : Instant} {old new stored : Stored}

/-! ### One trigger -/

namespace Stored

/-- A stored trigger has missed its fire time. -/
def Overdue (cutoff : Instant) (stored : Stored) : Prop := ∃ missed ∈ stored.next, missed < cutoff

/-- **What comes of a trigger** when missed fire times are treated. -/
inductive Handled (now cutoff : Instant) (old : Stored) : Stored → Prop where
  /-- It has not missed its fire time and is kept. -/
  | kept : ¬ old.Overdue cutoff → Handled now cutoff old old
  /-- It waits for the first slot to come in its window, if there is one. -/
  | skips {next : Option Instant} : old.Overdue cutoff → old.trigger.policy = .doNothing →
      old.schedule.FirstSlot now old.trigger.start old.trigger.stop next → Handled now cutoff old { old with next }
  /-- It is due now. -/
  | due : old.Overdue cutoff → old.trigger.policy = .fireOnceNow → Handled now cutoff old { old with next := some now }

theorem isDue_iff : stored.isDue cutoff = true ↔ stored.Overdue cutoff ∧ stored.trigger.policy = .fireOnceNow := by
  rw [isDue, Bool.and_eq_true, decide_eq_true_eq, Option.any_eq_true, and_comm]
  simp only [decide_eq_true_eq, Overdue, Option.mem_def]

/-- A trigger that has been handled has not missed its fire time, since the next one is past no cutoff. -/
theorem Handled.not_overdue (h : old.Handled now cutoff new) (hcutoff : cutoff ≤ now) : ¬ new.Overdue cutoff := by
  rintro ⟨next, hnext, hlt⟩
  have hlt_now : next < now := Int.lt_of_lt_of_le hlt hcutoff
  cases h with
  | kept hkept => exact hkept ⟨next, hnext, hlt⟩
  | skips _ _ hslot =>
    cases hnext
    exact Int.lt_asymm hslot.1.1.2.1 hlt_now
  | due _ _ =>
    cases hnext
    exact Int.lt_irrefl _ hlt_now

/-! ### What holds of every stored trigger -/

/-- **A stored trigger can be searched for slots.** -/
structure Dated (stored : Stored) : Prop where
  /-- The schedule is that of the cron expression. -/
  schedule : readCron stored.trigger.cron = .ok stored.schedule
  /-- A search goes back a second from the beginning of the window, and then forward again. -/
  start : ∃ before, stored.trigger.start.sub Instant.perSecond = .ok before ∧ before.second < Instant.last.second
  /-- A trigger that waits does so for a slot, if for anything. -/
  next : stored.trigger.policy = .doNothing → ∀ t ∈ stored.next, t ∈ stored.schedule

theorem dated_of_prepare {t : Trigger} (h : Store.prepare now t = .answer stored) : stored.Dated := by
  obtain ⟨schedule, next, hread, hfirst, rfl⟩ := Store.prepare_eq_answer_iff.1 h
  refine ⟨hread, ?_, ?_⟩
  · obtain ⟨before, hbefore, -, hlast⟩ := Cron.Schedule.steps_of_firstFire hfirst
    exact ⟨before, hbefore, hlast⟩
  · rintro - t ⟨⟩
    exact (Cron.Schedule.ranged_of_readCron hread).mem_of_firstFire hfirst

theorem Dated.treat (h : old.Dated) (hnew : Store.Treated now cutoff old new) : new.Dated := by
  cases hnew with
  | skips _ _ _ hfirst =>
    refine ⟨h.schedule, h.start, ?_⟩
    rintro - t rfl
    exact (Cron.Schedule.ranged_of_readCron h.schedule).mem_of_firstFire hfirst
  | due _ _ hpolicy => exact ⟨h.schedule, h.start, fun hwaits => by cases hpolicy.symm.trans hwaits⟩

/-- The search for the next slot of a trigger that is overdue and waits goes through. -/
def Searchable (now cutoff : Instant) (stored : Stored) : Prop :=
  stored.Overdue cutoff → stored.trigger.policy = .doNothing →
    ∃ next, stored.schedule.firstFire now stored.trigger.start stored.trigger.stop = .ok next ∧
      stored.schedule.FirstSlot now stored.trigger.start stored.trigger.stop next

/-- **A stored trigger can be searched for the next slot** when the present is not in the last second of all. The search
starts after 1970, where the slot lies that was missed. -/
theorem Dated.searchable (h : stored.Dated) (hcutoff : cutoff ≤ now)
    (hnow : stored.Overdue cutoff → stored.trigger.policy = .doNothing →
      ∃ next, now.add Instant.perSecond = .ok next) : stored.Searchable now cutoff := by
  rintro ⟨missed, hmissed, hlt⟩ hpolicy
  have hlast := Instant.exists_add_perSecond_iff.1 (hnow ⟨missed, hmissed, hlt⟩ hpolicy)
  obtain ⟨before, hbefore, hbefore_lt⟩ := h.start
  have hranged := Cron.Schedule.ranged_of_readCron h.schedule
  have hmissed_le : missed ≤ now := Instant.le_trans (Instant.le_of_lt hlt) hcutoff
  exact hranged.exists_firstFire (hranged.inReach (h.next hpolicy missed hmissed) hmissed_le hlast hbefore hbefore_lt) _

end Stored

namespace Store

variable {s : Store} {k : Key} {allowed : Trigger → Prop} {missed order : List (Key × Stored)}

/-- Every stored trigger in a memory that is reached can be searched for slots. -/
theorem Reached.dated (h : s.Reached allowed) : s.Every Stored.Dated :=
  h.every (fun _ _ _ _ => Stored.dated_of_prepare) fun _ _ _ _ hnew hold => hold.treat hnew

/-! ### All triggers, in any order -/

/-- Treats all triggers that have missed their fire times, in a given order. -/
def applyMisfiresBy (order : List (Key × Stored)) (now : Instant) (s : Store) : Effect Store (List Key) :=
  match now.sub s.threshold with
  | .error o => ⟨.crashed (.overflow o), s, []⟩
  | .ok cutoff => treatMissed now cutoff order s

/-- The engine goes through its triggers in the order of their keys. -/
theorem applyMisfires_eq_by (now : Instant) (s : Store) :
    s.applyMisfires now = s.applyMisfiresBy s.triggers.toList now := rfl

/-- Triggers that have not missed their fire times are passed over. -/
theorem treatMissed_of_not_overdue (hmissed : ∀ entry ∈ missed, ¬ entry.2.Overdue cutoff) :
    treatMissed now cutoff missed s = s.reply [] := by
  induction missed with
  | nil => rfl
  | cons entry rest ih =>
    obtain ⟨hentry, hrest⟩ := List.forall_mem_cons.1 hmissed
    unfold treatMissed
    split
    · exact ih hrest
    · next missed hnext => rw [if_pos fun hlt => hentry ⟨missed, hnext, hlt⟩, ih hrest]

/-- **One step of a treatment** handles the trigger at hand, and the treatment goes on from there. -/
theorem treatMissed_cons (hk : s.triggers[k]? = some old) (hsearch : old.Searchable now cutoff)
    (rest : List (Key × Stored)) : ∃ new, old.Handled now cutoff new ∧
      (treatMissed now cutoff ((k, old) :: rest) s).state =
        (treatMissed now cutoff rest (s.putTrigger k new)).state ∧
      ((∃ due, (treatMissed now cutoff rest (s.putTrigger k new)).reply = .answer due) →
        ∃ due, (treatMissed now cutoff ((k, old) :: rest) s).reply = .answer due) := by
  by_cases hoverdue : old.Overdue cutoff
  · obtain ⟨missed, hmissed, hlt⟩ := id hoverdue
    rw [Option.mem_def] at hmissed
    cases hpolicy : old.trigger.policy with
    | doNothing =>
      obtain ⟨next, hnext, hslot⟩ := hsearch hoverdue hpolicy
      refine ⟨_, .skips hoverdue hpolicy hslot, ?_, fun h => ?_⟩ <;>
        simp only [treatMissed, hmissed, hpolicy, hnext, not_not, if_neg, hlt]
      exact h
    | fireOnceNow =>
      refine ⟨_, .due hoverdue hpolicy, ?_, fun ⟨due, hdue⟩ => ?_⟩ <;>
        simp only [treatMissed, hmissed, hpolicy, not_not, if_neg, hlt]
      · split <;> rfl
      · exact ⟨k :: due, by rw [hdue]⟩
  · have hput : s.putTrigger k old = s := by rw [putTrigger, Table.insert_of_getElem? hk]
    have hpass : treatMissed now cutoff ((k, old) :: rest) s = treatMissed now cutoff rest s := by
      rw [treatMissed]
      split
      · rfl
      · next missed hnext => rw [if_pos fun hlt => hoverdue ⟨missed, hnext, hlt⟩]
    exact ⟨old, .kept hoverdue, by rw [hput, hpass], by rw [hput, hpass]; exact id⟩

/-- **A treatment handles each of some triggers, and no others**, if each comes up once and can be searched for slots. -/
theorem treatMissed_rel
    (hmissed : ∀ entry ∈ missed, s.triggers[entry.1]? = some entry.2 ∧ entry.2.Searchable now cutoff)
    (hnodup : (missed.map Prod.fst).Nodup) : (∃ due, (treatMissed now cutoff missed s).reply = .answer due) ∧
      (∀ k ∈ missed.map Prod.fst,
        Option.Rel (Stored.Handled now cutoff) s.triggers[k]? (treatMissed now cutoff missed s).state.triggers[k]?) ∧
      ∀ k ∉ missed.map Prod.fst, (treatMissed now cutoff missed s).state.triggers[k]? = s.triggers[k]? := by
  -- over the order: the triggers to come are still as they were, since no key comes up twice
  induction missed generalizing s with
  | nil => exact ⟨⟨[], rfl⟩, by simp, fun _ _ => rfl⟩
  | cons entry rest ih =>
    obtain ⟨k, old⟩ := entry
    obtain ⟨⟨hk, hsearch⟩, hrest⟩ := List.forall_mem_cons.1 hmissed
    obtain ⟨hnot, hnodup⟩ := List.nodup_cons.1 hnodup
    obtain ⟨new, hnew, hstate, hreply⟩ := treatMissed_cons hk hsearch rest
    have hkeep {k' : Key} (h : k' ≠ k) : (s.putTrigger k new).triggers[k']? = s.triggers[k']? :=
      Table.getElem?_insert_of_ne h.symm
    obtain ⟨hanswer, hrel, hothers⟩ := ih (s := s.putTrigger k new) (fun entry hentry => by
      rw [hkeep fun h => hnot (List.mem_map.2 ⟨entry, hentry, h⟩)]
      exact hrest entry hentry) hnodup
    rw [hstate]
    refine ⟨hreply hanswer, fun k' hk' => ?_, fun k' hk' => ?_⟩
    · by_cases hkk : k' = k
      · subst hkk
        rw [hothers k' hnot, hk, putTrigger, Std.ExtTreeMap.getElem?_insert_self]
        exact .some hnew
      · rw [← hkeep hkk]
        exact hrel k' ((List.mem_cons.1 hk').resolve_left hkk)
    · obtain ⟨hkk, hk'⟩ := not_or.1 (mt List.mem_cons.2 hk')
      rw [hothers k' hk', hkeep hkk]

/-- **All that a treatment of missed fire times does**, given a time and a cutoff. -/
structure Handles (now cutoff : Instant) (s : Store) (effect : Effect Store (List Key)) : Prop where
  /-- It handles each trigger. -/
  triggers : ∀ k : Key, Option.Rel (Stored.Handled now cutoff) s.triggers[k]? effect.state.triggers[k]?
  /-- It changes nothing but triggers. -/
  rest : effect.state = { s with triggers := effect.state.triggers }
  /-- It answers the keys of the triggers that are due, each of them once. -/
  due : ∃ due, effect.reply = .answer due ∧ due.Nodup ∧ ∀ k, k ∈ due ↔ ∃ stored, s.triggers[k]? = some stored ∧
    stored.Overdue cutoff ∧ stored.trigger.policy = .fireOnceNow
  /-- Afterwards no trigger has missed its fire time. -/
  done : effect.state.Every fun stored => ¬ stored.Overdue cutoff
  /-- Another treatment at the same time does nothing, whatever its order. -/
  again : ∀ order, order.Perm effect.state.triggers.toList →
    effect.state.applyMisfiresBy order now = effect.state.reply []

/-- What stands in an order of all triggers is what is stored. -/
theorem mem_order (horder : order.Perm s.triggers.toList) {entry : Key × Stored} :
    entry ∈ order ↔ s.triggers[entry.1]? = some entry.2 := by
  rw [horder.mem_iff, Std.ExtTreeMap.mem_toList_iff_getElem?_eq_some]

/-- An order of all triggers has each key once. -/
theorem nodup_order (horder : order.Perm s.triggers.toList) : (order.map Prod.fst).Nodup := by
  rw [(horder.map Prod.fst).nodup_iff, Std.ExtTreeMap.map_fst_toList_eq_keys]
  exact Std.ExtTreeMap.nodup_keys

/-- A treatment changes nothing but triggers. -/
theorem treatMissed_rest (missed : List (Key × Stored)) (s : Store) :
    (treatMissed now cutoff missed s).state =
      { s with triggers := (treatMissed now cutoff missed s).state.triggers } :=
  treatMissed_induction (I := fun s' => s' = { s with triggers := s'.triggers })
    (fun entry _ new s' _ hs' => by rw [hs', putTrigger]) rfl

/-- A treatment that is not broken off answers the keys of the triggers that are due, each of them once. -/
theorem treatMissed_due (horder : order.Perm s.triggers.toList)
    (hanswer : ∃ due, (treatMissed now cutoff order s).reply = .answer due) :
    ∃ due, (treatMissed now cutoff order s).reply = .answer due ∧ due.Nodup ∧ ∀ k, k ∈ due ↔
      ∃ stored, s.triggers[k]? = some stored ∧ stored.Overdue cutoff ∧ stored.trigger.policy = .fireOnceNow := by
  obtain hreply | ⟨o, hcrash⟩ := @treatMissed_reply now cutoff order s
  · refine ⟨_, hreply, (nodup_order horder).sublist (List.filter_sublist.map _), fun k => ?_⟩
    simp only [List.mem_map, List.mem_filter, mem_order horder, Stored.isDue_iff]
    constructor
    · rintro ⟨⟨k, stored⟩, hstored, rfl⟩
      exact ⟨stored, hstored⟩
    · rintro ⟨stored, hstored⟩
      exact ⟨(k, stored), hstored, rfl⟩
  · obtain ⟨due, hdue⟩ := hanswer
    cases hdue.symm.trans hcrash

/-- **A treatment in any order** does what it is to do, if each trigger can be searched for slots. -/
theorem handles_of_searchable (hcutoff : now.sub s.threshold = .ok cutoff) (hle : cutoff ≤ now)
    (hsearch : s.Every (Stored.Searchable now cutoff)) (horder : order.Perm s.triggers.toList) :
    s.Handles now cutoff (s.applyMisfiresBy order now) := by
  have heq : s.applyMisfiresBy order now = treatMissed now cutoff order s := by rw [applyMisfiresBy, hcutoff]
  obtain ⟨hanswer, hrel, hothers⟩ := treatMissed_rel
    (fun entry hentry => ⟨(mem_order horder).1 hentry, hsearch ((mem_order horder).1 hentry)⟩) (nodup_order horder)
  have htriggers (k : Key) : Option.Rel (Stored.Handled now cutoff) s.triggers[k]?
      (treatMissed now cutoff order s).state.triggers[k]? := by
    by_cases hk : k ∈ order.map Prod.fst
    · exact hrel k hk
    · rw [hothers k hk]
      cases hstored : s.triggers[k]? with
      | none => exact .none
      | some stored => exact absurd (List.mem_map.2 ⟨(k, stored), (mem_order horder).2 hstored, rfl⟩) hk
  have hdone : (treatMissed now cutoff order s).state.Every fun stored => ¬ stored.Overdue cutoff := by
    intro k new hnew
    have h := htriggers k
    rw [hnew] at h
    generalize s.triggers[k]? = old at h
    cases h with
    | some h => exact h.not_overdue hle
  rw [heq]
  refine ⟨htriggers, treatMissed_rest order s, treatMissed_due horder hanswer, hdone, fun order' horder' => ?_⟩
  -- the threshold is the same as before, and so is the cutoff
  rw [applyMisfiresBy, treatMissed_rest order s]
  dsimp only
  rw [hcutoff, ← treatMissed_rest order s]
  exact treatMissed_of_not_overdue fun entry hentry => hdone ((mem_order horder').1 hentry)

/-- **Treating missed fire times handles exactly the triggers that have missed them**, in the engine's order or in any
other one: in every memory that is reached, under a threshold that is not negative, where the cutoff is in the range of
instants and so are the searches that have to be made. -/
theorem applyMisfires_exact (hs : s.Reached allowed) (hthreshold : 0 ≤ s.threshold)
    (hcutoff : now.sub s.threshold = .ok cutoff)
    (hnow : s.Every fun stored => stored.Overdue cutoff → stored.trigger.policy = .doNothing →
      ∃ next, now.add Instant.perSecond = .ok next) :
    s.Handles now cutoff (s.applyMisfires now) ∧
      ∀ order, order.Perm s.triggers.toList → s.Handles now cutoff (s.applyMisfiresBy order now) := by
  have hle : cutoff ≤ now := Instant.sub_le hthreshold hcutoff
  have hsearch : s.Every (Stored.Searchable now cutoff) := fun hk => (hs.dated hk).searchable hle (hnow hk)
  refine ⟨?_, fun order => handles_of_searchable hcutoff hle hsearch⟩
  rw [applyMisfires_eq_by]
  exact handles_of_searchable hcutoff hle hsearch (.refl _)

/-- Three jobs get triggers, and a day later two of these have missed their fire times under a threshold of a minute:
one that is to fire at once then, and one whose window has ended. The third has an hour to wait. -/
theorem applyMisfires_exact_a_day_later : ∃ (s : Store) (now cutoff : Instant),
    (s.Reached (fun _ => True) ∧ 0 ≤ s.threshold ∧ now.sub s.threshold = .ok cutoff ∧
      s.Every fun stored => stored.Overdue cutoff → stored.trigger.policy = .doNothing →
        ∃ next, now.add Instant.perSecond = .ok next) ∧
      ((s.applyMisfires now).reply = .answer [⟨"nightly", "eu"⟩] ∧
        s.triggers.keys = [⟨"mirror", "eu"⟩, ⟨"nightly", "eu"⟩, ⟨"report", "eu"⟩] ∧
          s.triggers.keys.map (s.applyMisfires now).state.nextFire = [none, some now, s.nextFire ⟨"report", "eu"⟩]) ∧
        s.Handles now cutoff (s.applyMisfires now) ∧
          ∀ order, order.Perm s.triggers.toList → s.Handles now cutoff (s.applyMisfiresBy order now) := by
  let start : Instant := ⟨1893491900, 0, by decide, by decide, by decide, by decide⟩
  let now : Instant := ⟨1893578300, 0, by decide, by decide, by decide, by decide⟩
  let cutoff : Instant := ⟨1893578240, 0, by decide, by decide, by decide, by decide⟩
  let next : Instant := ⟨1893578301, 0, by decide, by decide, by decide, by decide⟩
  let nightly : Key := ⟨"nightly", "eu"⟩
  let mirror : Key := ⟨"mirror", "eu"⟩
  let report : Key := ⟨"report", "eu"⟩
  let calls : List Call :=
    [.addJob ⟨nightly, "backup", ∅, true⟩ false, .addJob ⟨mirror, "backup", ∅, true⟩ false,
      .addJob ⟨report, "backup", ∅, true⟩ false,
      .schedule { Trigger.forJob nightly "@hourly" start none with policy := .fireOnceNow },
      .schedule (.forJob mirror "@hourly" start (some now)), .schedule (.forJob report "@hourly" now none)]
  let s : Store := calls.foldl (fun s c => (s.serve start c).state) fresh
  have hs : s.Reached fun _ => True := by
    refine List.foldlRecOn calls _ (.empty _) fun s hs c _ => ?_
    exact hs.call start c c.passes_any
  have hcutoff : now.sub s.threshold = .ok cutoff := by decide +kernel
  have hthreshold : 0 ≤ s.threshold := by decide +kernel
  have hnow : s.Every fun stored => stored.Overdue cutoff → stored.trigger.policy = .doNothing →
      ∃ next, now.add Instant.perSecond = .ok next := fun _ _ _ => ⟨next, by decide⟩
  exact ⟨s, now, cutoff, ⟨hs, hthreshold, hcutoff, hnow⟩, by decide +kernel,
    applyMisfires_exact hs hthreshold hcutoff hnow⟩

end Store

end JobRoster
