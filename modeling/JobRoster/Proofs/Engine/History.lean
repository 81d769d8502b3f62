import JobRoster.Proofs.Engine.Program
import JobRoster.Proofs.Engine.Tables
import JobRoster.Roster.Basic

/-!
# The history of an engine in memory

The memories that an engine can come to have (`Reached`): from an empty one by any calls at any times, by treating
missed fire times, by clearing and by shutting down. Requests to rosters need no case of their own, since what they do
is to call (`Reached.perform`). Which triggers the calls may pass is a parameter; a roster passes only triggers with
the key of their job, while a trigger that was read from data can have any other.

What becomes of a trigger that has missed its fire time is said once (`Treated`); what that keeps is kept by the
treatment of all triggers (`applyMisfires_induction`). So to know something of every stored trigger in every such
memory, it is enough to know it of triggers once they are prepared and to see that it goes on holding when one is
treated (`Reached.every`).

What holds of every such memory:

* `Sound`: everything is stored under its own key, a trigger has its job, and its schedule is that of its expression.
* `Mirrored`: if all triggers that were passed have the keys of their jobs, so have all that are stored.
* `Supported`: then, too, a job that is not durable has a trigger.
-/

namespace JobRoster

/-- A trigger has the key of its job, as one that is made for a job. -/
def Trigger.Mirrors (t : Trigger) : Prop := t.key = t.jobKey

/-- A trigger has the key of its job exactly if it is made for a job, with some policy. -/
theorem Trigger.mirrors_iff_exists_forJob {t : Trigger} : t.Mirrors ↔
    ∃ key cron start stop policy, t = { forJob key cron start stop with policy } := by
  constructor
  · intro h
    obtain ⟨key, jobKey, cron, start, stop, policy⟩ := t
    cases h
    exact ⟨key, cron, start, stop, policy, rfl⟩
  · rintro ⟨key, cron, start, stop, policy, rfl⟩
    rfl

/-- A call passes no trigger but those that are allowed. -/
def Call.Passes (allowed : Trigger → Prop) : Call → Prop
  | schedule t | reschedule _ t => allowed t
  | _ => True

/-- Any call passes only triggers that are allowed, where all are. -/
theorem Call.passes_any (c : Call) : c.Passes fun _ => True := by
  cases c <;> trivial

/-- What is declared of a stored trigger, that is all but when it fires next. -/
def Stored.declared (stored : Stored) : Trigger × Cron.Schedule := (stored.trigger, stored.schedule)

/-- A stored trigger has missed its fire time, and is one that then fires at once. -/
def Stored.isDue (cutoff : Instant) (stored : Stored) : Bool :=
  stored.trigger.policy = .fireOnceNow && stored.next.any (· < cutoff)

namespace Store

variable {s s' : Store} {now : Instant} {c : Call} {k : Key} {allowed : Trigger → Prop}

/-- **The memories that an engine comes to have** when the triggers that are passed to it are among the allowed. -/
inductive Reached (allowed : Trigger → Prop) : Store → Prop where
  /-- An empty memory, with any threshold. -/
  | empty (threshold : Int) : Reached allowed (empty threshold)
  /-- After a call, whatever comes back from it. -/
  | call {s : Store} (now : Instant) (c : Call) :
      c.Passes allowed → Reached allowed s → Reached allowed (s.serve now c).state
  /-- After missed fire times have been treated, also when that was broken off. -/
  | applyMisfires {s : Store} (now : Instant) : Reached allowed s → Reached allowed (s.applyMisfires now).state
  /-- After everything has been forgotten. -/
  | clear {s : Store} : Reached allowed s → Reached allowed s.clear.1
  /-- After the engine has been shut down. -/
  | shutDown {s : Store} : Reached allowed s → Reached allowed s.shutDown.1

/-! ### Missed fire times -/

/-- The same jobs and triggers, but for when the triggers fire next. -/
structure Redated (s s' : Store) : Prop where
  /-- The jobs are the same. -/
  jobs : s'.jobs = s.jobs
  /-- What is declared of the triggers is the same. -/
  declared : ∀ k : Key, s'.triggers[k]?.map Stored.declared = s.triggers[k]?.map Stored.declared

theorem Redated.refl (s : Store) : Redated s s := ⟨rfl, fun _ => rfl⟩

theorem Redated.trans {s'' : Store} (h : Redated s s') (h' : Redated s' s'') : Redated s s'' :=
  ⟨h'.jobs.trans h.jobs, fun k => (h'.declared k).trans (h.declared k)⟩

/-- A stored trigger was stored before, with another fire time perhaps. -/
theorem Redated.exists_of_getElem? (h : Redated s s') {stored : Stored} (hk : s'.triggers[k]? = some stored) :
    ∃ old, s.triggers[k]? = some old ∧ old.trigger = stored.trigger ∧ old.schedule = stored.schedule := by
  have hd := h.declared k
  rw [hk, Option.map_some, eq_comm, Option.map_eq_some_iff] at hd
  obtain ⟨old, hold, heq⟩ := hd
  exact ⟨old, hold, congrArg Prod.fst heq, congrArg Prod.snd heq⟩

theorem Redated.mem_triggers (h : Redated s s') (hk : k ∈ s.triggers) : k ∈ s'.triggers := by
  obtain ⟨old, hold⟩ := Table.mem_iff_exists.1 hk
  have hd := h.declared k
  rw [hold, Option.map_some, Option.map_eq_some_iff] at hd
  obtain ⟨stored, hstored, -⟩ := hd
  exact Table.mem_iff_exists.2 ⟨stored, hstored⟩

/-- A trigger that gets another fire time. -/
theorem redated_putTrigger {stored : Stored} (hk : s.triggers[k]?.map Stored.declared = some stored.declared)
    (next : Option Instant) : Redated s (s.putTrigger k { stored with next }) := by
  refine ⟨rfl, fun k' => ?_⟩
  by_cases hkk : k = k'
  · subst hkk
    rw [putTrigger, Std.ExtTreeMap.getElem?_insert_self, hk]
    rfl
  · rw [putTrigger, Table.getElem?_insert_of_ne hkk]

/-- **What becomes of a trigger that has missed its fire time.** -/
inductive Treated (now cutoff : Instant) (old : Stored) : Stored → Prop where
  /-- It waits for the next fire time of its schedule, if there is one in its window. -/
  | skips {missed : Instant} {next : Option Instant} : old.next = some missed → missed < cutoff →
      old.trigger.policy = .doNothing →
        old.schedule.firstFire now old.trigger.start old.trigger.stop = .ok next →
          Treated now cutoff old { old with next }
  /-- It is due now. -/
  | due {missed : Instant} : old.next = some missed → missed < cutoff → old.trigger.policy = .fireOnceNow →
      Treated now cutoff old { old with next := some now }

/-- Nothing becomes of a trigger but that it gets another fire time. -/
theorem Treated.eq_with_next {cutoff : Instant} {old new : Stored} (h : Treated now cutoff old new) :
    ∃ next, new = { old with next } := by
  cases h with
  | skips _ _ _ _ => exact ⟨_, rfl⟩
  | due _ _ _ => exact ⟨_, rfl⟩

/-- **What is kept when a trigger is treated is kept when some are**, also when that is broken off. -/
theorem treatMissed_induction {I : Store → Prop} {cutoff : Instant} {missed : List (Key × Stored)}
    (hput : ∀ entry ∈ missed, ∀ new s, Treated now cutoff entry.2 new → I s → I (s.putTrigger entry.1 new))
    (hs : I s) : I (treatMissed now cutoff missed s).state := by
  induction missed generalizing s with
  | nil => exact hs
  | cons entry rest ih =>
    obtain ⟨k, stored⟩ := entry
    obtain ⟨hentry, hrest⟩ := List.forall_mem_cons.1 hput
    have hkeep {new : Stored} (hnew : Treated now cutoff stored new) :
        I (treatMissed now cutoff rest (s.putTrigger k new)).state := ih hrest (hentry new s hnew hs)
    unfold treatMissed
    split
    · exact ih hrest hs
    · next missed hmissed =>
      split
      · exact ih hrest hs
      · next hcutoff =>
        have hcutoff : missed < cutoff := not_not.1 hcutoff
        split
        · next hpolicy =>
          split
          · exact hs
          · next next hnext => exact hkeep (.skips hmissed hcutoff hpolicy hnext)
        · next hpolicy =>
          dsimp only
          split <;> exact hkeep (.due hmissed hcutoff hpolicy)

theorem applyMisfires_induction {I : Store → Prop}
    (hput : ∀ cutoff, now.sub s.threshold = .ok cutoff → ∀ k old new s', s.triggers[k]? = some old →
      Treated now cutoff old new → I s' → I (s'.putTrigger k new))
    (hs : I s) : I (s.applyMisfires now).state := by
  unfold applyMisfires
  split
  · exact hs
  · next cutoff hcutoff =>
    refine treatMissed_induction (fun entry hentry new s' hnew hs' => ?_) hs
    rw [Std.ExtTreeMap.mem_toList_iff_getElem?_eq_some] at hentry
    exact hput cutoff hcutoff _ _ new s' hentry hnew hs'

/-- Treating missed fire times changes nothing but the fire times of triggers. -/
theorem redated_applyMisfires (now : Instant) (s : Store) : Redated s (s.applyMisfires now).state := by
  refine applyMisfires_induction (fun cutoff _ k old new s' hold hnew hs' => ?_) (.refl s)
  obtain ⟨next, rfl⟩ := hnew.eq_with_next
  refine hs'.trans (redated_putTrigger ?_ next)
  rw [hs'.declared k, hold, Option.map_some]

/-- Treating missed fire times shuts no engine down and changes no threshold. -/
theorem applyMisfires_standing (now : Instant) (s : Store) : (s.applyMisfires now).state.standing = s.standing := by
  refine applyMisfires_induction (I := fun s' => s'.standing = s.standing) (fun cutoff _ k old new s' _ _ hs' => ?_) rfl
  exact hs'

theorem applyMisfires_stopped (now : Instant) (s : Store) : (s.applyMisfires now).state.stopped = s.stopped :=
  congrArg Prod.fst (applyMisfires_standing now s)

theorem applyMisfires_threshold (now : Instant) (s : Store) : (s.applyMisfires now).state.threshold = s.threshold :=
  congrArg Prod.snd (applyMisfires_standing now s)

/-- **What is answered when triggers are treated**: the keys of those that are due, unless that is broken off. -/
theorem treatMissed_reply (cutoff : Instant) (missed : List (Key × Stored)) (s : Store) :
    (treatMissed now cutoff missed s).reply =
        .answer ((missed.filter fun entry => entry.2.isDue cutoff).map Prod.fst) ∨
      ∃ o, (treatMissed now cutoff missed s).reply = .crashed (.overflow o) := by
  induction missed generalizing s with
  | nil => exact .inl rfl
  | cons entry rest ih =>
    obtain ⟨k, stored⟩ := entry
    unfold treatMissed
    split
    · next hnone =>
      rw [List.filter_cons_of_neg (by simp [Stored.isDue, hnone])]
      exact ih s
    · next missed hmissed =>
      split
      · next hlate =>
        rw [List.filter_cons_of_neg (by simp [Stored.isDue, hmissed, hlate])]
        exact ih s
      · next hlate =>
        split
        · next hpolicy =>
          rw [List.filter_cons_of_neg (by simp [Stored.isDue, hpolicy])]
          split
          · next o _ => exact .inr ⟨o, rfl⟩
          · exact ih _
        · next hpolicy =>
          rw [List.filter_cons_of_pos (by simp [Stored.isDue, hmissed, hpolicy, not_not.1 hlate])]
          dsimp only
          obtain hrest | ⟨o, hrest⟩ := ih (s.putTrigger k { stored with next := some now })
          · left
            rw [hrest]
            rfl
          · refine .inr ⟨o, ?_⟩
            rw [hrest]
            exact hrest

theorem applyMisfires_reply (now : Instant) (s : Store) :
    (∃ cutoff, (s.applyMisfires now).reply =
        .answer ((s.triggers.toList.filter fun entry => entry.2.isDue cutoff).map Prod.fst)) ∨
      ∃ o, (s.applyMisfires now).reply = .crashed (.overflow o) := by
  unfold applyMisfires
  split
  · next o _ => exact .inr ⟨o, rfl⟩
  · next cutoff _ => exact (treatMissed_reply cutoff _ s).imp_left fun h => ⟨cutoff, h⟩

/-! ### What holds of every stored trigger -/

section Every

variable {Q : Stored → Prop}

/-- All stored triggers have a property. -/
def Every (Q : Stored → Prop) (s : Store) : Prop :=
  ∀ {k : Key} {stored : Stored}, s.triggers[k]? = some stored → Q stored

theorem every_of_eq_empty (ht : s.triggers = ∅) : s.Every Q := by
  intro k stored h
  simp [ht] at h

/-- **A call keeps what holds of all stored triggers**, if it holds of every trigger that is allowed once it is
prepared. -/
theorem Change.every (h : Change now s s' c) (hc : c.Passes allowed)
    (hprep : ∀ t stored, allowed t → prepare now t = .answer stored → Q stored) (hs : s.Every Q) : s'.Every Q := by
  intro k stored hk
  cases h with
  | none _ ht => exact hs (ht ▸ hk)
  | addJob _ _ ht => exact hs (ht ▸ hk)
  | schedule _ _ hanswer _ ht =>
    obtain ⟨-, rfl⟩ | ⟨-, hk⟩ := Table.eq_or_of_getElem?_insert (ht ▸ hk)
    · exact hprep _ _ hc hanswer
    · exact hs hk
  | reschedule _ _ hanswer _ ht =>
    obtain ⟨-, rfl⟩ | ⟨-, hk⟩ := Table.eq_or_of_getElem?_insert (ht ▸ hk)
    · exact hprep _ _ hc hanswer
    · exact hs (Table.getElem?_erase_eq_some_iff.1 hk).2
  | delete _ _ ht => exact hs (Option.filter_eq_some_iff.1 (ht k ▸ hk)).1

/-- The treatment of missed fire times keeps what holds of all stored triggers, if it goes on holding of one that is
treated. -/
theorem every_applyMisfires (htreated : ∀ cutoff, now.sub s.threshold = .ok cutoff → ∀ old new,
    Treated now cutoff old new → Q old → Q new) (hs : s.Every Q) : (s.applyMisfires now).state.Every Q := by
  refine applyMisfires_induction (I := Every Q) (fun cutoff hcutoff k old new s' hold hnew hs' => ?_) hs
  intro k' stored hk'
  obtain ⟨-, rfl⟩ | ⟨-, hk'⟩ := Table.eq_or_of_getElem?_insert hk'
  · exact htreated cutoff hcutoff old new hnew (hs hold)
  · exact hs' hk'

/-- **What holds of every stored trigger in every memory that is reached**: it holds of every trigger that is allowed
once it is prepared, and it goes on holding when missed fire times are treated. -/
theorem Reached.every (hprep : ∀ now t stored, allowed t → prepare now t = .answer stored → Q stored)
    (htreated : ∀ now cutoff old new, Treated now cutoff old new → Q old → Q new) (h : s.Reached allowed) :
    s.Every Q := by
  induction h with
  | empty threshold => exact every_of_eq_empty rfl
  | call now c hc _ ih => exact (serve_change now c _).every hc (hprep now) ih
  | applyMisfires now _ ih => exact every_applyMisfires (fun cutoff _ => htreated now cutoff) ih
  | clear _ _ => exact every_of_eq_empty rfl
  | shutDown _ ih => exact ih

end Every

/-! ### Everything under its own key -/

/-- **The tables make sense.** -/
structure Sound (s : Store) : Prop where
  /-- A job is stored under its own key. -/
  jobKey : ∀ {k : Key} {job : Job}, s.jobs[k]? = some job → job.key = k
  /-- A trigger is stored under its own key. -/
  triggerKey : ∀ {k : Key} {stored : Stored}, s.triggers[k]? = some stored → stored.trigger.key = k
  /-- The job that a trigger fires is stored. -/
  owner : ∀ {k : Key} {stored : Stored}, s.triggers[k]? = some stored → stored.trigger.jobKey ∈ s.jobs
  /-- The schedule of a trigger is that of its cron expression. -/
  schedule : ∀ {k : Key} {stored : Stored}, s.triggers[k]? = some stored →
    readCron stored.trigger.cron = .ok stored.schedule

theorem sound_of_eq_empty (hj : s.jobs = ∅) (ht : s.triggers = ∅) : s.Sound := by
  constructor <;> intro k v h <;> simp [hj, ht] at h

/-- Whether the tables make sense depends on nothing but the tables. -/
theorem Sound.of_eq (hs : s.Sound) (hj : s'.jobs = s.jobs) (ht : s'.triggers = s.triggers) : s'.Sound :=
  ⟨hj ▸ hs.jobKey, ht ▸ hs.triggerKey, hj ▸ ht ▸ hs.owner, ht ▸ hs.schedule⟩

/-- A job is put under its own key. -/
theorem Sound.insertJob (hs : s.Sound) {job : Job} (hk : job.key = k) :
    Sound { s with jobs := s.jobs.insert k job } where
  jobKey h := by
    obtain ⟨rfl, rfl⟩ | ⟨-, h⟩ := Table.eq_or_of_getElem?_insert h
    · exact hk
    · exact hs.jobKey h
  triggerKey := hs.triggerKey
  owner h := Std.ExtTreeMap.mem_insert.2 (.inr (hs.owner h))
  schedule := hs.schedule

/-- The tables make sense after any call. -/
theorem Change.sound (h : Change now s s' c) (hs : s.Sound) : s'.Sound := by
  cases h with
  | none hj ht => exact hs.of_eq hj ht
  | addJob _ hj ht => exact Sound.of_eq (hs.insertJob rfl) hj ht
  | schedule howner _ hprep hj ht =>
    obtain ⟨schedule, next, hread, -, rfl⟩ := prepare_eq_answer_iff.1 hprep
    refine ⟨hj ▸ hs.jobKey, fun h => ?_, fun h => ?_, fun h => ?_⟩ <;> rw [ht] at h <;>
      obtain ⟨hk, rfl⟩ | ⟨-, h⟩ := Table.eq_or_of_getElem?_insert h
    · exact hk
    · exact hs.triggerKey h
    · exact hj ▸ howner
    · exact hj ▸ hs.owner h
    · exact hread
    · exact hs.schedule h
  | reschedule hold hjob hprep hj ht =>
    obtain ⟨schedule, next, hread, -, rfl⟩ := prepare_eq_answer_iff.1 hprep
    refine ⟨hj ▸ hs.jobKey, fun h => ?_, fun h => ?_, fun h => ?_⟩ <;> rw [ht] at h <;>
      obtain ⟨hk, rfl⟩ | ⟨-, h⟩ := Table.eq_or_of_getElem?_insert h
    · exact hk
    · exact hs.triggerKey (Table.getElem?_erase_eq_some_iff.1 h).2
    · exact hj ▸ hjob ▸ hs.owner hold
    · exact hj ▸ hs.owner (Table.getElem?_erase_eq_some_iff.1 h).2
    · exact hread
    · exact hs.schedule (Table.getElem?_erase_eq_some_iff.1 h).2
  | delete _ hj ht =>
    refine ⟨fun h => ?_, fun h => ?_, fun h => ?_, fun h => ?_⟩
    · rw [hj, Option.ite_none_left_eq_some] at h
      exact hs.jobKey h.2
    all_goals
      rw [ht, Option.filter_eq_some_iff, decide_eq_true_eq] at h
    · exact hs.triggerKey h.1
    · obtain ⟨job, hjob⟩ := Table.mem_iff_exists.1 (hs.owner h.1)
      exact Table.mem_iff_exists.2 ⟨job, by rw [hj, if_neg h.2, hjob]⟩
    · exact hs.schedule h.1

theorem Redated.sound (h : Redated s s') (hs : s.Sound) : s'.Sound where
  jobKey := h.jobs ▸ hs.jobKey
  triggerKey hk := by
    obtain ⟨old, hold, heq, -⟩ := h.exists_of_getElem? hk
    exact heq ▸ hs.triggerKey hold
  owner hk := by
    obtain ⟨old, hold, heq, -⟩ := h.exists_of_getElem? hk
    exact h.jobs ▸ heq ▸ hs.owner hold
  schedule hk := by
    obtain ⟨old, hold, heq, heq'⟩ := h.exists_of_getElem? hk
    exact heq ▸ heq' ▸ hs.schedule hold

/-- **The tables make sense in every memory that is reached**, whatever triggers were passed. -/
theorem Reached.sound (h : s.Reached allowed) : s.Sound := by
  induction h with
  | empty threshold => exact sound_of_eq_empty rfl rfl
  | call now c _ _ ih => exact (serve_change now c _).sound ih
  | applyMisfires now _ ih => exact (redated_applyMisfires now _).sound ih
  | clear _ _ => exact sound_of_eq_empty rfl rfl
  | shutDown _ ih => exact ⟨ih.jobKey, ih.triggerKey, ih.owner, ih.schedule⟩

/-! ### Triggers under the keys of their jobs -/

/-- All stored triggers have the keys of their jobs. -/
def Mirrored (s : Store) : Prop :=
  ∀ {k : Key} {stored : Stored}, s.triggers[k]? = some stored → stored.trigger.Mirrors

/-- A job that is not durable has a trigger under its key. -/
def Supported (s : Store) : Prop :=
  ∀ {k : Key} {job : Job}, s.jobs[k]? = some job → job.durable = false → k ∈ s.triggers

theorem Sound.jobKey_of_mirrored (hs : s.Sound) (hm : s.Mirrored) {stored : Stored}
    (h : s.triggers[k]? = some stored) : stored.trigger.jobKey = k :=
  (hm h).symm.trans (hs.triggerKey h)

/-- A deletion of other jobs keeps what is stored under a key. -/
theorem Sound.filter_of_not_mem (hs : s.Sound) (hm : s.Mirrored) {keys : List Key} (hk : k ∉ keys) :
    (s.triggers[k]?.filter fun stored => stored.trigger.jobKey ∉ keys) = s.triggers[k]? := by
  cases hstored : s.triggers[k]? with
  | none => rfl
  | some stored =>
    rw [Option.filter_some, if_pos]
    rw [hs.jobKey_of_mirrored hm hstored]
    exact decide_eq_true hk

theorem supported_of_eq_empty (hj : s.jobs = ∅) : s.Supported := by
  intro k job h
  simp [hj] at h

/-- A trigger that is prepared is stored as it is. -/
theorem mirrors_of_prepare {t : Trigger} {stored : Stored} (ht : t.Mirrors) (h : prepare now t = .answer stored) :
    stored.trigger.Mirrors := by
  obtain ⟨_, _, -, -, rfl⟩ := prepare_eq_answer_iff.1 h
  exact ht

theorem Change.mirrored (h : Change now s s' c) (hc : c.Passes Trigger.Mirrors) (hm : s.Mirrored) : s'.Mirrored :=
  h.every hc (fun _ _ => mirrors_of_prepare) hm

/-- **Triggers have the keys of their jobs** in every memory that is reached when the triggers that are passed have. -/
theorem Reached.mirrored (h : s.Reached Trigger.Mirrors) : s.Mirrored := by
  refine h.every (fun _ _ _ => mirrors_of_prepare) fun now cutoff old new hnew hold => ?_
  obtain ⟨next, rfl⟩ := hnew.eq_with_next
  exact hold

/-- A job that is not durable keeps its trigger, since a trigger is only taken away with its job or for another one of
the same job. -/
theorem Change.supported (h : Change now s s' c) (hc : c.Passes Trigger.Mirrors) (hs : s.Sound) (hm : s.Mirrored)
    (hd : s.Supported) : s'.Supported := by
  intro k job hk hdur
  cases h with
  | none hj ht => exact ht ▸ hd (hj ▸ hk) hdur
  | addJob hnew hj ht =>
    rw [ht]
    obtain ⟨rfl, rfl⟩ | ⟨-, hk⟩ := Table.eq_or_of_getElem?_insert (hj ▸ hk)
    · exact hnew hdur
    · exact hd hk hdur
  | schedule _ _ _ hj ht =>
    rw [ht, Std.ExtTreeMap.mem_insert]
    exact .inr (hd (hj ▸ hk) hdur)
  | @reschedule key t old _ hold hjob _ hj ht =>
    have hkey : t.key = key := by
      rw [show t.key = t.jobKey from hc, ← hjob, hs.jobKey_of_mirrored hm hold]
    rw [ht, Std.ExtTreeMap.mem_insert, Std.ExtTreeMap.mem_erase, hkey]
    by_cases hkk : key = k
    · simp [hkk]
    · simpa [hkk] using hd (hj ▸ hk) hdur
  | delete _ hj ht =>
    rw [hj, Option.ite_none_left_eq_some] at hk
    obtain ⟨stored, hstored⟩ := Table.mem_iff_exists.1 (hd hk.2 hdur)
    exact Table.mem_iff_exists.2 ⟨stored, by rw [ht, hs.filter_of_not_mem hm hk.1, hstored]⟩

theorem Redated.supported (h : Redated s s') (hd : s.Supported) : s'.Supported :=
  fun hk hdur => h.mem_triggers (hd (h.jobs ▸ hk) hdur)

/-- **Triggers have the keys of their jobs, and jobs that are not durable have triggers**, in every memory that is
reached when the triggers that are passed have the keys of their jobs. -/
theorem Reached.mirrored_supported (h : s.Reached Trigger.Mirrors) : s.Mirrored ∧ s.Supported := by
  refine ⟨h.mirrored, ?_⟩
  induction h with
  | empty threshold => exact supported_of_eq_empty rfl
  | call now c hc hs ih => exact (serve_change now c _).supported hc hs.sound hs.mirrored ih
  | applyMisfires now _ ih => exact (redated_applyMisfires now _).supported ih
  | clear _ _ => exact supported_of_eq_empty rfl
  | shutDown _ ih => exact ih

/-! ### Programs -/

/-- **A program that passes only allowed triggers keeps a memory among those that are reached**, so a request to a
roster needs no case of its own there. -/
theorem Reached.exec {α : Type} {R : (c : Call) → Except EngineError c.Answer → Prop} {Q : α → Prop} {p : Program α}
    (hR : ∀ c s, Reached allowed s → (s.serve now c).reply.Meets (R c))
    (hp : p.Obeys (Call.Passes allowed) R Q) (hs : s.Reached allowed) :
    Reached allowed (p.exec (engine now) s).2 := by
  refine (Program.Obeys.exec (I := Reached allowed) ?_ hp hs).1
  intro c s hc hs
  exact ⟨hs.call now c hc, hR c s hs⟩

end Store

end JobRoster
