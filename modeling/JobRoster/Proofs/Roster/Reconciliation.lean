import JobRoster.Proofs.Engine.Reading
import JobRoster.Proofs.Job.Merge
import JobRoster.Proofs.Roster.Requests

/-!
# What a declaration leads to

The two halves of carrying out a declaration over an engine in memory, worked out call by call. The job under the key
of the declaration is `Declaration.jobAfter` of what was there, and the trigger is the declared one unless one with its
cron expression is there (`Declaration.keeps`). In a memory that makes sense there are five stages to which that gets
(`Declaration.stage`), and each of them decides the end but the last one, at which the declared trigger is prepared
(`leads_verdict`). That triggers have the keys of their jobs, and that jobs which are not durable have triggers, rules
out all refusals but those of the declared trigger itself.

Main statements:

* `registration_effect`: what a declaration that was carried out has done.
* `registration_failure`: why a declaration is not carried out, and what it leaves behind then.
-/

namespace JobRoster

open Attempt

namespace Declaration

variable {d : Declaration} {s s' : Store} {now : Instant}

/-! ### The job -/

/-- The data of a job after a declaration: the declared data are merged into what was there. -/
def dataAfter (d : Declaration) (old : Payload) : Payload :=
  match d.data with
  | some data => (old.merge data).1
  | none => old

/-- The job after a declaration, given the one that was there. -/
def jobAfter (d : Declaration) : Option Job → Job
  | none => d.job
  | some old => { old with data := d.dataAfter old.data }

/-- What happens to the job, given the one that was there. -/
def jobChange (d : Declaration) : Option Job → JobChange
  | none => .created
  | some old => if (d.data.map old.data.merge).any Prod.snd then .merged else .unchanged

theorem jobAfter_key {old : Option Job} (h : ∀ job ∈ old, job.key = d.key) : (d.jobAfter old).key = d.key := by
  cases old with
  | none => rfl
  | some old => exact h old rfl

theorem jobChange_eq_created_iff {old : Option Job} : d.jobChange old = .created ↔ old = none := by
  cases old with
  | none => simp [jobChange]
  | some old =>
    simp only [jobChange, reduceCtorEq, iff_false]
    split <;> simp

/-- A job that was there is unchanged exactly if it is what it was. -/
theorem jobChange_eq_unchanged_iff {old : Job} :
    d.jobChange (some old) = .unchanged ↔ d.jobAfter (some old) = old := by
  have hkept : d.jobAfter (some old) = old ↔ d.dataAfter old.data = old.data := by
    constructor
    · intro h
      exact congrArg Job.data h
    · intro h
      rw [jobAfter, h]
  rw [hkept]
  cases hdata : d.data with
  | none => simp [jobChange, dataAfter, hdata]
  | some data =>
    simp only [jobChange, dataAfter, hdata, Option.map_some, Option.any_some]
    cases hchanged : (old.data.merge data).2 with
    | true => simpa using (Payload.merge_changed_iff old.data data).1 hchanged
    | false => simpa using Payload.merge_unchanged hchanged

/-- The job that is there takes over data, but it is neither durable nor does it have a trigger. -/
def blocked (d : Declaration) (s : Store) : Bool :=
  match s.jobs[d.key]? with
  | some old => d.jobChange (some old) = .merged && !old.durable && !s.triggers.contains d.key
  | none => false

theorem exists_of_blocked (h : d.blocked s = true) : ∃ old, s.jobs[d.key]? = some old ∧
    d.jobChange (some old) = .merged ∧ old.durable = false ∧ d.key ∉ s.triggers := by
  unfold blocked at h
  cases hjob : s.jobs[d.key]? with
  | none =>
    rw [hjob] at h
    cases h
  | some old =>
    simp only [hjob, Bool.and_eq_true, decide_eq_true_eq, Bool.not_eq_true', ← Bool.not_eq_true,
      Std.ExtTreeMap.contains_iff_mem] at h
    obtain ⟨⟨hchange, hdurable⟩, htrigger⟩ := h
    exact ⟨old, rfl, hchange, Bool.not_eq_true _ ▸ hdurable, htrigger⟩

theorem not_blocked_of_supported (hd : s.Supported) : d.blocked s = false := by
  unfold blocked
  split
  · next old hold =>
    cases hdurable : old.durable with
    | true => simp
    | false => simp [Std.ExtTreeMap.contains_iff_mem.2 (hd hold hdurable)]
  · rfl

/-- What is done with the job that is there: it is replaced by what it has to be, if that is another one. -/
def takeOver (d : Declaration) (old : Job) : Attempt JobChange :=
  if d.jobChange (some old) = .merged then do
    call (.addJob (d.jobAfter (some old)) true)
    report (.payloadMerged d.key)
    return .merged
  else return .unchanged

/-- Bringing the job in line, with what happens to the job said by `jobChange` and `jobAfter`. -/
theorem reconcileJob_eq (d : Declaration) : d.reconcileJob = (do
    if ← call (.jobExists d.key) then
      match ← call (.getJob d.key) with
      | none => throw (.jobNotFound d.key.display)
      | some old => d.takeOver old
    else
      call (.addJob d.job false)
      report (.jobAdded d.key)
      return .created) := by
  unfold reconcileJob takeOver
  congr 1
  funext there
  cases there with
  | false => rfl
  | true =>
    simp only [if_true]
    congr 1
    funext found
    cases found with
    | none => rfl
    | some old =>
      simp only
      cases hdata : d.data with
      | none => rw [if_neg (by simp [jobChange, hdata])]; rfl
      | some data =>
        rcases hmerge : old.data.merge data with ⟨merged, changed⟩
        cases changed with
        | false => rw [if_neg (by simp [jobChange, hdata, hmerge]), Option.map_some, hmerge]
        | true =>
          have hafter : d.jobAfter (some old) = { old with data := merged } := by
            simp [jobAfter, dataAfter, hdata, hmerge]
          rw [if_pos (by simp [jobChange, hdata, hmerge]), Option.map_some, hmerge, hafter]

/-- Where a job is there that would not change, it is only read. -/
theorem readsTo_reconcileJob {old : Job} (hjob : s.jobs[d.key]? = some old)
    (hunchanged : d.jobChange (some old) = .unchanged) : d.reconcileJob.ReadsTo s .unchanged := by
  rw [reconcileJob_eq]
  refine (readsTo_jobExists d.key).bind ?_
  rw [Table.contains_iff_exists.2 ⟨old, hjob⟩, if_pos rfl]
  refine (readsTo_getJob d.key).bind ?_
  simp only [hjob]
  rw [takeOver, hunchanged, if_neg (by decide)]
  exact readsTo_pure _

/-- A job that is not there is added. -/
theorem leads_addJob_of_none (hrun : s.stopped = false) (hjob : s.jobs[d.key]? = none) :
    (call (.addJob d.job false)).Leads now s (.ok (.ok ()))
      { s with jobs := s.jobs.insert d.key (d.jobAfter none) } := by
  refine leads_addJob hrun (fun hknown => ?_) fun hdurable => ?_
  · exact absurd hjob (Option.ne_none_iff_exists'.2 (Table.mem_iff_exists.1 hknown))
  · cases hdurable

/-- A job that takes over data is replaced. -/
theorem leads_addJob_of_merged (hrun : s.stopped = false) (hs : s.Sound) (hblocked : d.blocked s = false) {old : Job}
    (hjob : s.jobs[d.key]? = some old) (hchange : d.jobChange (some old) = .merged) :
    (call (.addJob (d.jobAfter (some old)) true)).Leads now s (.ok (.ok ()))
      { s with jobs := s.jobs.insert d.key (d.jobAfter (some old)) } := by
  have hold : old.key = d.key := hs.jobKey hjob
  have hkey : (d.jobAfter (some old)).key = d.key := hold
  rw [← hkey]
  refine leads_addJob hrun (fun _ => rfl) fun hdurable => ?_
  simpa [blocked, hjob, hchange, show old.durable = false from hdurable, hkey] using hblocked

/-- A job that is neither durable nor has a trigger is not replaced. -/
theorem leads_addJob_of_not_supported (hrun : s.stopped = false) (hs : s.Sound) {old : Job}
    (hjob : s.jobs[d.key]? = some old) (hdurable : old.durable = false) (htrigger : d.key ∉ s.triggers) :
    (call (.addJob (d.jobAfter (some old)) true)).Leads now s (.ok (.error (.notDurable d.key.display))) s := by
  have hold : old.key = d.key := hs.jobKey hjob
  have hkey : (d.jobAfter (some old)).key = d.key := hold
  rw [← hkey] at htrigger ⊢
  exact leads_addJob_of_not_durable hrun hdurable htrigger

/-- Bringing the job in line stores the job after the declaration, unless that is refused. -/
theorem leads_reconcileJob (hrun : s.stopped = false) (hs : s.Sound) (hblocked : d.blocked s = false) :
    d.reconcileJob.Leads now s (.ok (.ok (d.jobChange s.jobs[d.key]?)))
      { s with jobs := s.jobs.insert d.key (d.jobAfter s.jobs[d.key]?) } := by
  cases hjob : s.jobs[d.key]? with
  | none =>
    rw [reconcileJob_eq]
    refine (leads_jobExists hrun d.key).bind ?_
    rw [Table.contains_eq_false_iff.2 hjob, if_neg Bool.false_ne_true]
    exact (leads_addJob_of_none hrun hjob).bind ((leads_report _).bind (leads_pure _))
  | some old =>
    cases hchange : d.jobChange (some old) with
    | created => cases jobChange_eq_created_iff.1 hchange
    | unchanged =>
      rw [jobChange_eq_unchanged_iff.1 hchange, Table.insert_of_getElem? hjob]
      exact (readsTo_reconcileJob hjob hchange).leads hrun
    | merged =>
      rw [reconcileJob_eq]
      refine (leads_jobExists hrun d.key).bind ?_
      rw [Table.contains_iff_exists.2 ⟨old, hjob⟩, if_pos rfl]
      refine (leads_getJob hrun d.key).bind ?_
      simp only [hjob]
      rw [takeOver, if_pos hchange]
      exact (leads_addJob_of_merged hrun hs hblocked hjob hchange).bind ((leads_report _).bind (leads_pure _))

/-- A job that is neither durable nor has a trigger does not take over data. -/
theorem leads_reconcileJob_of_blocked (hrun : s.stopped = false) (hs : s.Sound) (hblocked : d.blocked s = true) :
    d.reconcileJob.Leads now s (.ok (.error (.notDurable d.key.display))) s := by
  obtain ⟨old, hjob, hchange, hdurable, htrigger⟩ := exists_of_blocked hblocked
  rw [reconcileJob_eq]
  refine (leads_jobExists hrun d.key).bind ?_
  rw [Table.contains_iff_exists.2 ⟨old, hjob⟩, if_pos rfl]
  refine (leads_getJob hrun d.key).bind ?_
  simp only [hjob]
  rw [takeOver, if_pos hchange]
  exact (leads_addJob_of_not_supported hrun hs hjob hdurable htrigger).bind_error _

/-! ### The trigger -/

/-- A declaration keeps a trigger that has its cron expression, ignoring case. -/
def keeps (d : Declaration) : Option Stored → Bool
  | none => false
  | some old => Text.sameIgnoringCase old.trigger.cron d.cron

theorem exists_of_keeps {before : Option Stored} (h : d.keeps before = true) :
    ∃ old, before = some old ∧ Text.sameIgnoringCase old.trigger.cron d.cron = true := by
  cases before with
  | none => cases h
  | some old => exact ⟨old, rfl, h⟩

/-- What happens to a trigger that is not kept, given the one that was there. -/
def triggerChange : Option Stored → TriggerChange
  | none => .scheduled
  | some _ => .rescheduled

/-- A trigger that is kept is only read. -/
theorem readsTo_reconcileTrigger (hkeeps : d.keeps s.triggers[d.key]? = true) :
    d.reconcileTrigger.ReadsTo s (.unchanged, none) := by
  obtain ⟨old, hold, hsame⟩ := exists_of_keeps hkeeps
  refine (readsTo_triggerExists d.key).bind ?_
  rw [Table.contains_iff_exists.2 ⟨old, hold⟩, if_pos rfl]
  refine (readsTo_getTrigger d.key).bind ?_
  simp only [hold, Option.map_some]
  rw [if_pos hsame]
  exact (readsTo_report _).bind (readsTo_pure _)

/-- A declaration owns a trigger that fires its job, and a place where no trigger is. -/
def owns (d : Declaration) : Option Stored → Bool
  | none => true
  | some old => old.trigger.jobKey = d.key

theorem exists_of_not_owns {before : Option Stored} (h : d.owns before = false) :
    ∃ old, before = some old ∧ old.trigger.jobKey ≠ d.key := by
  cases before with
  | none => cases h
  | some old => exact ⟨old, rfl, of_decide_eq_false h⟩

/-- Where triggers have the keys of their jobs, what is under the key of a declaration is its own. -/
theorem owns_of_mirrored (hs : s.Sound) (hm : s.Mirrored) : d.owns s.triggers[d.key]? = true := by
  cases hold : s.triggers[d.key]? with
  | none => rfl
  | some old => exact decide_eq_true (hs.jobKey_of_mirrored hm hold)

/-- Any other trigger gives place to the declared one, once that is prepared, if it fires the same job. -/
theorem leads_reconcileTrigger_of_owns (hrun : s.stopped = false) (hjob : d.key ∈ s.jobs)
    (hkeeps : d.keeps s.triggers[d.key]? = false) (howns : d.owns s.triggers[d.key]? = true) :
    d.reconcileTrigger.Leads now s
      (s.putPrepared now d.trigger fun next => (triggerChange s.triggers[d.key]?, next)).1
      (s.putPrepared now d.trigger fun next => (triggerChange s.triggers[d.key]?, next)).2 := by
  refine (leads_triggerExists hrun d.key).bind ?_
  cases hold : s.triggers[d.key]? with
  | none =>
    rw [Table.contains_eq_false_iff.2 hold, if_neg Bool.false_ne_true]
    exact (leads_schedule (t := d.trigger) hrun hjob hold).bind_putPrepared fun next s =>
      (leads_report _).bind (leads_pure _)
  | some old =>
    rw [hold, keeps] at hkeeps
    rw [Table.contains_iff_exists.2 ⟨old, hold⟩, if_pos rfl]
    refine (leads_getTrigger hrun d.key).bind ?_
    simp only [hold, Option.map_some]
    rw [if_neg (Bool.eq_false_iff.1 hkeeps)]
    rw [hold, owns, decide_eq_true_eq] at howns
    exact (leads_reschedule (t := d.trigger) hrun hold howns).bind_putPrepared
      fun next s => (leads_report _).bind (leads_pure _)

/-- A trigger that fires another job stays where it is. -/
theorem leads_reconcileTrigger_of_not_owns (hrun : s.stopped = false) (hkeeps : d.keeps s.triggers[d.key]? = false)
    (howns : d.owns s.triggers[d.key]? = false) :
    d.reconcileTrigger.Leads now s (.ok (.error (.jobMismatch d.key.display))) s := by
  obtain ⟨old, hold, hother⟩ := exists_of_not_owns howns
  rw [hold, keeps] at hkeeps
  refine (leads_triggerExists hrun d.key).bind ?_
  rw [Table.contains_iff_exists.2 ⟨old, hold⟩, if_pos rfl]
  refine (leads_getTrigger hrun d.key).bind ?_
  simp only [hold, Option.map_some]
  rw [if_neg (Bool.eq_false_iff.1 hkeeps)]
  exact (leads_reschedule_of_ne (t := d.trigger) hrun hold hother).bind_error _

/-! ### Both -/

/-- The memory with the job brought in line. -/
def withJob (d : Declaration) (s : Store) : Store :=
  { s with jobs := s.jobs.insert d.key (d.jobAfter s.jobs[d.key]?) }

theorem withJob_sound (hs : s.Sound) : (d.withJob s).Sound :=
  hs.insertJob (jobAfter_key fun _ hjob => hs.jobKey hjob)

/-- **What carrying out a declaration ends with**, and the memory then. -/
def afterwards (d : Declaration) (now : Instant) (s : Store) : Except Crash (Except EngineError Outcome) × Store :=
  if s.stopped then (.ok (.error (.unavailable "the scheduler has been shut down")), s)
  else if d.blocked s then (.ok (.error (.notDurable d.key.display)), s)
  else if d.keeps s.triggers[d.key]? then (.ok (.ok ⟨d.jobChange s.jobs[d.key]?, .unchanged, none⟩), d.withJob s)
  else (d.withJob s).putPrepared now d.trigger fun next =>
    ⟨d.jobChange s.jobs[d.key]?, triggerChange s.triggers[d.key]?, next⟩

/-- **How far carrying out a declaration gets** before it depends on the declared trigger. -/
inductive Stage where
  /-- The engine takes no calls. -/
  | stopped
  /-- The job cannot take over the data. -/
  | blocked
  /-- The trigger that is there is kept. -/
  | kept
  /-- The trigger that is there fires another job. -/
  | foreign
  /-- The declared trigger is prepared. -/
  | prepared
  deriving DecidableEq, Repr

/-- How far carrying out a declaration gets over a memory. -/
def stage (d : Declaration) (s : Store) : Stage :=
  if s.stopped then .stopped
  else if d.blocked s then .blocked
  else if d.keeps s.triggers[d.key]? then .kept
  else if d.owns s.triggers[d.key]? then .prepared
  else .foreign

/-- **What carrying out a declaration ends with at each stage**, and the memory then. -/
def verdict (d : Declaration) (now : Instant) (s : Store) : Stage → Except Crash (Except EngineError Outcome) × Store
  | .stopped => (.ok (.error (.unavailable "the scheduler has been shut down")), s)
  | .blocked => (.ok (.error (.notDurable d.key.display)), s)
  | .kept => (.ok (.ok ⟨d.jobChange s.jobs[d.key]?, .unchanged, none⟩), d.withJob s)
  | .foreign => (.ok (.error (.jobMismatch d.key.display)), d.withJob s)
  | .prepared => (d.withJob s).putPrepared now d.trigger fun next =>
      ⟨d.jobChange s.jobs[d.key]?, triggerChange s.triggers[d.key]?, next⟩

/-- Only a trigger that fires another job makes a difference. -/
theorem verdict_stage_of_owns (howns : d.owns s.triggers[d.key]? = true) :
    d.verdict now s (d.stage s) = d.afterwards now s := by
  unfold stage afterwards
  rw [if_pos howns]
  split_ifs <;> rfl

/-- **Carrying out a declaration leads where its stage says**, whatever triggers there are. -/
theorem leads_verdict (hs : s.Sound) :
    d.reconcile.Leads now s (d.verdict now s (d.stage s)).1 (d.verdict now s (d.stage s)).2 := by
  unfold stage
  cases hrun : s.stopped with
  | true =>
    rw [if_pos rfl]
    exact ((leads_of_stopped hrun _).bind_error _).bind_error _
  | false =>
    rw [if_neg Bool.false_ne_true]
    cases hblocked : d.blocked s with
    | true =>
      rw [if_pos rfl]
      exact (leads_reconcileJob_of_blocked hrun hs hblocked).bind_error _
    | false =>
      rw [if_neg Bool.false_ne_true]
      have hjob : d.key ∈ (d.withJob s).jobs := Std.ExtTreeMap.mem_insert_self
      refine (leads_reconcileJob hrun hs hblocked).bind ?_
      cases hkeeps : d.keeps s.triggers[d.key]? with
      | true =>
        rw [if_pos rfl]
        exact ((readsTo_reconcileTrigger (s := d.withJob s) hkeeps).leads hrun).bind (leads_pure _)
      | false =>
        rw [if_neg Bool.false_ne_true]
        cases howns : d.owns s.triggers[d.key]? with
        | true =>
          rw [if_pos rfl]
          exact (leads_reconcileTrigger_of_owns (s := d.withJob s) hrun hjob hkeeps howns).bind_putPrepared
            fun next s => leads_pure _
        | false =>
          rw [if_neg Bool.false_ne_true]
          exact (leads_reconcileTrigger_of_not_owns (s := d.withJob s) hrun hkeeps howns).bind_error _

/-- The ways in which carrying out a declaration ends, and the memory then. -/
inductive Ending (d : Declaration) (now : Instant) (s : Store) :
    Except Crash (Except EngineError Outcome) × Store → Prop where
  /-- The engine takes no calls. -/
  | stopped : Ending d now s (.ok (.error (.unavailable "the scheduler has been shut down")), s)
  /-- The job cannot take over the data. -/
  | blocked : d.blocked s = true → Ending d now s (.ok (.error (.notDurable d.key.display)), s)
  /-- The trigger is kept. -/
  | kept : d.keeps s.triggers[d.key]? = true →
      Ending d now s (.ok (.ok ⟨d.jobChange s.jobs[d.key]?, .unchanged, none⟩), d.withJob s)
  /-- The declared trigger is put. -/
  | put {stored : Stored} : d.keeps s.triggers[d.key]? = false → Store.prepare now d.trigger = .answer stored →
      Ending d now s (.ok (.ok ⟨d.jobChange s.jobs[d.key]?, triggerChange s.triggers[d.key]?, stored.next⟩),
        (d.withJob s).putTrigger d.key stored)
  /-- The declared trigger is refused. -/
  | refused {e : EngineError} : Store.prepare now d.trigger = .refused e →
      Ending d now s (.ok (.error e), d.withJob s)
  /-- The engine crashes over the declared trigger. -/
  | crashed {crash : Crash} : Store.prepare now d.trigger = .crashed crash →
      Ending d now s (.error crash, d.withJob s)

theorem ending_afterwards (d : Declaration) (now : Instant) (s : Store) : d.Ending now s (d.afterwards now s) := by
  unfold afterwards
  split
  · exact .stopped
  · split
    · next hblocked => exact .blocked hblocked
    · split
      · next hkeeps => exact .kept hkeeps
      · next hkeeps =>
        unfold Store.putPrepared
        split
        · next hprep => exact .put (Bool.eq_false_iff.2 hkeeps) hprep
        · next hprep => exact .refused hprep
        · next hprep => exact .crashed hprep

/-- What a request to carry out a declaration ends with. -/
def answer (d : Declaration) : Except Crash (Except EngineError Outcome) → Except Crash Roster.Answer
  | .ok (.ok outcome) => .ok (.registered (.ok outcome))
  | .ok (.error source) => .ok (.registered (.error (.refused d.key source)))
  | .error crash => .error crash

/-- A request to carry out a declaration ends with what carrying it out ends with, on any engine. -/
theorem exec_register {σ : Type} (d : Declaration) (engine : Engine σ) (r : Roster) (s : σ) :
    (r.program (.register d)).exec engine s =
      (d.answer (d.reconcile.run.exec engine s).1, (d.reconcile.run.exec engine s).2) := by
  rw [Roster.program, Program.exec_bind, register, Program.exec_bind]
  rcases d.reconcile.run.exec engine s with ⟨crash | (source | outcome), s'⟩ <;> rfl

/-- **A request to carry out a declaration** over an engine in memory ends as the stage says to which that gets, and in
the memory then, all but for the counters. -/
theorem exec_program_verdict (d : Declaration) (now : Instant) (r : Roster) (hs : s.Sound) :
    ∃ counters, (r.program (.register d)).exec (Store.engine now) s =
      (d.answer (d.verdict now s (d.stage s)).1, { (d.verdict now s (d.stage s)).2 with counters }) := by
  obtain ⟨counters, hleads⟩ := leads_verdict (d := d) hs s.counters
  exact ⟨counters, by rw [exec_register, hleads]⟩

/-- Where triggers have the keys of their jobs, it ends with what carrying out the declaration ends with. -/
theorem exec_program (now : Instant) (r : Roster) (hs : s.Sound) (hm : s.Mirrored) :
    ∃ counters, (r.program (.register d)).exec (Store.engine now) s =
      (d.answer (d.afterwards now s).1, { (d.afterwards now s).2 with counters }) := by
  rw [← verdict_stage_of_owns (owns_of_mirrored hs hm)]
  exact d.exec_program_verdict now r hs

/-! ### What it has done -/

/-- What has become of a job. -/
structure JobEffect (d : Declaration) (before after : Option Job) (change : JobChange) : Prop where
  /-- It is a new one, or the old one with the declared data merged into its own. -/
  job : after = some (d.jobAfter before)
  /-- It was made exactly if there was none. -/
  created : change = .created ↔ before = none
  /-- It took over data exactly if it was there and is not what it was. -/
  merged : change = .merged ↔ before ≠ none ∧ after ≠ before
  /-- Nothing happened exactly if it was there and is what it was. -/
  unchanged : change = .unchanged ↔ before ≠ none ∧ after = before

/-- What has become of a trigger, its next fire time included. -/
structure TriggerEffect (d : Declaration) (now : Instant) (before after : Option Stored) (change : TriggerChange)
    (next : Option Instant) : Prop where
  /-- One with the declared cron expression, ignoring case, is what it was. -/
  kept : d.keeps before = true → after = before
  /-- Otherwise it is the declared one, with the schedule of its expression and its first fire time. -/
  put : d.keeps before = false → ∃ schedule first, readCron d.cron = .ok schedule ∧
    schedule.firstFire now d.start d.stop = .ok (some first) ∧ after = some ⟨d.trigger, schedule, some first⟩
  /-- It was made exactly if there was none. -/
  scheduled : change = .scheduled ↔ before = none
  /-- It was replaced exactly if there was one and is another one. -/
  rescheduled : change = .rescheduled ↔ before ≠ none ∧ after ≠ before
  /-- Nothing happened exactly if there was one and is the same. -/
  unchanged : change = .unchanged ↔ before ≠ none ∧ after = before
  /-- No fire time is told of a trigger to which nothing happened. -/
  next_of_unchanged : change = .unchanged → next = none
  /-- Of any other trigger the next fire time is told, which it has. -/
  next_of_changed : change ≠ .unchanged → next.isSome = true ∧ next = after.bind Stored.next

/-- **What a declaration that was carried out has done**, from one memory to another one. -/
structure Reconciled (d : Declaration) (now : Instant) (s s' : Store) (o : Outcome) : Prop where
  /-- What has become of the job. -/
  job : d.JobEffect s.jobs[d.key]? s'.jobs[d.key]? o.job
  /-- What has become of the trigger. -/
  trigger : d.TriggerEffect now s.triggers[d.key]? s'.triggers[d.key]? o.trigger o.next
  /-- Nothing has happened under other keys. -/
  others : ∀ k ≠ d.key, s.AgreeAt k s'

theorem jobEffect (d : Declaration) (before : Option Job) :
    d.JobEffect before (some (d.jobAfter before)) (d.jobChange before) := by
  cases before with
  | none => exact ⟨rfl, by simp [jobChange], by simp [jobChange], by simp [jobChange]⟩
  | some old =>
    have hunchanged : d.jobChange (some old) = .unchanged ↔ some (d.jobAfter (some old)) = some old := by
      rw [jobChange_eq_unchanged_iff, Option.some.injEq]
    refine ⟨rfl, jobChange_eq_created_iff, ?_, by simpa using hunchanged⟩
    rw [ne_eq, ne_eq, ← hunchanged]
    simp only [reduceCtorEq, not_false_eq_true, true_and, jobChange]
    split <;> simp

/-- The declared trigger is another one than one that is not kept. -/
theorem put_ne {old : Stored} (h : d.keeps (some old) = false) (schedule : Cron.Schedule) (next : Option Instant) :
    some ⟨d.trigger, schedule, next⟩ ≠ some old := by
  rintro heq
  cases heq
  exact Bool.false_ne_true (h.symm.trans (Text.sameIgnoringCase_refl d.cron))

theorem triggerEffect_of_keeps {before : Option Stored} (h : d.keeps before = true) :
    d.TriggerEffect now before before .unchanged none := by
  cases before with
  | none => cases h
  | some old =>
    refine ⟨fun _ => rfl, fun h' => ?_, by simp, by simp, by simp, fun _ => rfl, fun h => absurd rfl h⟩
    rw [h] at h'
    cases h'

theorem triggerEffect_of_not_keeps {before : Option Stored} {stored : Stored} (h : d.keeps before = false)
    (hprep : Store.prepare now d.trigger = .answer stored) :
    d.TriggerEffect now before (some stored) (triggerChange before) stored.next := by
  obtain ⟨schedule, first, hread, hfirst, rfl⟩ := Store.prepare_eq_answer_iff.1 hprep
  have hput : d.keeps before = true → some (Stored.mk d.trigger schedule (some first)) = before := by
    rw [h]
    intro h
    cases h
  refine ⟨hput, fun _ => ⟨schedule, first, hread, hfirst, rfl⟩, ?_, ?_, ?_, ?_, fun _ => ⟨rfl, rfl⟩⟩
  all_goals cases before with
  | none => simp [triggerChange]
  | some old =>
    have hne := put_ne h schedule (some first)
    simp [triggerChange, hne]

section TriggerEffect

variable {before after : Option Stored} {change : TriggerChange} {next : Option Instant}

/-- After a declaration was carried out there is a trigger with its cron expression, the old one or the declared
one. -/
theorem TriggerEffect.keeps_after (h : d.TriggerEffect now before after change next) : d.keeps after = true := by
  cases hbefore : d.keeps before with
  | true => rw [h.kept hbefore, hbefore]
  | false =>
    obtain ⟨schedule, first, -, -, rfl⟩ := h.put hbefore
    exact Text.sameIgnoringCase_refl d.cron

theorem TriggerEffect.change_of_keeps (h : d.TriggerEffect now before after change next)
    (hkeeps : d.keeps before = true) : change = .unchanged := by
  refine h.unchanged.2 ⟨fun hnone => ?_, h.kept hkeeps⟩
  rw [hnone] at hkeeps
  cases hkeeps

theorem TriggerEffect.change_of_not_keeps (h : d.TriggerEffect now before after change next)
    (hkeeps : d.keeps before = false) : change = .scheduled ∨ change = .rescheduled := by
  obtain ⟨schedule, first, -, -, rfl⟩ := h.put hkeeps
  cases before with
  | none => exact .inl (h.scheduled.2 rfl)
  | some old => exact .inr (h.rescheduled.2 ⟨Option.some_ne_none _, put_ne hkeeps _ _⟩)

end TriggerEffect

/-- Bringing the job in line changes the memory under the key of the declaration only. -/
theorem agreeAt_withJob {k : Key} (hk : k ≠ d.key) : s.AgreeAt k (d.withJob s) :=
  ⟨(Table.getElem?_insert_of_ne hk.symm).symm, rfl⟩

/-- However a declaration ends, nothing has happened under other keys. -/
theorem Ending.agreeAt {result : Except Crash (Except EngineError Outcome)} (h : d.Ending now s (result, s')) {k : Key}
    (hk : k ≠ d.key) : s.AgreeAt k s' := by
  cases h with
  | stopped | blocked _ => exact ⟨rfl, rfl⟩
  | kept _ | refused _ | crashed _ => exact agreeAt_withJob hk
  | put _ _ => exact ⟨(agreeAt_withJob hk).1, (Table.getElem?_insert_of_ne hk.symm).symm⟩

theorem Ending.reconciled {o : Outcome} (h : d.Ending now s (.ok (.ok o), s')) : d.Reconciled now s s' o := by
  have hjob : (d.withJob s).jobs[d.key]? = some (d.jobAfter s.jobs[d.key]?) := Std.ExtTreeMap.getElem?_insert_self
  have hothers : ∀ k ≠ d.key, s.AgreeAt k s' := fun k hk => h.agreeAt hk
  cases h with
  | kept hkeeps => exact ⟨hjob ▸ d.jobEffect _, triggerEffect_of_keeps hkeeps, hothers⟩
  | @put stored hkeeps hprep =>
    have hput : ((d.withJob s).putTrigger d.key stored).triggers[d.key]? = some stored :=
      Std.ExtTreeMap.getElem?_insert_self
    exact ⟨hjob ▸ d.jobEffect _, hput ▸ triggerEffect_of_not_keeps hkeeps hprep, hothers⟩

/-- **Why a declaration is not carried out, and what it leaves behind then**: either the engine takes no calls, and
nothing has happened, or the declared trigger cannot be prepared, and only the job has been brought in line. -/
theorem Ending.failed {e : EngineError} (h : d.Ending now s (.ok (.error e), s')) (hd : s.Supported) :
    ((∃ reason, e = .unavailable reason) ∧ s' = s) ∨
      (((∃ report, e = .invalidCron d.cron report) ∨ e = .willNeverFire d.key.display) ∧ s' = d.withJob s) := by
  cases h with
  | stopped => exact .inl ⟨⟨_, rfl⟩, rfl⟩
  | blocked hblocked => exact absurd ((not_blocked_of_supported hd).symm.trans hblocked) Bool.false_ne_true
  | refused hprep => exact .inr ⟨Store.eq_of_prepare_refused hprep, rfl⟩

/-- A declaration that is not carried out leaves the triggers as they are. -/
theorem Ending.triggers {result : Except Crash (Except EngineError Outcome)} (h : d.Ending now s (result, s'))
    (hfail : ∀ o, result ≠ .ok (.ok o)) : s'.triggers = s.triggers := by
  cases h with
  | kept _ | put _ _ => exact absurd rfl (hfail _)
  | _ => rfl

/-- Where the engine takes calls, a declaration brings its job in line, however it ends. -/
theorem afterwards_job (hrun : s.stopped = false) (hd : s.Supported) :
    (d.afterwards now s).2.jobs[d.key]? = some (d.jobAfter s.jobs[d.key]?) := by
  have hjob : (d.withJob s).jobs[d.key]? = some (d.jobAfter s.jobs[d.key]?) := Std.ExtTreeMap.getElem?_insert_self
  unfold afterwards Store.putPrepared
  rw [hrun, not_blocked_of_supported hd, if_neg Bool.false_ne_true, if_neg Bool.false_ne_true]
  split
  · exact hjob
  · split <;> exact hjob

theorem answer_eq_outcome {result : Except Crash (Except EngineError Outcome)} {o : Outcome}
    (h : d.answer result = .ok (.registered (.ok o))) : result = .ok (.ok o) := by
  unfold answer at h
  split at h <;> cases h
  rfl

theorem answer_eq_error {result : Except Crash (Except EngineError Outcome)} {e : DeclarationError}
    (h : d.answer result = .ok (.registered (.error e))) :
    ∃ source, e = .refused d.key source ∧ result = .ok (.error source) := by
  unfold answer at h
  split at h <;> cases h
  exact ⟨_, rfl, rfl⟩

end Declaration

/-! ### Requests -/

section Requests

/-- The outcome of a declaration, if a request has carried it out. -/
def outcome? : Except Crash Roster.Answer → Option Outcome
  | .ok (.registered (.ok o)) => some o
  | _ => none

/-- Why a declaration was not carried out, if it was asked for. -/
def failure? : Except Crash Roster.Answer → Option DeclarationError
  | .ok (.registered (.error e)) => some e
  | _ => none

theorem eq_of_outcome? {result : Except Crash Roster.Answer} {o : Outcome} (h : outcome? result = some o) :
    result = .ok (.registered (.ok o)) := by
  unfold outcome? at h
  split at h <;> cases h
  rfl

theorem eq_of_failure? {result : Except Crash Roster.Answer} {e : DeclarationError} (h : failure? result = some e) :
    result = .ok (.registered (.error e)) := by
  unfold failure? at h
  split at h <;> cases h
  rfl

variable {s : Store} {lock : LockState} {r : Roster} {now : Instant} {d : Declaration}
  {run : Program.Run (Roster.World Store) Roster.Answer}

/-- A request to carry out a declaration ends as its stage says, and in the memory then, all but for the counters. -/
theorem verdict_of_register (hs : s.Sound)
    (hrun : r.perform (Store.engine now) (.register d) ⟨lock, s⟩ = some run) :
    run.result = d.answer (d.verdict now s (d.stage s)).1 ∧
      ∃ counters, run.state.engine = { (d.verdict now s (d.stage s)).2 with counters } := by
  obtain ⟨counters, hexec⟩ := d.exec_program_verdict now r hs
  have hends := (Roster.perform_eq_some hrun).1.trans hexec
  exact ⟨congrArg Prod.fst hends, counters, congrArg Prod.snd hends⟩

/-- A request to carry out a declaration ends as carrying it out does, where triggers have the keys of their jobs. -/
theorem ending_of_register (hs : s.Sound) (hm : s.Mirrored)
    (hrun : r.perform (Store.engine now) (.register d) ⟨lock, s⟩ = some run) :
    ∃ result s', d.Ending now s (result, s') ∧ run.result = d.answer result ∧ run.state.engine.jobs = s'.jobs ∧
      run.state.engine.triggers = s'.triggers := by
  obtain ⟨hresult, counters, hstate⟩ := verdict_of_register hs hrun
  rw [Declaration.verdict_stage_of_owns (Declaration.owns_of_mirrored hs hm)] at hresult hstate
  exact ⟨(d.afterwards now s).1, (d.afterwards now s).2, d.ending_afterwards now s, hresult, by rw [hstate],
    by rw [hstate]⟩

/-- What a declaration that is carried out does, where the tables make sense and triggers have the keys of their
jobs. -/
theorem reconciled_of_register (hs : s.Sound) (hm : s.Mirrored)
    (hrun : r.perform (Store.engine now) (.register d) ⟨lock, s⟩ = some run) {o : Outcome}
    (hok : run.result = .ok (.registered (.ok o))) : d.Reconciled now s run.state.engine o := by
  obtain ⟨result, s', hending, hresult, hjobs, htriggers⟩ := ending_of_register hs hm hrun
  obtain rfl := Declaration.answer_eq_outcome (hresult.symm.trans hok)
  obtain ⟨hjob, htrigger, hothers⟩ := hending.reconciled
  rw [← hjobs] at hjob
  rw [← htriggers] at htrigger
  refine ⟨hjob, htrigger, fun k hk => ?_⟩
  rw [Store.AgreeAt, hjobs, htriggers]
  exact hothers k hk

/-- **What a declaration that is carried out does**, from every memory that is reached. -/
theorem registration_effect (hs : s.Reached Trigger.Mirrors)
    (hrun : r.perform (Store.engine now) (.register d) ⟨lock, s⟩ = some run) {o : Outcome}
    (hok : run.result = .ok (.registered (.ok o))) : d.Reconciled now s run.state.engine o :=
  reconciled_of_register hs.sound hs.mirrored_supported.1 hrun hok

/-- A job that was declared with the schedule `@daily` is declared again with another schedule and with data. -/
theorem registration_effect_again : ∃ (now : Instant) (s : Store) (d : Declaration) (o : Outcome)
    (run : Program.Run (Roster.World Store) Roster.Answer), s.Reached Trigger.Mirrors ∧
      Roster.standard.perform (Store.engine now) (.register d) ⟨.free, s⟩ = some run ∧
        run.result = .ok (.registered (.ok o)) ∧ (o.job = .merged ∧ o.trigger = .rescheduled) ∧
          d.Reconciled now s run.state.engine o := by
  let now : Instant := ⟨4133894300, 0, by decide, by decide, by decide, by decide⟩
  let d (cron : String) (data : Option Payload) : Declaration :=
    { jobType := "backup", name := "nightly", group := "eu", cron, start := now, stop := none, data }
  let daily := d "@daily" none
  let hourly := d "@hourly" (some ((∅ : Payload).insert "retries" (.integer 3)))
  let s := ((Roster.standard.program (.register daily)).exec (Store.engine now) .fresh).2
  have hs : s.Reached Trigger.Mirrors := (Store.Reached.empty _).program (fun _ h => h) _ _
  have hcomputed : (outcome? ((Roster.standard.program (.register hourly)).exec (Store.engine now) s).1).map
      (fun o => (o.job, o.trigger)) = some (.merged, .rescheduled) := by decide +kernel
  obtain ⟨o, ho, hchange⟩ := Option.map_eq_some_iff.1 hcomputed
  obtain ⟨run, hrun, hresult, -⟩ := Roster.standard.perform_free (Store.engine now) (.register hourly) s
  have hok := hresult.trans (eq_of_outcome? ho)
  exact ⟨now, s, hourly, o, run, hs, hrun, hok, Prod.mk.inj hchange, registration_effect hs hrun hok⟩

/-- **Why a declaration is not carried out, and what it leaves behind then**, from every memory that is reached: the
engine takes no calls and nothing that is stored has changed, or the cron expression cannot be read or leaves no fire
time and all that has changed is the job of the declaration, as if it had been carried out. -/
theorem registration_failure (hs : s.Reached Trigger.Mirrors)
    (hrun : r.perform (Store.engine now) (.register d) ⟨lock, s⟩ = some run) {e : DeclarationError}
    (herror : run.result = .ok (.registered (.error e))) :
    ∃ source, e = .refused d.key source ∧ run.state.engine.triggers = s.triggers ∧
      (((∃ reason, source = .unavailable reason) ∧ run.state.engine.jobs = s.jobs) ∨
        (((∃ report, source = .invalidCron d.cron report) ∨ source = .willNeverFire d.key.display) ∧
          run.state.engine.jobs = s.jobs.insert d.key (d.jobAfter s.jobs[d.key]?))) := by
  obtain ⟨hm, hd⟩ := hs.mirrored_supported
  obtain ⟨result, s', hending, hresult, hjobs, htriggers⟩ := ending_of_register hs.sound hm hrun
  obtain ⟨source, he, rfl⟩ := Declaration.answer_eq_error (hresult.symm.trans herror)
  refine ⟨source, he, ?_⟩
  rw [hjobs, htriggers]
  obtain ⟨hwhy, rfl⟩ | ⟨hwhy, rfl⟩ := hending.failed hd
  · exact ⟨rfl, .inl ⟨hwhy, rfl⟩⟩
  · exact ⟨rfl, .inr ⟨hwhy, rfl⟩⟩

/-- A job that was declared with the schedule `@daily` is declared again with data and with a schedule that cannot be
read: the engine takes calls, the job has the data then, and its trigger is the old one. -/
theorem registration_failure_again : ∃ (now : Instant) (s : Store) (d : Declaration) (e : DeclarationError)
    (run : Program.Run (Roster.World Store) Roster.Answer), s.Reached Trigger.Mirrors ∧
      Roster.standard.perform (Store.engine now) (.register d) ⟨.free, s⟩ = some run ∧
        run.result = .ok (.registered (.error e)) ∧
          ((∃ report, e = .refused d.key (.invalidCron d.cron report)) ∧
            (s.jobs[d.key]?).map (fun job => job.data.keys) = some [] ∧
              (run.state.engine.jobs[d.key]?).map (fun job => job.data.keys) = some ["retries"]) ∧
            ∃ source, e = .refused d.key source ∧ run.state.engine.triggers = s.triggers ∧
              (((∃ reason, source = .unavailable reason) ∧ run.state.engine.jobs = s.jobs) ∨
                (((∃ report, source = .invalidCron d.cron report) ∨ source = .willNeverFire d.key.display) ∧
                  run.state.engine.jobs = s.jobs.insert d.key (d.jobAfter s.jobs[d.key]?))) := by
  let now : Instant := ⟨4133894300, 0, by decide, by decide, by decide, by decide⟩
  let d (cron : String) (data : Option Payload) : Declaration :=
    { jobType := "backup", name := "nightly", group := "eu", cron, start := now, stop := none, data }
  let daily := d "@daily" none
  let nonsense := d "every now and then" (some ((∅ : Payload).insert "retries" (.integer 3)))
  let s := ((Roster.standard.program (.register daily)).exec (Store.engine now) .fresh).2
  have hs : s.Reached Trigger.Mirrors := (Store.Reached.empty _).program (fun _ h => h) _ _
  let ends := (Roster.standard.program (.register nonsense)).exec (Store.engine now) s
  let e : DeclarationError := .refused nonsense.key (.invalidCron nonsense.cron
    "every now and then\n^\nThe 'Seconds' field does not support using names. 'every' specified.")
  have hcomputed : failure? ends.1 = some e := by decide +kernel
  have hbefore : (s.jobs[nonsense.key]?).map (fun job => job.data.keys) = some [] := by decide +kernel
  have hafter : (ends.2.jobs[nonsense.key]?).map (fun job => job.data.keys) = some ["retries"] := by decide +kernel
  obtain ⟨run, hrun, hresult, hstate⟩ := Roster.standard.perform_free (Store.engine now) (.register nonsense) s
  have herror := hresult.trans (eq_of_failure? hcomputed)
  have hstate' : run.state.engine = ends.2 := by rw [hstate]
  exact ⟨now, s, nonsense, e, run, hs, hrun, herror, ⟨⟨_, rfl⟩, hbefore, hstate' ▸ hafter⟩,
    registration_failure hs hrun herror⟩

end Requests

end JobRoster
