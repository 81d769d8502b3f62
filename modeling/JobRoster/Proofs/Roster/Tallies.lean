import JobRoster.Proofs.Engine.Counting
import JobRoster.Proofs.Roster.Deletions
import JobRoster.Proofs.Roster.Reconciliation

/-!
# What requests count

What a request counts is told by what it finds (`Request.tally`): a declaration counts what it looks up and what it
changes at each of its stages (`Declaration.tally`), and one that is carried out counts what its outcome says
(`tally_of_outcome`); a deletion counts that it asks what is there, and that it deletes, if there is anything.

Main statement: `mutations_exact`. The counters of changes tell whether anything has changed.
-/

namespace JobRoster

open Attempt

/-! ### Changes -/

/-- What is counted to find out what is to happen to a job. -/
def JobChange.lookups : JobChange → Counters
  | created => { existenceChecks := 1 }
  | merged | unchanged => { existenceChecks := 1, jobReads := 1 }

/-- What is counted when it happens. -/
def JobChange.writes : JobChange → Counters
  | created => { jobsAdded := 1 }
  | merged => { jobsReplaced := 1 }
  | unchanged => 0

/-- What is counted for a job to which that happens. -/
def JobChange.tally (c : JobChange) : Counters := c.lookups + c.writes

/-- What is counted to find out what is to happen to a trigger. -/
def TriggerChange.lookups : TriggerChange → Counters
  | scheduled => { existenceChecks := 1 }
  | rescheduled | unchanged => { existenceChecks := 1, triggerReads := 1 }

/-- What is counted when it happens. -/
def TriggerChange.writes : TriggerChange → Counters
  | scheduled => { triggersScheduled := 1 }
  | rescheduled => { triggersRescheduled := 1 }
  | unchanged => 0

/-- What is counted for a trigger to which that happens. -/
def TriggerChange.tally (c : TriggerChange) : Counters := c.lookups + c.writes

/-- **How much a declaration has changed**: its job, its trigger, both, or nothing. -/
def Outcome.changes (o : Outcome) : Nat :=
  (if o.job = .unchanged then 0 else 1) + (if o.trigger = .unchanged then 0 else 1)

/-- **What a declaration counts that has an outcome.** -/
def Outcome.tally (o : Outcome) : Counters := o.job.tally + o.trigger.tally

theorem JobChange.mutations_tally (c : JobChange) : c.tally.mutations = if c = .unchanged then 0 else 1 := by
  cases c <;> rfl

theorem TriggerChange.mutations_tally (c : TriggerChange) : c.tally.mutations = if c = .unchanged then 0 else 1 := by
  cases c <;> rfl

/-- As many changes are counted as there were. -/
theorem Outcome.mutations_tally (o : Outcome) : o.tally.mutations = o.changes := by
  rw [tally, Counters.mutations_add, o.job.mutations_tally, o.trigger.mutations_tally, changes]

theorem Outcome.changes_eq_zero_iff {o : Outcome} : o.changes = 0 ↔ o.isNoop = true := by
  simp [changes, isNoop]

/-! ### Declarations -/

namespace Declaration

variable {d : Declaration} {s s' : Store} {now : Instant} {stage : Stage} {o : Outcome}

/-- A job that is there is looked up. -/
theorem counts_reconcileJob_of_some (hrun : s.stopped = false) {old : Job} (hjob : s.jobs[d.key]? = some old)
    {counted : Counters} (hcounts : (d.takeOver old).Counts now s counted) :
    d.reconcileJob.Counts now s (JobChange.merged.lookups + counted) := by
  have hlookups : JobChange.merged.lookups = (Call.jobExists d.key).counted s + (Call.getJob d.key).counted s := rfl
  rw [hlookups, add_assoc, reconcileJob_eq]
  refine counts_call_bind (leads_jobExists hrun d.key) ?_
  rw [Table.contains_iff_exists.2 ⟨old, hjob⟩, if_pos rfl]
  refine counts_call_bind (leads_getJob hrun d.key) ?_
  simp only [hjob]
  exact hcounts

/-- Bringing the job in line counts what happens to it, unless that is refused. -/
theorem counts_reconcileJob (hrun : s.stopped = false) (hs : s.Sound) (hblocked : d.blocked s = false) :
    d.reconcileJob.Counts now s (d.jobChange s.jobs[d.key]?).tally := by
  cases hjob : s.jobs[d.key]? with
  | none =>
    have hadd : (call (.addJob d.job false)).Counts now s ((Call.addJob d.job false).counted s) :=
      counts_call (leads_addJob_of_none hrun hjob)
    rw [Call.counted, Table.contains_eq_false_iff.2 (show s.jobs[d.job.key]? = none from hjob)] at hadd
    rw [reconcileJob_eq]
    refine counts_call_bind (leads_jobExists hrun d.key) ?_
    rw [Table.contains_eq_false_iff.2 hjob, if_neg Bool.false_ne_true]
    exact hadd.bind_silent fun _ _ => counts_report_pure _ _
  | some old =>
    cases hchange : d.jobChange (some old) with
    | created => cases jobChange_eq_created_iff.1 hchange
    | unchanged =>
      refine counts_reconcileJob_of_some hrun hjob ?_
      rw [takeOver, hchange, if_neg (by decide)]
      exact counts_pure _
    | merged =>
      refine counts_reconcileJob_of_some hrun hjob ?_
      have hkey : (d.jobAfter (some old)).key = d.key := jobAfter_key fun _ h => hs.jobKey (hjob.trans h)
      have hadd : (call (.addJob (d.jobAfter (some old)) true)).Counts now s
          ((Call.addJob (d.jobAfter (some old)) true).counted s) :=
        counts_call (leads_addJob_of_merged hrun hs hblocked hjob hchange)
      rw [Call.counted, hkey, Table.contains_iff_exists.2 ⟨old, hjob⟩] at hadd
      rw [takeOver, if_pos hchange]
      exact hadd.bind_silent fun _ _ => counts_report_pure _ _

/-- A job that cannot take over the data is only looked up. -/
theorem counts_reconcileJob_of_blocked (hrun : s.stopped = false) (hs : s.Sound) (hblocked : d.blocked s = true) :
    d.reconcileJob.Counts now s JobChange.unchanged.tally := by
  obtain ⟨old, hjob, hchange, hdurable, htrigger⟩ := exists_of_blocked hblocked
  refine counts_reconcileJob_of_some hrun hjob ?_
  rw [takeOver, if_pos hchange]
  exact counts_call_bind_error _ (leads_addJob_of_not_supported hrun hs hjob hdurable htrigger)

/-- What is done with the trigger that is there: the declared one takes its place, if it is not kept. -/
def giveWay (d : Declaration) (old : Trigger) : Attempt (TriggerChange × Option Instant) :=
  if Text.sameIgnoringCase old.cron d.cron then do
    report (.triggerUnchanged d.key old.cron)
    return (.unchanged, none)
  else do
    let next ← call (.reschedule d.key d.trigger)
    report (.triggerRescheduled d.trigger old.cron)
    return (.rescheduled, next)

/-- A trigger that is there is looked up. -/
theorem counts_reconcileTrigger_of_some (hrun : s.stopped = false) {old : Stored} (hold : s.triggers[d.key]? = some old)
    {counted : Counters} (hcounts : (d.giveWay old.trigger).Counts now s counted) :
    d.reconcileTrigger.Counts now s (TriggerChange.rescheduled.lookups + counted) := by
  have hlookups : TriggerChange.rescheduled.lookups =
      (Call.triggerExists d.key).counted s + (Call.getTrigger d.key).counted s := rfl
  rw [hlookups, add_assoc]
  refine counts_call_bind (leads_triggerExists hrun d.key) ?_
  rw [Table.contains_iff_exists.2 ⟨old, hold⟩, if_pos rfl]
  refine counts_call_bind (leads_getTrigger hrun d.key) ?_
  simp only [hold, Option.map_some]
  exact hcounts

/-- A trigger that is kept is only looked up. -/
theorem counts_reconcileTrigger_of_keeps (hrun : s.stopped = false) (hkeeps : d.keeps s.triggers[d.key]? = true) :
    d.reconcileTrigger.Counts now s TriggerChange.unchanged.tally := by
  obtain ⟨old, hold, hsame⟩ := exists_of_keeps hkeeps
  refine counts_reconcileTrigger_of_some hrun hold ?_
  rw [giveWay, if_pos hsame]
  exact counts_report_pure _ _

/-- A trigger that fires another job is only looked up. -/
theorem counts_reconcileTrigger_of_not_owns (hrun : s.stopped = false) (hkeeps : d.keeps s.triggers[d.key]? = false)
    (howns : d.owns s.triggers[d.key]? = false) :
    d.reconcileTrigger.Counts now s TriggerChange.unchanged.tally := by
  obtain ⟨old, hold, hother⟩ := exists_of_not_owns howns
  rw [hold, keeps] at hkeeps
  refine counts_reconcileTrigger_of_some hrun hold ?_
  rw [giveWay, if_neg (Bool.eq_false_iff.1 hkeeps)]
  exact counts_call_bind_error _ (leads_reschedule_of_ne (t := d.trigger) hrun hold hother)

/-- What is counted when the declared trigger is prepared, given what happens then. -/
def triggerTally (d : Declaration) (now : Instant) (change : TriggerChange) : Counters :=
  change.lookups + bif (Store.prepare now d.trigger).isAnswer then change.writes else 0

/-- Any other trigger is looked up, and what happens to it is counted once the declared one is prepared. -/
theorem counts_reconcileTrigger_of_owns (hrun : s.stopped = false) (hjob : d.key ∈ s.jobs)
    (hkeeps : d.keeps s.triggers[d.key]? = false) (howns : d.owns s.triggers[d.key]? = true) :
    d.reconcileTrigger.Counts now s (d.triggerTally now (triggerChange s.triggers[d.key]?)) := by
  cases hold : s.triggers[d.key]? with
  | none =>
    have hput : (call (.schedule d.trigger)).Counts now s _ := counts_call (leads_schedule hrun hjob hold)
    rw [tally_putPrepared] at hput
    refine counts_call_bind (leads_triggerExists hrun d.key) ?_
    rw [Table.contains_eq_false_iff.2 hold, if_neg Bool.false_ne_true]
    exact hput.bind_silent fun _ _ => counts_report_pure _ _
  | some old =>
    rw [hold, keeps] at hkeeps
    rw [hold, owns, decide_eq_true_eq] at howns
    have hput : (call (.reschedule d.key d.trigger)).Counts now s _ :=
      counts_call (leads_reschedule (t := d.trigger) hrun hold howns)
    rw [tally_putPrepared, Call.counted, if_pos (Table.contains_iff_exists.2 ⟨old, hold⟩)] at hput
    refine counts_reconcileTrigger_of_some hrun hold ?_
    rw [giveWay, if_neg (Bool.eq_false_iff.1 hkeeps)]
    exact hput.bind_silent fun _ _ => counts_report_pure _ _

/-- **What carrying out a declaration counts at each stage.** -/
def tally (d : Declaration) (now : Instant) (s : Store) : Stage → Counters
  | .stopped => 0
  | .blocked => JobChange.unchanged.tally
  | .kept | .foreign => (d.jobChange s.jobs[d.key]?).tally + TriggerChange.unchanged.tally
  | .prepared => (d.jobChange s.jobs[d.key]?).tally + d.triggerTally now (triggerChange s.triggers[d.key]?)

/-- **Carrying out a declaration counts what its stage says.** -/
theorem counts_tally (hs : s.Sound) : d.reconcile.Counts now s (d.tally now s (d.stage s)) := by
  unfold stage
  cases hrun : s.stopped with
  | true =>
    rw [if_pos rfl]
    have hrefused : d.reconcileJob.Leads now s _ s := (leads_of_stopped hrun _).bind_error _
    have hcounts : d.reconcileJob.Counts now s 0 := counts_call_bind_error _ (leads_of_stopped hrun _)
    exact hcounts.bind_error _ hrefused
  | false =>
    rw [if_neg Bool.false_ne_true]
    cases hblocked : d.blocked s with
    | true =>
      rw [if_pos rfl]
      exact (counts_reconcileJob_of_blocked hrun hs hblocked).bind_error _
        (leads_reconcileJob_of_blocked hrun hs hblocked)
    | false =>
      rw [if_neg Bool.false_ne_true]
      have hjob : d.key ∈ (d.withJob s).jobs := Std.ExtTreeMap.mem_insert_self
      have htrigger {counted : Counters} (h : d.reconcileTrigger.Counts now (d.withJob s) counted) :
          d.reconcile.Counts now s ((d.jobChange s.jobs[d.key]?).tally + counted) :=
        (counts_reconcileJob hrun hs hblocked).bind (leads_reconcileJob hrun hs hblocked)
          (h.bind_silent fun _ _ => counts_pure _)
      cases hkeeps : d.keeps s.triggers[d.key]? with
      | true =>
        rw [if_pos rfl]
        exact htrigger (counts_reconcileTrigger_of_keeps hrun hkeeps)
      | false =>
        rw [if_neg Bool.false_ne_true]
        cases howns : d.owns s.triggers[d.key]? with
        | true =>
          rw [if_pos rfl]
          exact htrigger (counts_reconcileTrigger_of_owns hrun hjob hkeeps howns)
        | false =>
          rw [if_neg Bool.false_ne_true]
          exact htrigger (counts_reconcileTrigger_of_not_owns hrun hkeeps howns)

/-- Where a declaration has an outcome, that tells what was counted. -/
theorem tally_of_outcome (h : (d.verdict now s stage).1 = .ok (.ok o)) : d.tally now s stage = o.tally := by
  cases stage with
  | kept =>
    cases h
    rfl
  | prepared =>
    simp only [verdict, Store.putPrepared] at h
    split at h <;> cases h
    next stored hprep => rw [tally, triggerTally, hprep]; rfl
  | stopped | blocked | foreign => cases h

/-! ### What has changed -/

theorem not_keeps_of_stage (h : d.stage s = .prepared) : d.keeps s.triggers[d.key]? = false := by
  unfold stage at h
  split_ifs at h with hstopped hblocked hkeeps howns
  exact Bool.eq_false_iff.2 hkeeps

/-- The jobs are the same exactly if the job is unchanged. -/
theorem withJob_jobs_eq_iff : (d.withJob s).jobs = s.jobs ↔ d.jobChange s.jobs[d.key]? = .unchanged := by
  rw [(d.jobEffect s.jobs[d.key]?).unchanged]
  constructor
  · intro hsame
    have hjob : some (d.jobAfter s.jobs[d.key]?) = s.jobs[d.key]? := by
      conv_rhs => rw [← hsame]
      exact Std.ExtTreeMap.getElem?_insert_self.symm
    exact ⟨hjob ▸ Option.some_ne_none _, hjob⟩
  · exact fun hjob => Table.insert_of_getElem? hjob.2.symm

/-- The triggers are not the same once another one is put for one that is not kept. -/
theorem putTrigger_triggers_ne {stored : Stored} (hkeeps : d.keeps s.triggers[d.key]? = false)
    (hprep : Store.prepare now d.trigger = .answer stored) :
    ((d.withJob s).putTrigger d.key stored).triggers ≠ s.triggers := by
  intro hsame
  have hput : s.triggers[d.key]? = some stored := by
    rw [← hsame]
    exact Std.ExtTreeMap.getElem?_insert_self
  rw [hput, (triggerEffect_of_not_keeps hkeeps hprep).keeps_after] at hkeeps
  cases hkeeps

/-- A trigger that is put is counted as one change. -/
theorem mutations_triggerTally (before : Option Stored) : (d.triggerTally now (triggerChange before)).mutations =
    bif (Store.prepare now d.trigger).isAnswer then 1 else 0 := by
  rw [triggerTally]
  cases before <;> cases (Store.prepare now d.trigger).isAnswer <;> rfl

/-- **A declaration counts a change exactly if it has changed something.** -/
theorem mutations_tally_eq_zero_iff : (d.tally now s (d.stage s)).mutations = 0 ↔
    (d.verdict now s (d.stage s)).2.jobs = s.jobs ∧ (d.verdict now s (d.stage s)).2.triggers = s.triggers := by
  have hjob : (d.jobChange s.jobs[d.key]?).tally.mutations = 0 ↔
      (d.withJob s).jobs = s.jobs ∧ (d.withJob s).triggers = s.triggers := by
    have htriggers : (d.withJob s).triggers = s.triggers := rfl
    rw [JobChange.mutations_tally, and_iff_left htriggers, withJob_jobs_eq_iff]
    simp
  cases hstage : d.stage s with
  | stopped | blocked => exact iff_of_true rfl ⟨rfl, rfl⟩
  | kept | foreign => exact hjob
  | prepared =>
    simp only [tally, verdict, Store.putPrepared, Counters.mutations_add, mutations_triggerTally]
    cases hprep : Store.prepare now d.trigger with
    | answer stored =>
      -- a trigger that is put is another one, whatever has become of the job
      refine iff_of_false (Nat.succ_ne_zero _) fun hsame => ?_
      exact putTrigger_triggers_ne (not_keeps_of_stage hstage) hprep hsame.2
    | refused e | crashed crash => exact hjob

end Declaration

/-! ### Requests -/

namespace Roster

variable {r : Roster} {q : Request} {s : Store} {now : Instant}

/-- **What a request counts** from a memory. -/
def Request.tally (r : Roster) (now : Instant) (s : Store) : Request → Counters
  | .register d => d.tally now s (d.stage s)
  | .deleteJob name group =>
    if s.stopped then 0
    else { existenceChecks := 1 } +
      if ((Request.deleteJob name group).targets r s).isEmpty then 0 else { jobDeletes := 1 }
  | .deleteGroup group =>
    if s.stopped then 0
    else { keyEnumerations := 1 } +
      if ((Request.deleteGroup group).targets r s).isEmpty then 0 else { bulkDeletes := 1 }

theorem counts_one (k : Key) : (Deletion.one k).Counts now s
    (if s.stopped then 0 else { existenceChecks := 1 } +
      if (if s.jobs.contains k then [k] else []).isEmpty then 0 else { jobDeletes := 1 }) := by
  cases hrun : s.stopped with
  | true => exact counts_call_bind_error _ (leads_of_stopped hrun _)
  | false =>
    refine counts_call_bind (leads_jobExists hrun k) ?_
    cases s.jobs.contains k with
    | true => exact counts_report_bind _ (counts_call (leads_deleteJob hrun k))
    | false => exact counts_pure true

theorem counts_groups (matcher : GroupMatcher) : (Deletion.groups matcher).Counts now s
    (if s.stopped then 0 else { keyEnumerations := 1 } +
      if (s.jobs.keys.filter fun k => matcher.accepts k.group).isEmpty then 0 else { bulkDeletes := 1 }) := by
  cases hrun : s.stopped with
  | true => exact counts_call_bind_error _ (leads_of_stopped hrun _)
  | false =>
    refine counts_call_bind (leads_jobKeys hrun matcher) ?_
    cases (s.jobs.keys.filter fun k => matcher.accepts k.group).isEmpty with
    | true => exact counts_pure true
    | false => exact counts_report_bind _ (counts_call (leads_deleteJobs hrun _))

/-- What is made of the end of a deletion counts nothing. -/
theorem exec_orFalse_counters {x : Attempt Bool} {counted : Counters} (hx : x.Counts now s counted)
    (failed : String → Event) :
    ((Deletion.orFalse x failed >>= fun b => pure (Answer.deleted b)).exec (Store.engine now) s).2.counters =
      s.counters + counted := by
  rw [← hx s.counters, Program.exec_bind, Deletion.orFalse, Program.exec_bind]
  rcases x.run.exec (Store.engine now) s with ⟨crash | (e | b), s'⟩ <;> rfl

/-- **A request counts its tally**, on top of what was counted before. -/
theorem exec_counters (hs : s.Sound) (q : Request) :
    ((r.program q).exec (Store.engine now) s).2.counters = s.counters + q.tally r now s := by
  cases q with
  | register d =>
    rw [Declaration.exec_register]
    exact Declaration.counts_tally hs s.counters
  | deleteJob name group => exact exec_orFalse_counters (counts_one ⟨name, group⟩) _
  | deleteGroup group => exact exec_orFalse_counters (counts_groups _) _

/-- An engine that takes no calls counts none. -/
theorem tally_of_stopped (hstopped : s.stopped = true) (q : Request) : q.tally r now s = 0 := by
  cases q with
  | register d => rw [Request.tally, Declaration.stage, if_pos hstopped, Declaration.tally]
  | deleteJob | deleteGroup => rw [Request.tally, if_pos hstopped]

/-- What is left of the jobs after a deletion are all jobs exactly if none was to be deleted. -/
theorem removeAll_targets_eq_iff : (s.removeAll (q.targets r s)).1.jobs = s.jobs ∧
    (s.removeAll (q.targets r s)).1.triggers = s.triggers ↔ q.targets r s = [] := by
  constructor
  · rintro ⟨hjobs, -⟩
    refine List.eq_nil_iff_forall_not_mem.2 fun k hk => ?_
    obtain ⟨job, hjob⟩ := Table.mem_iff_exists.1 (mem_targets_iff.1 hk).2
    have hgone := Store.removeAll_jobs s (q.targets r s) k
    rw [hjobs, if_pos hk, hjob] at hgone
    cases hgone
  · intro hnone
    rw [hnone]
    exact ⟨rfl, rfl⟩

/-- A deletion counts one change if there is anything to delete, and none otherwise. -/
theorem mutations_tally_of_deletion (hrun : s.stopped = false) (hq : ∀ d, q ≠ .register d) :
    (q.tally r now s).mutations = if (q.targets r s).isEmpty then 0 else 1 := by
  cases q with
  | register d => exact absurd rfl (hq d)
  | deleteJob name group =>
    simp only [Request.tally, hrun]
    cases (Request.deleteJob name group).targets r s <;> rfl
  | deleteGroup group =>
    simp only [Request.tally, hrun]
    cases (Request.deleteGroup group).targets r s <;> rfl

/-- **A request counts a change exactly if it has changed something.** -/
theorem mutations_tally_eq_zero_iff (hs : s.Sound) (q : Request) : (q.tally r now s).mutations = 0 ↔
    ((r.program q).exec (Store.engine now) s).2.jobs = s.jobs ∧
      ((r.program q).exec (Store.engine now) s).2.triggers = s.triggers := by
  by_cases hdeclares : ∃ d, q = .register d
  · obtain ⟨d, rfl⟩ := hdeclares
    obtain ⟨counters, hexec⟩ := d.exec_program_verdict now r hs
    rw [hexec]
    exact Declaration.mutations_tally_eq_zero_iff
  · have hq : ∀ d, q ≠ .register d := fun d hd => hdeclares ⟨d, hd⟩
    cases hrun : s.stopped with
    | true =>
      rw [Store.exec_of_stopped hrun, tally_of_stopped hrun]
      exact iff_of_true rfl ⟨rfl, rfl⟩
    | false =>
      obtain ⟨counters, hexec⟩ := exec_deletion (r := r) hrun hq now
      rw [hexec, mutations_tally_of_deletion hrun hq]
      refine Iff.trans ?_ removeAll_targets_eq_iff.symm
      rw [← List.isEmpty_iff]
      simp

/-- A deletion counts at most one change. -/
theorem mutations_tally_le_one (hq : ∀ d, q ≠ .register d) (r : Roster) (now : Instant) (s : Store) :
    (q.tally r now s).mutations ≤ 1 := by
  cases hrun : s.stopped with
  | true =>
    rw [tally_of_stopped hrun]
    exact Nat.zero_le 1
  | false =>
    rw [mutations_tally_of_deletion hrun hq]
    split <;> simp

/-! ### The counters of changes -/

variable {lock : LockState} {run : Program.Run (World Store) Answer} {allowed : Trigger → Prop}

/-- **The counters of changes tell whether anything has changed**, from every memory that is reached with whatever
triggers, and however a request ends: their sum is the same exactly if all jobs and all triggers are the same, with
their next fire times. A declaration that is carried out advances it by one for its job and by one for its trigger, if
these have changed, and so leaves it the same exactly if it led to nothing; a deletion advances it by one at most. -/
theorem mutations_exact (hs : s.Reached allowed) (hrun : r.perform (Store.engine now) q ⟨lock, s⟩ = some run) :
    (run.state.engine.counters.mutations = s.counters.mutations ↔
      run.state.engine.jobs = s.jobs ∧ run.state.engine.triggers = s.triggers) ∧
    (∀ d o, q = .register d → run.result = .ok (.registered (.ok o)) →
      run.state.engine.counters.mutations = s.counters.mutations + o.changes ∧
        (run.state.engine.counters.mutations = s.counters.mutations ↔ o.isNoop = true)) ∧
    ((∀ d, q ≠ .register d) → s.counters.mutations ≤ run.state.engine.counters.mutations ∧
      run.state.engine.counters.mutations ≤ s.counters.mutations + 1) := by
  have hstate : run.state.engine = ((r.program q).exec (Store.engine now) s).2 :=
    congrArg Prod.snd (perform_eq_some hrun).1
  have hcount : run.state.engine.counters.mutations = s.counters.mutations + (q.tally r now s).mutations := by
    rw [hstate, exec_counters hs.sound, Counters.mutations_add]
  have hsame : run.state.engine.counters.mutations = s.counters.mutations ↔ (q.tally r now s).mutations = 0 := by
    rw [hcount, Nat.add_eq_left]
  refine ⟨?_, ?_, fun hq => ?_⟩
  · rw [hsame, hstate]
    exact mutations_tally_eq_zero_iff hs.sound q
  · rintro d o rfl ho
    obtain ⟨hresult, -⟩ := verdict_of_register hs.sound hrun
    have houtcome := Declaration.answer_eq_outcome (hresult.symm.trans ho)
    have hchanges : ((Request.register d).tally r now s).mutations = o.changes := by
      rw [Request.tally, Declaration.tally_of_outcome houtcome, o.mutations_tally]
    rw [hsame, hcount, hchanges]
    exact ⟨rfl, o.changes_eq_zero_iff⟩
  · have hle := mutations_tally_le_one hq r now s
    omega

/-- A job that was declared with the schedule `@daily` is declared again with another schedule and with data, so that
both its job and its trigger change. -/
theorem mutations_exact_of_both : ∃ (now : Instant) (s : Store) (d : Declaration)
    (run : Program.Run (World Store) Answer), s.Reached Trigger.Mirrors ∧
      standard.perform (Store.engine now) (.register d) ⟨.free, s⟩ = some run ∧
      (s.counters.mutations = 2 ∧ run.state.engine.counters.mutations = 4) ∧
        (run.state.engine.counters.mutations = s.counters.mutations ↔
          run.state.engine.jobs = s.jobs ∧ run.state.engine.triggers = s.triggers) ∧
        (∀ d' o, Request.register d = .register d' → run.result = .ok (.registered (.ok o)) →
          run.state.engine.counters.mutations = s.counters.mutations + o.changes ∧
            (run.state.engine.counters.mutations = s.counters.mutations ↔ o.isNoop = true)) ∧
        ((∀ d', Request.register d ≠ .register d') → s.counters.mutations ≤ run.state.engine.counters.mutations ∧
          run.state.engine.counters.mutations ≤ s.counters.mutations + 1) := by
  let now : Instant := ⟨4133894300, 0, by decide, by decide, by decide, by decide⟩
  let d (cron : String) (data : Option Payload) : Declaration :=
    { jobType := "backup", name := "nightly", group := "eu", cron, start := now, stop := none, data }
  let hourly := d "@hourly" (some ((∅ : Payload).insert "retries" (.integer 3)))
  let s := ((standard.program (.register (d "@daily" none))).exec (Store.engine now) .fresh).2
  have hs : s.Reached Trigger.Mirrors := (Store.Reached.empty _).program (fun _ h => h) _ _
  obtain ⟨run, hrun, -, hstate⟩ := standard.perform_free (Store.engine now) (.register hourly) s
  have hcounted : run.state.engine.counters.mutations = 4 := by
    rw [hstate]
    decide +kernel
  exact ⟨now, s, hourly, run, hs, hrun, ⟨by decide +kernel, hcounted⟩, mutations_exact hs hrun⟩

end Roster

end JobRoster
