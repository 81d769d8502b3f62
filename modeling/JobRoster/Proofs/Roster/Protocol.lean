import JobRoster.Proofs.Engine.Exchanges
import JobRoster.Proofs.Job.Merge
import JobRoster.Proofs.Roster.Requests

/-!
# The protocol of requests

Which calls a request makes on an engine, whatever the engine replies, also when its replies do not fit each other: a
job may be said to be there and then not be given. After each exchange there are calls that may follow it
(`Request.Allows`), and none may follow a failure. A call has a stage, and each call is of a later stage than the one
before it, so that a request makes at most one call of a stage. How a request ends is decided by its last exchange
(`Request.Ends`).

Main statement: `request_keeps_protocol`.
-/

namespace JobRoster

open Attempt

/-- How far a request has got that makes a call: it asks for what is there, takes it, changes jobs, asks for a trigger,
takes it, changes it. -/
def Call.stage : Call → ℕ
  | jobExists _ | jobKeys _ => 0
  | getJob _ => 1
  | addJob .. | deleteJob _ | deleteJobs _ => 2
  | triggerExists _ => 3
  | getTrigger _ => 4
  | schedule _ | reschedule .. => 5

/-! ### Declarations -/

namespace Declaration

variable {d : Declaration} {last : Option Exchange} {x : Exchange} {c : Call}

/-- **The call that may follow an exchange** to carry out a declaration, or that may come first. -/
inductive Allows (d : Declaration) : Option Exchange → Call → Prop
  /-- At first it is asked whether the job is there. -/
  | first : Allows d none (.jobExists d.key)
  /-- A job that is said to be there is taken. -/
  | get : Allows d (some ⟨.jobExists d.key, .answer true⟩) (.getJob d.key)
  /-- A job that is said not to be there is added, in place of none. -/
  | add : Allows d (some ⟨.jobExists d.key, .answer false⟩) (.addJob d.job false)
  /-- A job that was taken is replaced if merging the data changes its own. -/
  | replace {stored : Job} {data : Payload} : d.data = some data → (stored.data.merge data).1 ≠ stored.data →
      Allows d (some ⟨.getJob d.key, .answer (some stored)⟩)
        (.addJob { stored with data := (stored.data.merge data).1 } true)
  /-- Then, or once the job was added, it is asked whether the trigger is there. -/
  | afterAdd {job : Job} {replace : Bool} : Allows d (some ⟨.addJob job replace, .answer ()⟩) (.triggerExists d.key)
  /-- So it is if a job that was taken has the data. -/
  | afterGet {stored : Job} : (∀ data, d.data = some data → (stored.data.merge data).1 = stored.data) →
      Allows d (some ⟨.getJob d.key, .answer (some stored)⟩) (.triggerExists d.key)
  /-- A trigger that is said to be there is taken. -/
  | getTrigger : Allows d (some ⟨.triggerExists d.key, .answer true⟩) (.getTrigger d.key)
  /-- A trigger that is said not to be there is scheduled. -/
  | schedule : Allows d (some ⟨.triggerExists d.key, .answer false⟩) (.schedule d.trigger)
  /-- A trigger that was taken is replaced if its cron expression is another one. -/
  | reschedule {current : Trigger} : Text.sameIgnoringCase current.cron d.cron = false →
      Allows d (some ⟨.getTrigger d.key, .answer (some current)⟩) (.reschedule d.key d.trigger)

/-- **An answer that a declaration has no use for**, with the error that is told then: what was said to be there is
not given. -/
def missing? (d : Declaration) : Exchange → Option EngineError
  | ⟨.getJob _, .answer none⟩ => some (.jobNotFound d.key.display)
  | ⟨.getTrigger _, .answer none⟩ => some (.triggerNotFound d.key.display)
  | _ => none

/-- The exchange that completes the first half of a declaration. -/
inductive JobDone (d : Declaration) : Option Exchange → JobChange → Prop
  /-- The job was added. -/
  | created : JobDone d (some ⟨.addJob d.job false, .answer ()⟩) .created
  /-- The job was replaced. -/
  | merged {job : Job} : JobDone d (some ⟨.addJob job true, .answer ()⟩) .merged
  /-- The job has the data. -/
  | unchanged {stored : Job} : (∀ data, d.data = some data → (stored.data.merge data).1 = stored.data) →
      JobDone d (some ⟨.getJob d.key, .answer (some stored)⟩) .unchanged

/-- **The exchange that completes a declaration**, what happened to its trigger then, and the next fire time if that is
told. -/
inductive Completes (d : Declaration) : Option Exchange → TriggerChange × Option Instant → Prop
  /-- The trigger was scheduled. -/
  | scheduled {next : Option Instant} : Completes d (some ⟨.schedule d.trigger, .answer next⟩) (.scheduled, next)
  /-- The trigger was replaced. -/
  | rescheduled {next : Option Instant} :
      Completes d (some ⟨.reschedule d.key d.trigger, .answer next⟩) (.rescheduled, next)
  /-- The trigger has the cron expression. -/
  | unchanged {current : Trigger} : Text.sameIgnoringCase current.cron d.cron = true →
      Completes d (some ⟨.getTrigger d.key, .answer (some current)⟩) (.unchanged, none)

theorem JobDone.allows {change : JobChange} (h : d.JobDone last change) : d.Allows last (.triggerExists d.key) := by
  cases h with
  | created | merged => exact .afterAdd
  | unchanged hsame => exact .afterGet hsame

theorem Allows.stage_lt (h : d.Allows (some x) c) : x.call.stage < c.stage := by
  cases h <;> simp [Call.stage]

theorem Allows.answered (h : d.Allows (some x) c) : ∃ a, x.reply = .answer a := by
  cases h <;> exact ⟨_, rfl⟩

theorem Allows.deletes_eq_none (h : d.Allows last c) : c.deletes = none := by
  cases h <;> rfl

/-- A declaration does not stop where it is completed. -/
theorem Completes.stop?_eq_none {result : TriggerChange × Option Instant} (h : d.Completes last result) :
    last.bind (Exchange.stop? d.missing?) = none := by
  cases h <;> rfl

variable (d)

/-- The first half begins with nothing before it. -/
theorem reconcileJob_speaks : d.reconcileJob.Speaks d.Allows d.missing? d.JobDone none := by
  refine speaks_call_bind .first fun there => ?_
  cases there with
  | false => exact speaks_call_bind .add fun _ => speaks_report_bind (speaks_pure .created)
  | true =>
    refine speaks_call_bind .get fun found => ?_
    cases found with
    | none => exact speaks_throw rfl
    | some stored =>
      simp only
      split
      · next merged hmerge =>
        -- the job is replaced where merging tells of a change, which it does where there is one
        obtain ⟨data, hdata, hmerge⟩ := Option.map_eq_some_iff.1 hmerge
        have hchanged : (stored.data.merge data).1 ≠ stored.data :=
          (stored.data.merge_changed_iff data).1 (by rw [hmerge])
        have hreplace := Allows.replace hdata hchanged
        rw [hmerge] at hreplace
        exact speaks_call_bind hreplace fun _ => speaks_report_bind (speaks_pure .merged)
      · next hnever =>
        refine speaks_pure (.unchanged fun data hdata => ?_)
        by_contra hchanged
        refine hnever (stored.data.merge data).1 ?_
        rw [hdata, Option.map_some, ← (stored.data.merge_changed_iff data).2 hchanged]

/-- The second half begins where the first one is done. -/
theorem reconcileTrigger_speaks {change : JobChange} (h : d.JobDone last change) :
    d.reconcileTrigger.Speaks d.Allows d.missing? d.Completes last := by
  refine speaks_call_bind h.allows fun there => ?_
  cases there with
  | false => exact speaks_call_bind .schedule fun _ => speaks_report_bind (speaks_pure .scheduled)
  | true =>
    refine speaks_call_bind .getTrigger fun found => ?_
    cases found with
    | none => exact speaks_throw rfl
    | some current =>
      simp only
      split
      · next hsame => exact speaks_report_bind (speaks_pure (.unchanged hsame))
      · next hother =>
        have hreschedule := Allows.reschedule (Bool.eq_false_iff.2 hother)
        exact speaks_call_bind hreschedule fun _ => speaks_report_bind (speaks_pure .rescheduled)

theorem reconcile_speaks :
    d.reconcile.Speaks d.Allows d.missing? (fun last o => d.Completes last (o.trigger, o.next)) none := by
  refine d.reconcileJob_speaks.bind fun last change hjob => ?_
  refine (d.reconcileTrigger_speaks hjob).bind fun last result htrigger => ?_
  exact speaks_pure htrigger

end Declaration

/-! ### Deletions -/

namespace Deletion

variable {key : Key} {matcher : GroupMatcher} {last : Option Exchange} {x : Exchange} {c : Call}

/-- **The call that may follow an exchange** to delete one job. -/
inductive OneAllows (key : Key) : Option Exchange → Call → Prop
  /-- At first it is asked whether the job is there. -/
  | first : OneAllows key none (.jobExists key)
  /-- A job that is said to be there is deleted. -/
  | delete : OneAllows key (some ⟨.jobExists key, .answer true⟩) (.deleteJob key)

/-- The exchange that completes the deletion of one job, and what is told then. -/
inductive OneCompletes (key : Key) : Option Exchange → Bool → Prop
  /-- The job is said not to be there. -/
  | absent : OneCompletes key (some ⟨.jobExists key, .answer false⟩) true
  /-- The engine has told whether the job was there. -/
  | deleted {b : Bool} : OneCompletes key (some ⟨.deleteJob key, .answer b⟩) b

/-- **The call that may follow an exchange** to delete the jobs in some groups. -/
inductive GroupsAllow (matcher : GroupMatcher) : Option Exchange → Call → Prop
  /-- At first it is asked which jobs there are. -/
  | first : GroupsAllow matcher none (.jobKeys matcher)
  /-- If there are any, exactly those are deleted. -/
  | delete {keys : List Key} : keys ≠ [] →
      GroupsAllow matcher (some ⟨.jobKeys matcher, .answer keys⟩) (.deleteJobs keys)

/-- The exchange that completes the deletion of the jobs in some groups, and what is told then. -/
inductive GroupsComplete (matcher : GroupMatcher) : Option Exchange → Bool → Prop
  /-- There are said to be no jobs. -/
  | empty : GroupsComplete matcher (some ⟨.jobKeys matcher, .answer []⟩) true
  /-- The engine has told whether all of the jobs were there. -/
  | deleted {keys : List Key} {b : Bool} : GroupsComplete matcher (some ⟨.deleteJobs keys, .answer b⟩) b

theorem OneAllows.stage_lt (h : OneAllows key (some x) c) : x.call.stage < c.stage := by
  cases h
  simp [Call.stage]

theorem OneAllows.answered (h : OneAllows key (some x) c) : ∃ a, x.reply = .answer a := by
  cases h
  exact ⟨_, rfl⟩

theorem GroupsAllow.stage_lt (h : GroupsAllow matcher (some x) c) : x.call.stage < c.stage := by
  cases h
  simp [Call.stage]

theorem GroupsAllow.answered (h : GroupsAllow matcher (some x) c) : ∃ a, x.reply = .answer a := by
  cases h
  exact ⟨_, rfl⟩

/-- A deletion has a use for each answer. -/
def missing? (_ : Exchange) : Option EngineError := none

theorem OneCompletes.stop?_eq_none {b : Bool} (h : OneCompletes key last b) :
    last.bind (Exchange.stop? missing?) = none := by
  cases h <;> rfl

theorem GroupsComplete.stop?_eq_none {b : Bool} (h : GroupsComplete matcher last b) :
    last.bind (Exchange.stop? missing?) = none := by
  cases h <;> rfl

theorem one_speaks (key : Key) : (one key).Speaks (OneAllows key) missing? (OneCompletes key) none := by
  refine speaks_call_bind .first fun there => ?_
  cases there with
  | false => exact speaks_pure .absent
  | true => exact speaks_report_bind (speaks_call .delete fun _ => .deleted)

theorem groups_speaks (matcher : GroupMatcher) :
    (groups matcher).Speaks (GroupsAllow matcher) missing? (GroupsComplete matcher) none := by
  refine speaks_call_bind .first fun keys => ?_
  cases keys with
  | nil => exact speaks_pure .empty
  | cons key keys =>
    exact speaks_report_bind (speaks_call (.delete (List.cons_ne_nil key keys)) fun _ => .deleted)

end Deletion

/-! ### Requests -/

namespace Roster

variable {r : Roster} {q : Request} {last : Option Exchange} {x : Exchange} {c : Call}

/-- **The call that may follow an exchange**, or that may come first. -/
def Request.Allows (r : Roster) : Request → Option Exchange → Call → Prop
  | register d => d.Allows
  | deleteJob name group => Deletion.OneAllows ⟨name, group⟩
  | deleteGroup group => Deletion.GroupsAllow (r.groupMatch.matcher group)

/-- An answer that a request has no use for, with the error that is told then. -/
def Request.missing? : Request → Exchange → Option EngineError
  | register d => d.missing?
  | _ => Deletion.missing?

/-- What a request ends with that is stopped by an error. -/
def Request.failed : Request → EngineError → Answer
  | register d, e => .registered (.error (.refused d.key e))
  | _, _ => .deleted false

/-- The exchange that completes a request, and what the request ends with then. -/
def Request.Completes (r : Roster) : Request → Option Exchange → Answer → Prop
  | register d, last, answer => ∃ o, answer = .registered (.ok o) ∧ d.Completes last (o.trigger, o.next)
  | deleteJob name group, last, answer => ∃ b, answer = .deleted b ∧ Deletion.OneCompletes ⟨name, group⟩ last b
  | deleteGroup group, last, answer =>
    ∃ b, answer = .deleted b ∧ Deletion.GroupsComplete (r.groupMatch.matcher group) last b

/-- **How a request ends**, which its last exchange decides: an error that stops it is told, a crash is passed on, and
otherwise it is complete. -/
def Request.Ends (r : Roster) (q : Request) (last : Option Exchange) (result : Except Crash Answer) : Prop :=
  match last.bind (Exchange.stop? q.missing?) with
  | some (.ok e) => result = .ok (q.failed e)
  | some (.error crash) => result = .error crash
  | none => ∃ answer, result = .ok answer ∧ q.Completes r last answer

theorem Request.Allows.stage_lt (h : q.Allows r (some x) c) : x.call.stage < c.stage := by
  cases q with
  | register d => exact Declaration.Allows.stage_lt h
  | deleteJob name group => exact Deletion.OneAllows.stage_lt h
  | deleteGroup group => exact Deletion.GroupsAllow.stage_lt h

theorem Request.Allows.answered (h : q.Allows r (some x) c) : ∃ a, x.reply = .answer a := by
  cases q with
  | register d => exact Declaration.Allows.answered h
  | deleteJob name group => exact Deletion.OneAllows.answered h
  | deleteGroup group => exact Deletion.GroupsAllow.answered h

theorem Request.Completes.stop?_eq_none {answer : Answer} (h : q.Completes r last answer) :
    last.bind (Exchange.stop? q.missing?) = none := by
  cases q with
  | register d =>
    obtain ⟨o, -, h⟩ := h
    exact h.stop?_eq_none
  | deleteJob name group =>
    obtain ⟨b, -, h⟩ := h
    exact h.stop?_eq_none
  | deleteGroup group =>
    obtain ⟨b, -, h⟩ := h
    exact h.stop?_eq_none

theorem Request.ends_of_completes {answer : Answer} (h : q.Completes r last answer) : q.Ends r last (.ok answer) := by
  unfold Ends
  rw [h.stop?_eq_none]
  exact ⟨answer, rfl, h⟩

theorem Request.ends_of_error {e : EngineError} (h : last.bind (Exchange.stop? q.missing?) = some (.ok e)) :
    q.Ends r last (.ok (q.failed e)) := by
  unfold Ends
  rw [h]

theorem Request.ends_of_crash {crash : Crash} (h : last.bind (Exchange.stop? q.missing?) = some (.error crash)) :
    q.Ends r last (.error crash) := by
  unfold Ends
  rw [h]

open Request in
/-- A deletion that is stopped by an error ends with false. -/
theorem orFalse_speaks {attempt : Attempt Bool} {May : Option Exchange → Call → Prop}
    {Done : Option Exchange → Bool → Prop} (h : attempt.Speaks May q.missing? Done none)
    (hdone : ∀ last b, Done last b → q.Completes r last (.deleted b)) (hfailed : ∀ e, q.failed e = .deleted false)
    (failed : String → Event) :
    (do return .deleted (← Deletion.orFalse attempt failed) : Program Answer).Speaks May (q.Ends r) none := by
  have horFalse : (Deletion.orFalse attempt failed).Speaks May
      (fun last result => q.Ends r last (result.map .deleted)) none := by
    refine Program.Speaks.bind h (fun last result h => ?_) fun _ _ h => ends_of_crash h
    cases result with
    | ok b => exact ends_of_completes (hdone last b h)
    | error e =>
      have hends : q.Ends r last (.ok (q.failed e)) := ends_of_error h
      rwa [hfailed] at hends
  exact Program.Speaks.bind horFalse (fun _ _ h => h) fun _ _ h => h

open Request in
/-- **A request speaks by its rule.** -/
theorem program_speaks (r : Roster) (q : Request) : (r.program q).Speaks (q.Allows r) (q.Ends r) none := by
  cases q with
  | register d =>
    have hregister : d.register.Speaks d.Allows
        (fun last result => (Request.register d).Ends r last (result.map .registered)) none := by
      refine Program.Speaks.bind d.reconcile_speaks (fun last result h => ?_) fun _ _ h => ends_of_crash h
      cases result with
      | ok o => exact ends_of_completes ⟨o, rfl, h⟩
      | error e => exact ends_of_error h
    exact Program.Speaks.bind hregister (fun _ _ h => h) fun _ _ h => h
  | deleteJob name group =>
    exact orFalse_speaks (q := .deleteJob name group) (Deletion.one_speaks ⟨name, group⟩)
      (fun _ b h => ⟨b, rfl, h⟩) (fun _ => rfl) _
  | deleteGroup group =>
    exact orFalse_speaks (q := .deleteGroup group) (Deletion.groups_speaks (r.groupMatch.matcher group))
      (fun _ b h => ⟨b, rfl, h⟩) (fun _ => rfl) _

/-! ### The protocol -/

/-- **The protocol of a request**, by the exchanges of its run and by what it ends with. -/
structure Protocol (r : Roster) (q : Request) (log : List Exchange) (result : Except Crash Answer) : Prop where
  /-- The first call may come first. -/
  first : ∀ x ∈ log.head?, q.Allows r none x.call
  /-- Each other call may follow the exchange before it. -/
  after : log.IsChain fun x y => q.Allows r (some x) y.call
  /-- No call follows one that was not answered. -/
  answered : ∀ x ∈ log.dropLast, ∃ a, x.reply = .answer a
  /-- Each call is of a later stage than the calls before it. -/
  stages : log.Pairwise fun x y => x.call.stage < y.call.stage
  /-- A declaration deletes nothing. -/
  keeps : ∀ d, q = .register d → ∀ x ∈ log, x.call.deletes = none
  /-- What the last exchange decides comes true. -/
  ended : q.Ends r log.getLast? result

/-- **A request keeps to its protocol, whatever the engine replies.** -/
theorem request_keeps_protocol {σ : Type} (r : Roster) (engine : Engine σ) (q : Request) (s : σ) :
    ∃ run, r.perform engine q ⟨.free, s⟩ = some run ∧
      Protocol r q ((r.program q).exchanges engine s) run.result := by
  obtain ⟨run, hrun, hresult, -⟩ := r.perform_free engine q s
  have hspeaks := r.program_speaks q
  obtain ⟨hfirst, hafter⟩ := hspeaks.chain engine s
  have hended := hspeaks.ends engine s
  rw [Option.or_none, ← hresult] at hended
  refine ⟨run, hrun, hfirst, hafter, fun x hx => ?_, ?_, fun d hd x hx => ?_, hended⟩
  · obtain ⟨c, hc⟩ := exists_may_of_mem_dropLast hafter hx
    exact hc.answered
  · have hstages : ((r.program q).exchanges engine s).IsChain fun x y => x.call.stage < y.call.stage :=
      hafter.imp fun _ _ h => h.stage_lt
    have : IsTrans Exchange fun x y => x.call.stage < y.call.stage := ⟨fun _ _ _ => Nat.lt_trans⟩
    exact List.isChain_iff_pairwise.1 hstages
  · subst hd
    obtain ⟨last, hlast⟩ := exists_may_of_mem hfirst hafter hx
    exact Declaration.Allows.deletes_eq_none hlast

end Roster

end JobRoster
