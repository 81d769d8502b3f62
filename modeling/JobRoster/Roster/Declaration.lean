import JobRoster.Engine.Program
import JobRoster.Text.Fold

/-!
# Declarations

A declaration says which job is wanted, when it is due, and with what data. Declaring it brings the engine in
line with it: a missing job is made, a job that is there takes over the data, a missing trigger is made, and a
trigger with another cron expression is replaced. What is already as declared is left alone, so declaring twice
is the same as declaring once.
-/

namespace JobRoster

/-- A job as it is wanted. -/
structure Declaration where
  /-- What kind of job it is. -/
  jobType : String
  /-- The name of the job. -/
  name : String
  /-- The group of the job. -/
  group : String
  /-- The cron expression. -/
  cron : String
  /-- The first moment of the window. -/
  start : Instant
  /-- The last moment of the window, if it has one. -/
  stop : Option Instant
  /-- The data, if there are any. -/
  data : Option Payload

/-- The identity of the declared job. -/
def Declaration.key (d : Declaration) : Key := ⟨d.name, d.group⟩

/-- The trigger that is wanted. -/
def Declaration.trigger (d : Declaration) : Trigger := .forJob d.key d.cron d.start d.stop

/-- The job that is made when there is none. -/
def Declaration.job (d : Declaration) : Job :=
  { key := d.key, jobType := d.jobType, data := d.data.getD ∅, durable := true }

/-- What happened to a job. -/
inductive JobChange where
  /-- It was made. -/
  | created
  /-- It took over data. -/
  | merged
  /-- Nothing. -/
  | unchanged
  deriving DecidableEq, Repr

/-- The name of a change. -/
def JobChange.name : JobChange → String
  | created => "created"
  | merged => "merged"
  | unchanged => "unchanged"

/-- What happened to a trigger. -/
inductive TriggerChange where
  /-- It was made. -/
  | scheduled
  /-- It was replaced. -/
  | rescheduled
  /-- Nothing. -/
  | unchanged
  deriving DecidableEq, Repr

/-- The name of a change. -/
def TriggerChange.name : TriggerChange → String
  | scheduled => "scheduled"
  | rescheduled => "rescheduled"
  | unchanged => "unchanged"

/-- What a declaration led to. -/
structure Outcome where
  /-- What happened to the job. -/
  job : JobChange
  /-- What happened to the trigger. -/
  trigger : TriggerChange
  /-- The next fire time, if the trigger was made or replaced. -/
  next : Option Instant
  deriving DecidableEq

/-- Whether a declaration led to nothing. -/
def Outcome.isNoop (o : Outcome) : Bool := o.job = .unchanged && o.trigger = .unchanged

/-- Why a declaration was not carried out. -/
inductive DeclarationError where
  /-- The engine refused a call. -/
  | refused (key : Key) (source : EngineError)
  /-- The program was broken off. -/
  | aborted (reason : String)
  deriving DecidableEq, Repr

namespace DeclarationError

/-- The text of an error. -/
def message : DeclarationError → String
  | refused key source => s!"add job failed for {key.display}: {source.message}"
  | aborted reason => "registration aborted: " ++ reason

/-- The identity of the declared job, if it is known. -/
def key? : DeclarationError → Option Key
  | refused key _ => some key
  | aborted _ => none

end DeclarationError

namespace Declaration

open Attempt

/-- Brings the job in line with a declaration. -/
def reconcileJob (d : Declaration) : Attempt JobChange := do
  if ← call (.jobExists d.key) then
    match ← call (.getJob d.key) with
    | none => throw (.jobNotFound d.key.display)
    | some stored =>
      match d.data.map stored.data.merge with
      | some (merged, true) => do
        call (.addJob { stored with data := merged } true)
        report (.payloadMerged d.key)
        return .merged
      | _ => return .unchanged
  else
    call (.addJob d.job false)
    report (.jobAdded d.key)
    return .created

/-- Brings the trigger in line with a declaration, and tells when it fires next if that changed it. -/
def reconcileTrigger (d : Declaration) : Attempt (TriggerChange × Option Instant) := do
  if ← call (.triggerExists d.key) then
    match ← call (.getTrigger d.key) with
    | none => throw (.triggerNotFound d.key.display)
    | some current =>
      if Text.sameIgnoringCase current.cron d.cron then
        report (.triggerUnchanged d.key current.cron)
        return (.unchanged, none)
      else
        let next ← call (.reschedule d.key d.trigger)
        report (.triggerRescheduled d.trigger current.cron)
        return (.rescheduled, next)
  else
    let next ← call (.schedule d.trigger)
    report (.triggerScheduled d.trigger)
    return (.scheduled, next)

/-- Brings job and trigger in line with a declaration, the job first. -/
def reconcile (d : Declaration) : Attempt Outcome := do
  let job ← d.reconcileJob
  let (trigger, next) ← d.reconcileTrigger
  return ⟨job, trigger, next⟩

/-- Carries out a declaration. -/
def register (d : Declaration) : Program (Except DeclarationError Outcome) := do
  match ← d.reconcile.run with
  | .ok outcome => return .ok outcome
  | .error source =>
    Program.note (.registrationFailed d.key source.message) (.done (.error (.refused d.key source)))

end Declaration

end JobRoster
