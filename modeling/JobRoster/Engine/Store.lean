import JobRoster.Engine.Call
import JobRoster.Cron.Failure
import JobRoster.Cron.Fire

/-!
# The memory of an engine

An engine that keeps everything in memory has a table of jobs and a table of triggers. A stored trigger comes with the
schedule of its cron expression and with its next fire time. Ten counters tell how often calls had an effect.
-/

namespace JobRoster

/-- A trigger as it is stored. -/
structure Stored where
  /-- The trigger. -/
  trigger : Trigger
  /-- The schedule of its cron expression. -/
  schedule : Cron.Schedule
  /-- When it fires next, if ever. -/
  next : Option Instant
  deriving DecidableEq

/-- How often each kind of call had an effect. The counts have no bound; a counter of 64 bits shows them modulo
`2 ^ 64`. -/
structure Counters where
  /-- Questions whether something is there. -/
  existenceChecks : Nat := 0
  /-- Jobs looked up. -/
  jobReads : Nat := 0
  /-- Triggers looked up. -/
  triggerReads : Nat := 0
  /-- New jobs. -/
  jobsAdded : Nat := 0
  /-- Jobs put in the place of others. -/
  jobsReplaced : Nat := 0
  /-- New triggers. -/
  triggersScheduled : Nat := 0
  /-- Triggers put in the place of others. -/
  triggersRescheduled : Nat := 0
  /-- Deletions of one job. -/
  jobDeletes : Nat := 0
  /-- Deletions of several jobs. -/
  bulkDeletes : Nat := 0
  /-- Listings of keys. -/
  keyEnumerations : Nat := 0
  deriving DecidableEq, Repr

namespace Counters

/-- The counters by name. -/
def named (c : Counters) : List (String × Nat) :=
  [("existence_checks", c.existenceChecks), ("job_reads", c.jobReads), ("trigger_reads", c.triggerReads),
    ("jobs_added", c.jobsAdded), ("jobs_replaced", c.jobsReplaced), ("triggers_scheduled", c.triggersScheduled),
    ("triggers_rescheduled", c.triggersRescheduled), ("job_deletes", c.jobDeletes),
    ("bulk_deletes", c.bulkDeletes), ("key_enumerations", c.keyEnumerations)]

/-- How many calls were made that change what is stored. -/
def mutations (c : Counters) : Nat :=
  c.jobsAdded + c.jobsReplaced + c.triggersScheduled + c.triggersRescheduled + c.jobDeletes + c.bulkDeletes

end Counters

/-- The memory of an engine. -/
structure Store where
  /-- The jobs. -/
  jobs : Table Job
  /-- The triggers. -/
  triggers : Table Stored
  /-- The counters. -/
  counters : Counters
  /-- Whether the engine has been shut down. -/
  stopped : Bool
  /-- How many nanoseconds late a trigger may be before its fire time counts as missed. -/
  threshold : Int

namespace Store

/-- An empty memory with a threshold. -/
def empty (threshold : Int) : Store :=
  { jobs := ∅, triggers := ∅, counters := {}, stopped := false, threshold }

/-- The threshold when none is given: one minute. -/
def standardThreshold : Int := 60 * Instant.perSecond

/-- The empty memory with the standard threshold. -/
def fresh : Store := empty standardThreshold

instance : Inhabited Store := ⟨fresh⟩

/-- The memory with its counters changed. -/
def count (s : Store) (bump : Counters → Counters) : Store := { s with counters := bump s.counters }

/-- The memory without a job and the triggers that fire it. -/
def remove (s : Store) (key : Key) : Store :=
  { s with
    triggers := s.triggers.filter fun _ stored => stored.trigger.jobKey ≠ key
    jobs := s.jobs.erase key }

/-- When a trigger fires next. -/
def nextFire (s : Store) (key : Key) : Option Instant := (s.triggers[key]?).bind Stored.next

end Store

/-- The schedule of a cron expression. -/
def readCron (expression : String) : Except EngineError Cron.Schedule :=
  let source := Cron.Schedule.normalize expression
  match Cron.Schedule.read source with
  | .ok schedule => .ok schedule
  | .error failure => .error (.invalidCron expression (failure.report source))

end JobRoster
