import JobRoster.Engine.Event

/-!
# Calls to a scheduling engine

A scheduling engine answers ten kinds of calls. A call is refused with an error, or the engine crashes over it,
or it is answered; what an answer is depends on the call.
-/

namespace JobRoster

/-- Why an engine refuses a call. -/
inductive EngineError where
  /-- There is such a job or trigger already. -/
  | alreadyExists (what : String)
  /-- There is no such job. -/
  | jobNotFound (key : String)
  /-- There is no such trigger. -/
  | triggerNotFound (key : String)
  /-- A job has no trigger and is not durable. -/
  | notDurable (key : String)
  /-- A trigger is to replace one of another job. -/
  | jobMismatch (key : String)
  /-- A cron expression cannot be read. -/
  | invalidCron (expression report : String)
  /-- A trigger has no fire time left in its window. -/
  | willNeverFire (key : String)
  /-- The engine does not take calls. -/
  | unavailable (reason : String)
  /-- Data cannot be read. -/
  | malformedData (reason : String)
  /-- Something else went wrong. -/
  | internal (reason : String)
  deriving DecidableEq, Repr

/-- The text of an error. -/
def EngineError.message : EngineError → String
  | alreadyExists what => "Object already exists: " ++ what
  | jobNotFound key => "Job not found: " ++ key
  | triggerNotFound key => "Trigger not found: " ++ key
  | notDurable key => "Job " ++ key ++ " has no trigger and is not durable"
  | jobMismatch key => "Trigger " ++ key ++ " does not belong to the same job as the trigger it replaces"
  | invalidCron expression report => "Invalid cron expression '" ++ expression ++ "': " ++ report
  | willNeverFire key => "Trigger " ++ key ++ " will never fire"
  | unavailable reason => "Engine unavailable: " ++ reason
  | malformedData reason => "Serialization error: " ++ reason
  | internal reason => "Internal error: " ++ reason

/-- Why a program is broken off. -/
inductive Crash where
  /-- Arithmetic left the range of instants. -/
  | overflow (o : Overflow)
  /-- The engine gave up with a text. -/
  | raised (text : String)
  deriving DecidableEq, Repr

/-- The text of a crash. -/
def Crash.message : Crash → String
  | overflow o => o.message
  | raised text => text

/-- What comes back from a call. -/
inductive Reply (α : Type) where
  /-- The answer. -/
  | answer (a : α)
  /-- The call is refused. -/
  | refused (e : EngineError)
  /-- The engine crashed. -/
  | crashed (c : Crash)
  deriving DecidableEq, Repr

/-- A call to a scheduling engine. -/
inductive Call where
  /-- Is there such a job? -/
  | jobExists (key : Key)
  /-- Is there such a trigger? -/
  | triggerExists (key : Key)
  /-- The job with a key. -/
  | getJob (key : Key)
  /-- Stores a job, in place of one with its key if that is allowed. -/
  | addJob (job : Job) (replace : Bool)
  /-- The trigger with a key. -/
  | getTrigger (key : Key)
  /-- Stores a new trigger, and tells its first fire time. -/
  | schedule (trigger : Trigger)
  /-- Puts a trigger in the place of another one, and tells its first fire time. -/
  | reschedule (key : Key) (trigger : Trigger)
  /-- Deletes a job with its triggers, and tells whether it was there. -/
  | deleteJob (key : Key)
  /-- Deletes jobs with their triggers, and tells whether all of them were there. -/
  | deleteJobs (keys : List Key)
  /-- The keys of the jobs in the groups that a matcher selects. -/
  | jobKeys (matcher : GroupMatcher)

namespace Call

/-- What an answer to a call is. -/
abbrev Answer : Call → Type
  | jobExists _ => Bool
  | triggerExists _ => Bool
  | getJob _ => Option Job
  | addJob .. => Unit
  | getTrigger _ => Option Trigger
  | schedule _ => Option Instant
  | reschedule .. => Option Instant
  | deleteJob _ => Bool
  | deleteJobs _ => Bool
  | jobKeys _ => List Key

/-- The name of the kind of a call. -/
def name : Call → String
  | jobExists _ => "check_job_exists"
  | triggerExists _ => "check_trigger_exists"
  | getJob _ => "get_job"
  | addJob .. => "add_job"
  | getTrigger _ => "get_trigger"
  | schedule _ => "schedule_job"
  | reschedule .. => "reschedule_job"
  | deleteJob _ => "delete_job"
  | deleteJobs _ => "delete_jobs"
  | jobKeys _ => "job_keys"

/-- The arguments of a call in one line. -/
def arguments : Call → String
  | jobExists key | triggerExists key | getJob key | getTrigger key | deleteJob key => key.display
  | addJob job replace => s!"{job.key.display} replace={replace} durable={job.durable}"
  | schedule trigger => s!"{trigger.key.display} {trigger.cron}"
  | reschedule key trigger => s!"{key.display} {trigger.key.display} {trigger.cron}"
  | deleteJobs keys => "[" ++ ", ".intercalate (keys.map Key.display) ++ "]"
  | jobKeys matcher => matcher.describe

/-- A call in one line. -/
def describe (c : Call) : String := c.name ++ " " ++ c.arguments

end Call

/-- What a call leads to: a reply, the state of the engine after it, and events. -/
structure Effect (σ α : Type) where
  /-- What comes back. -/
  reply : Reply α
  /-- The state afterwards. -/
  state : σ
  /-- What was reported meanwhile. -/
  events : List Event

/-- A scheduling engine with states in `σ`. -/
structure Engine (σ : Type) where
  /-- What a call leads to in a state. -/
  serve : (c : Call) → σ → Effect σ c.Answer

end JobRoster
