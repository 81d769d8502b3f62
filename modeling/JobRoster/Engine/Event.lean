import JobRoster.Job.Basic
import JobRoster.Settings.Validation

/-!
# Events

What a roster and its engine report while they work. An event has a level, a message and named details, all of which
follow from what happened.
-/

namespace JobRoster

/-- How important an event is. -/
inductive Level where
  /-- Something failed. -/
  | error
  /-- Something may be wrong. -/
  | warn
  /-- Something changed. -/
  | info
  /-- A detail of the work. -/
  | debug
  deriving DecidableEq, Repr

/-- The name of a level. -/
def Level.name : Level → String
  | error => "ERROR"
  | warn => "WARN"
  | info => "INFO"
  | debug => "DEBUG"

/-- Something worth reporting. -/
inductive Event where
  /-- The engine stored a job, in place of another one or not. -/
  | jobStored (key : Key) (replaced : Bool)
  /-- The engine was emptied. -/
  | engineCleared
  /-- The engine was shut down. -/
  | engineStopped
  /-- A trigger let its fire time pass, and waits for its next one. -/
  | misfired (key : Key) (missed : Instant) (next : Option Instant)
  /-- A declaration added data to a job. -/
  | payloadMerged (key : Key)
  /-- A declaration made a job. -/
  | jobAdded (key : Key)
  /-- A declaration left a trigger as it is. -/
  | triggerUnchanged (key : Key) (cron : String)
  /-- A declaration replaced a trigger. -/
  | triggerRescheduled (trigger : Trigger) (previous : String)
  /-- A declaration made a trigger. -/
  | triggerScheduled (trigger : Trigger)
  /-- A job is about to be deleted. -/
  | deletingJob (key : Key)
  /-- Some jobs are about to be deleted. -/
  | deletingJobs (count : Nat) (matcher : GroupMatcher)
  /-- Settings have an issue. -/
  | settingsWarning (issue : Issue)
  /-- A declaration failed. -/
  | registrationFailed (key : Key) (reason : String)
  /-- The deletion of a job failed. -/
  | deletionFailed (name reason : String)
  /-- The deletion of groups failed. -/
  | groupDeletionFailed (group reason : String)
  /-- A change in the background was broken off. -/
  | backgroundFailed (reason : String)
  /-- The roster of the process was set. -/
  | processRosterInstalled
  /-- The roster of the process was made because there was none. -/
  | processRosterMade
  deriving DecidableEq

namespace Event

/-- The level of an event. -/
def level : Event → Level
  | jobStored .. | engineCleared | misfired .. | payloadMerged _ | triggerUnchanged .. => .debug
  | engineStopped | jobAdded _ | triggerRescheduled .. | triggerScheduled _ | deletingJob _ | deletingJobs ..
  | processRosterInstalled | processRosterMade => .info
  | settingsWarning _ => .warn
  | registrationFailed .. | deletionFailed .. | groupDeletionFailed .. | backgroundFailed _ => .error

/-- The message of an event. -/
def message : Event → String
  | jobStored key replaced => s!"Stored job {key.display} (replaced: {replaced})"
  | engineCleared => "MemoryEngine cleared"
  | engineStopped => "MemoryEngine shut down"
  | misfired key missed next =>
    s!"Trigger {key.display} misfired at {missed.describe}, next fire {Instant.describeOption next}"
  | payloadMerged key => s!"Merged payload into job {key.display}"
  | jobAdded key => s!"Add job, job name: {key.name}, group name: {key.group}"
  | triggerUnchanged key cron => s!"Trigger {key.display} unchanged, cron expression: {cron}"
  | triggerRescheduled .. => "Rescheduled job trigger"
  | triggerScheduled _ => "Scheduled job trigger"
  | deletingJob key => s!"try to delete job, job name: {key.name}, job group name: {key.group}"
  | deletingJobs count matcher => s!"try to delete {count} jobs where {matcher.describe}"
  | settingsWarning issue => s!"Config warning at {issue.display}"
  | registrationFailed key reason => s!"add job failed for {key.display}: {reason}"
  | deletionFailed name reason => s!"delete job : {name} failed: {reason}"
  | groupDeletionFailed group reason => s!"delete all jobs in job group: {group} failed: {reason}"
  | backgroundFailed reason => s!"Blocking registry task failed: {reason}"
  | processRosterInstalled => "Process-wide job registry installed"
  | processRosterMade => "No job registry installed, using in-memory engine"

/-- The named details of an event. -/
def details : Event → List (String × String)
  | triggerRescheduled t previous =>
    [("trigger", t.key.display), ("cron", t.cron), ("previous", previous), ("start", t.start.describe),
      ("end", Instant.describeOption t.stop)]
  | triggerScheduled t =>
    [("trigger", t.key.display), ("cron", t.cron), ("start", t.start.describe),
      ("end", Instant.describeOption t.stop)]
  | _ => []

end Event

end JobRoster
