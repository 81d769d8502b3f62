import JobRoster.Job.Key
import JobRoster.Job.Payload

/-!
# Jobs and triggers

A job is what is to be done; a trigger says when. The key of a trigger is that of its job unless the trigger was
read from data, which can give it any other.
-/

namespace JobRoster

/-- A job as it is stored. -/
structure Job where
  /-- The identity of the job. -/
  key : Key
  /-- What kind of job it is. -/
  jobType : String
  /-- The data that it carries. -/
  data : Payload
  /-- Whether it is kept without a trigger. -/
  durable : Bool

namespace Job

/-- Jobs as data. -/
def codec : Codec Job :=
  Shape.codec
    (((Shape.single (.required "key" Key.jobCodec)).both
      ((Shape.single (.required "job_type" .text)).both
        ((Shape.single (.defaulted "data" Payload.codec ∅)).both
          (.single (.defaulted "durable" .boolean true))))).as
      (fun (key, jobType, data, durable) => ⟨key, jobType, data, durable⟩)
      (fun j => (j.key, j.jobType, j.data, j.durable)))
    "JobDetail"

end Job

/-- What happens to a trigger whose fire time has passed unused. -/
inductive MisfirePolicy where
  /-- It waits for its next fire time. -/
  | doNothing
  /-- It fires at once. -/
  | fireOnceNow
  deriving DecidableEq, Repr

namespace MisfirePolicy

/-- The name of a policy. -/
def name : MisfirePolicy → String
  | doNothing => "do_nothing"
  | fireOnceNow => "fire_once_now"

/-- Policies as data. -/
def codec : Codec MisfirePolicy := .choice [doNothing, fireOnceNow] name

end MisfirePolicy

/-- A trigger: the times at which a job is due, within a window. -/
structure Trigger where
  /-- The identity of the trigger. -/
  key : Key
  /-- The identity of the job that it fires. -/
  jobKey : Key
  /-- The cron expression, as declared. -/
  cron : String
  /-- The first moment of the window. -/
  start : Instant
  /-- The last moment of the window, if it has one. -/
  stop : Option Instant
  /-- What happens when a fire time passes unused. -/
  policy : MisfirePolicy
  deriving DecidableEq

namespace Trigger

/-- The trigger of a job, under the key of the job. -/
def forJob (job : Key) (cron : String) (start : Instant) (stop : Option Instant) : Trigger :=
  { key := job, jobKey := job, cron, start, stop, policy := .doNothing }

/-- Triggers as data. -/
def codec : Codec Trigger :=
  Shape.codec
    (((Shape.single (.required "key" Key.triggerCodec)).both
      ((Shape.single (.required "job_key" Key.jobCodec)).both
        ((Shape.single (.required "cron_expression" .text)).both
          ((Shape.single (.required "start_time" .moment)).both
            ((Shape.single (.nullable "end_time" .moment)).both
              (.single (.required "misfire_policy" MisfirePolicy.codec))))))).as
      (fun (key, jobKey, cron, start, stop, policy) => ⟨key, jobKey, cron, start, stop, policy⟩)
      (fun t => (t.key, t.jobKey, t.cron, t.start, t.stop, t.policy)))
    "CronTrigger"

end Trigger

end JobRoster
