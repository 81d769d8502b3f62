import JobRoster.Engine.Store

/-!
# The engine in memory

What each call leads to in an engine that keeps everything in memory, given the time of the call. A call that is
refused, or over which the engine crashes, leaves the memory as it was.
-/

namespace JobRoster.Store

/-- A call that is answered. -/
def reply {α : Type} (s : Store) (a : α) : Effect Store α := ⟨.answer a, s, []⟩

/-- A call that is refused. -/
def refuse {α : Type} (s : Store) (e : EngineError) : Effect Store α := ⟨.refused e, s, []⟩

/-- Whether there is a job with a key. -/
def hasJob (s : Store) (key : Key) : Effect Store Bool :=
  let s := s.count fun c => { c with existenceChecks := c.existenceChecks + 1 }
  s.reply (s.jobs.contains key)

/-- Whether there is a trigger with a key. -/
def hasTrigger (s : Store) (key : Key) : Effect Store Bool :=
  let s := s.count fun c => { c with existenceChecks := c.existenceChecks + 1 }
  s.reply (s.triggers.contains key)

/-- The job with a key. -/
def getJob (s : Store) (key : Key) : Effect Store (Option Job) :=
  let s := s.count fun c => { c with jobReads := c.jobReads + 1 }
  s.reply s.jobs[key]?

/-- The trigger with a key. -/
def getTrigger (s : Store) (key : Key) : Effect Store (Option Trigger) :=
  let s := s.count fun c => { c with triggerReads := c.triggerReads + 1 }
  s.reply (s.triggers[key]?.map Stored.trigger)

/-- Stores a job. One with its key is only replaced if that is asked for; a job that is not durable needs a
trigger under its key. -/
def addJob (s : Store) (job : Job) (replace : Bool) : Effect Store Unit :=
  let known := s.jobs.contains job.key
  if known && !replace then s.refuse (.alreadyExists job.key.display)
  else if !job.durable && !s.triggers.contains job.key then s.refuse (.notDurable job.key.display)
  else
    let s := s.count fun c =>
      if known then { c with jobsReplaced := c.jobsReplaced + 1 } else { c with jobsAdded := c.jobsAdded + 1 }
    ⟨.answer (), { s with jobs := s.jobs.insert job.key job }, [.jobStored job.key known]⟩

/-- A trigger with its schedule and its first fire time, which it has to have. -/
def prepare (now : Instant) (trigger : Trigger) : Reply Stored :=
  match readCron trigger.cron with
  | .error e => .refused e
  | .ok schedule =>
    match schedule.firstFire now trigger.start trigger.stop with
    | .error o => .crashed (.overflow o)
    | .ok none => .refused (.willNeverFire trigger.key.display)
    | .ok (some next) => .answer ⟨trigger, schedule, some next⟩

/-- Stores a new trigger of a job that is there. -/
def schedule (s : Store) (now : Instant) (trigger : Trigger) : Effect Store (Option Instant) :=
  if !s.jobs.contains trigger.jobKey then s.refuse (.jobNotFound trigger.jobKey.display)
  else if s.triggers.contains trigger.key then s.refuse (.alreadyExists trigger.key.display)
  else
    match prepare now trigger with
    | .refused e => s.refuse e
    | .crashed c => ⟨.crashed c, s, []⟩
    | .answer stored =>
      let s := s.count fun c => { c with triggersScheduled := c.triggersScheduled + 1 }
      { s with triggers := s.triggers.insert stored.trigger.key stored }.reply stored.next

/-- Takes a trigger away and stores another one of the same job, under its own key. Without a trigger to take
away there is no effect. -/
def reschedule (s : Store) (now : Instant) (key : Key) (trigger : Trigger) : Effect Store (Option Instant) :=
  match s.triggers[key]? with
  | none => s.reply none
  | some old =>
    if old.trigger.jobKey ≠ trigger.jobKey then s.refuse (.jobMismatch trigger.key.display)
    else
      match prepare now trigger with
      | .refused e => s.refuse e
      | .crashed c => ⟨.crashed c, s, []⟩
      | .answer stored =>
        let s := s.count fun c => { c with triggersRescheduled := c.triggersRescheduled + 1 }
        { s with triggers := (s.triggers.erase key).insert stored.trigger.key stored }.reply stored.next

/-- Deletes a job and the triggers that fire it. -/
def deleteJob (s : Store) (key : Key) : Effect Store Bool :=
  let s := s.count fun c => { c with jobDeletes := c.jobDeletes + 1 }
  (s.remove key).reply (s.jobs.contains key)

/-- The memory without some jobs and the triggers that fire them, and whether each of the jobs was there when its turn
came. -/
def removeAll (s : Store) : List Key → Store × Bool
  | [] => (s, true)
  | key :: keys =>
    let (s', all) := (s.remove key).removeAll keys
    (s', s.jobs.contains key && all)

/-- Deletes jobs and the triggers that fire them. -/
def deleteJobs (s : Store) (keys : List Key) : Effect Store Bool :=
  let s := s.count fun c => { c with bulkDeletes := c.bulkDeletes + 1 }
  let (s, all) := s.removeAll keys
  s.reply all

/-- The keys of the jobs in the groups that a matcher selects, in ascending order. -/
def jobKeys (s : Store) (matcher : GroupMatcher) : Effect Store (List Key) :=
  let s := s.count fun c => { c with keyEnumerations := c.keyEnumerations + 1 }
  s.reply (s.jobs.keys.filter fun key => matcher.accepts key.group)

/-- What a call at a given time leads to. An engine that has been shut down takes no calls. -/
def serve (now : Instant) (c : Call) (s : Store) : Effect Store c.Answer :=
  if s.stopped then s.refuse (.unavailable "the scheduler has been shut down")
  else
    match c with
    | .jobExists key => s.hasJob key
    | .triggerExists key => s.hasTrigger key
    | .getJob key => s.getJob key
    | .addJob job replace => s.addJob job replace
    | .getTrigger key => s.getTrigger key
    | .schedule trigger => s.schedule now trigger
    | .reschedule key trigger => s.reschedule now key trigger
    | .deleteJob key => s.deleteJob key
    | .deleteJobs keys => s.deleteJobs keys
    | .jobKeys matcher => s.jobKeys matcher

/-- The engine in memory, all calls being made at one time. -/
def engine (now : Instant) : Engine Store := ⟨serve now⟩

/-! ### Beside the calls -/

/-- Forgets everything that is stored, and the counters. -/
def clear (s : Store) : Store × List Event :=
  ({ s with jobs := ∅, triggers := ∅, counters := {} }, [.engineCleared])

/-- Takes no more calls. -/
def shutDown (s : Store) : Store × List Event := ({ s with stopped := true }, [.engineStopped])

end JobRoster.Store
