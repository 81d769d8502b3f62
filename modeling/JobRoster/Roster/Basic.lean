import JobRoster.MutationLock.Basic
import JobRoster.Roster.Declaration
import JobRoster.Roster.Deletion

/-!
# The roster

A roster takes requests to declare and to delete jobs and carries them out on an engine, each of them holding the
mutation lock for as long as it runs. However a request ends, also when the engine crashes, the lock is let go.
-/

namespace JobRoster

/-- The data of the jobs of a schedule. -/
def standardPayload (project flow schedule : Int64) : Payload :=
  (((∅ : Payload).insert "projectId" (.integer project.toInt)).insert "projectJobId" (.integer flow.toInt)).insert
    "scheduleId" (.integer schedule.toInt)

/-- A roster, as it is set up. -/
structure Roster where
  /-- The stems of names. -/
  naming : Naming
  /-- Which changes exclude each other. -/
  lock : LockStrategy
  /-- Which groups a deletion reaches. -/
  groupMatch : GroupMatch
  deriving DecidableEq, Repr

namespace Roster

/-- The roster with given settings. -/
def ofSettings (s : Settings) : Roster := ⟨s.naming, s.lock, s.groupMatch⟩

/-- The roster when nothing is set. -/
def standard : Roster := ofSettings .standard

instance : Inhabited Roster := ⟨standard⟩

/-- The roster with given settings, which are checked; their warnings are reported. -/
def ofChecked (s : Settings) : Except SettingsError (Roster × List Event) :=
  s.accept.map fun warnings => (ofSettings s, warnings.map .settingsWarning)

/-- The declaration for a schedule of a project, with names and data made from their ids. -/
def scheduleDeclaration (r : Roster) (jobType : String) (project flow schedule : Int64) (cron : String)
    (start : Instant) : Declaration :=
  { jobType
    name := r.naming.jobName (.integer schedule.toInt)
    group := r.naming.groupName (.integer project.toInt)
    cron
    start
    stop := none
    data := some (standardPayload project flow schedule) }

/-- What a roster can be asked for. -/
inductive Request where
  /-- To carry out a declaration. -/
  | register (d : Declaration)
  /-- To delete the job with a name in a group. -/
  | deleteJob (name group : String)
  /-- To delete the jobs of a group, or of all groups whose names end with it. -/
  | deleteGroup (group : String)

/-- What a request ends with. -/
inductive Answer where
  /-- The outcome of a declaration. -/
  | registered (r : Except DeclarationError Outcome)
  /-- Whether a deletion left nothing behind. -/
  | deleted (b : Bool)

/-- The request to delete the jobs of a project. -/
def deleteProject (r : Roster) (project : Ident) : Request := .deleteGroup (r.naming.groupName project)

/-- What a request holds the lock for. -/
def Request.scope : Request → Scope
  | register d => .group d.group
  | deleteJob _ group => .group group
  | deleteGroup _ => .all

/-- The calls that a request makes. -/
def program (r : Roster) : Request → Program Answer
  | .register d => do return .registered (← d.register)
  | .deleteJob name group => do return .deleted (← Deletion.deleteJob name group)
  | .deleteGroup group => do return .deleted (← Deletion.deleteGroups group (r.groupMatch.matcher group))

/-- A roster at work: the memory of its lock, and the state of the engine. -/
structure World (σ : Type) where
  /-- The memory of the lock. -/
  lock : LockState
  /-- The state of the engine. -/
  engine : σ

/-- Carries out a request while nobody else makes one. There is no result when the lock is held, since then the
request waits for ever. -/
def perform {σ : Type} (r : Roster) (engine : Engine σ) (request : Request) (w : World σ) :
    Option (Program.Run (World σ) Answer) := do
  let (guard, lock) ← w.lock.acquire r.lock request.scope
  let run := (r.program request).run engine w.engine
  return ⟨run.result, ⟨lock.release guard, run.state⟩, run.events⟩

/-- The answer to a request that runs in the background, where a crash ends the request alone, and what is
reported. -/
def inBackground : Request → Except Crash Answer → Answer × List Event
  | _, .ok answer => (answer, [])
  | .register _, .error crash => (.registered (.error (.aborted crash.message)), [])
  | _, .error crash => (.deleted false, [.backgroundFailed crash.message])

end Roster

end JobRoster
