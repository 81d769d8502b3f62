import JobRoster.Engine.Program

/-!
# Deletions

A job is deleted by its key, and jobs are deleted by group. A deletion ends with true when nothing that was to
be deleted is left, also when there was nothing; an error ends it with false.
-/

namespace JobRoster.Deletion

open Attempt

/-- Deletes a job if it is there. -/
def one (key : Key) : Attempt Bool := do
  if ← call (.jobExists key) then
    report (.deletingJob key)
    call (.deleteJob key)
  else return true

/-- Deletes the jobs in the groups that a matcher selects, if there are any. -/
def groups (matcher : GroupMatcher) : Attempt Bool := do
  let keys ← call (.jobKeys matcher)
  if keys.isEmpty then return true
  else
    report (.deletingJobs keys.length matcher)
    call (.deleteJobs keys)

/-- Ends with false on an error, which is reported. -/
def orFalse (attempt : Attempt Bool) (failed : String → Event) : Program Bool := do
  match ← attempt.run with
  | .ok b => return b
  | .error e => Program.note (failed e.message) (.done false)

/-- Deletes the job with a name in a group. -/
def deleteJob (name group : String) : Program Bool :=
  orFalse (one ⟨name, group⟩) (.deletionFailed name)

/-- Deletes the jobs in the groups that a matcher selects, the matcher being made from a group. -/
def deleteGroups (group : String) (matcher : GroupMatcher) : Program Bool :=
  orFalse (groups matcher) (.groupDeletionFailed group)

end JobRoster.Deletion
