import JobRoster.Datum.Codec

/-!
# Names of jobs and groups

The jobs of a schedule and the groups of a project are named after their ids: a stem, an underscore, and the id in
plain notation. The names are part of what is stored, so other stems make older jobs unreachable.
-/

namespace JobRoster

/-- The id of a schedule or of a project. -/
inductive Ident where
  /-- An integer. -/
  | integer (i : Int)
  /-- A number with a point. -/
  | real (x : Binary64)
  /-- A truth value. -/
  | boolean (b : Bool)
  /-- A text. -/
  | text (s : String)
  deriving DecidableEq

namespace Ident

/-- An id in plain notation. -/
def plain : Ident → String
  | integer i => toString i
  | real x => Layout.plain.write x
  | boolean b => if b then "true" else "false"
  | text s => s

/-- The id that data stand for. -/
def ofDatum? : Datum → Option Ident
  | .integer i => some (integer i)
  | .real x => some (real x)
  | .boolean b => some (boolean b)
  | .text s => some (text s)
  | _ => none

end Ident

/-- The stems of names. -/
structure Naming where
  /-- The stem of the names of jobs. -/
  jobStem : String
  /-- The stem of the names of groups. -/
  groupStem : String
  deriving DecidableEq, Repr

namespace Naming

/-- The stems when nothing else is set. -/
def standard : Naming := ⟨"job", "jobgroup"⟩

instance : Inhabited Naming := ⟨standard⟩

/-- The name of the job of a schedule. -/
def jobName (n : Naming) (id : Ident) : String := n.jobStem ++ "_" ++ id.plain

/-- The name of the group of a project. -/
def groupName (n : Naming) (id : Ident) : String := n.groupStem ++ "_" ++ id.plain

/-- The stems as data. -/
def codec : Codec Naming :=
  Shape.codec
    (((Shape.single (.defaulted "job_prefix" .text standard.jobStem)).both
      (.single (.defaulted "group_prefix" .text standard.groupStem))).as
      (fun (job, group) => ⟨job, group⟩) (fun n => (n.jobStem, n.groupStem)))
    "NamingConfig"

end Naming

end JobRoster
