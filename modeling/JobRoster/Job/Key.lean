import JobRoster.Datum.Codec
import Std.Data.ExtTreeMap

/-!
# Keys

A job is identified by its name within a group, and so is a trigger. Keys are ordered by name and then by group,
each by code points.
-/

namespace JobRoster

/-- The identity of a job or of a trigger. -/
structure Key where
  /-- The name, which is unique within the group. -/
  name : String
  /-- The group. -/
  group : String
  deriving DecidableEq, Repr

namespace Key

instance : Ord Key := ⟨compareLex (compareOn Key.name) (compareOn Key.group)⟩

instance : Std.TransOrd Key := inferInstanceAs (Std.TransCmp (compareLex (compareOn Key.name) (compareOn Key.group)))

instance : Std.LawfulEqOrd Key where
  eq_of_compare {a b} h := by
    have h' : compareLex (compareOn Key.name) (compareOn Key.group) a b = .eq := h
    simp only [compareLex_eq_eq, compareOn] at h'
    cases a; cases b
    simpa using h'

instance : Inhabited Key := ⟨⟨"", ""⟩⟩

/-- A key in one word: the group, a point, and the name. -/
def display (k : Key) : String := k.group ++ "." ++ k.name

/-- The fields of a key. -/
def shape : Shape Key :=
  ((Shape.single (.required "name" .text)).both (.single (.required "group" .text))).as
    (fun (name, group) => ⟨name, group⟩) (fun k => (k.name, k.group))

/-- Keys of jobs as data. -/
def jobCodec : Codec Key := shape.codec "JobKey"

/-- Keys of triggers as data. -/
def triggerCodec : Codec Key := shape.codec "TriggerKey"

end Key

/-- Values found by key, in ascending order of keys. -/
abbrev Table (α : Type) := Std.ExtTreeMap Key α

end JobRoster
