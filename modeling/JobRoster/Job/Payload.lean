import JobRoster.Datum.Codec
import Std.Data.ExtTreeMap

/-!
# Payloads

The payload of a job is a table of data values by name. Merging takes over the values of another payload and tells
whether that changed anything, equality being that of data values.
-/

namespace JobRoster

/-- The data that a job carries. -/
abbrev Payload := Std.ExtTreeMap String Datum

namespace Payload

/-- Whether a payload has a given value under a name. -/
def holds (p : Payload) (name : String) (value : Datum) : Bool :=
  match p[name]? with
  | some v => v.same value
  | none => false

/-- A payload with one more entry, and whether that changed it. An entry that is there already stays as it is. -/
def put (p : Payload) (name : String) (value : Datum) : Payload × Bool :=
  if p.holds name value then (p, false) else (p.insert name value, true)

/-- A payload with some more entries, one after another, and whether any of them changed it. -/
def putAll (p : Payload) : List (String × Datum) → Payload × Bool
  | [] => (p, false)
  | (name, value) :: rest =>
    let (p, changed) := p.put name value
    let (p, more) := p.putAll rest
    (p, changed || more)

/-- A payload with the entries of another one taken over, and whether that changed it. -/
def merge (p other : Payload) : Payload × Bool := p.putAll other.toList

/-- Equality of payloads: the same names, with equal values. -/
def same (p q : Payload) : Bool := Datum.sameFields p.toList q.toList

/-- Payloads as data. -/
def codec : Codec Payload where
  write p := .record p.toList
  read _
    | .record fields => .ok (Std.ExtTreeMap.ofList fields)
    | d => d.refuse "a map"

end Payload

end JobRoster
