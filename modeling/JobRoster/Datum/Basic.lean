import JobRoster.Number.Layout
import JobRoster.Text.Quoted

/-!
# Data values

The values that payloads hold and that typed values are read from: nothing, truth values, integers of 64 bits,
finite binary64 numbers, texts, lists and records. An integer is never equal to a number with a point, and the two
zeros of the latter are equal. The fields of a record stand in ascending order of their names, each name once;
`Datum.ofFields` puts them so.
-/

namespace JobRoster

/-- A data value. -/
inductive Datum where
  /-- Nothing. -/
  | null
  /-- A truth value. -/
  | boolean (b : Bool)
  /-- An integer. -/
  | integer (i : Int)
  /-- A number with a point or an exponent. -/
  | real (x : Binary64)
  /-- A text. -/
  | text (s : String)
  /-- A list of values. -/
  | list (items : List Datum)
  /-- A record, given by its fields. -/
  | record (fields : List (String × Datum))
  deriving Inhabited

namespace Datum

mutual

/-- Equality of values. -/
def same : Datum → Datum → Bool
  | .null, .null => true
  | .boolean a, .boolean b => a == b
  | .integer a, .integer b => a == b
  | .real x, .real y => x.same y
  | .text s, .text t => s == t
  | .list xs, .list ys => sameItems xs ys
  | .record fs, .record gs => sameFields fs gs
  | _, _ => false

/-- Equality of lists of values, item by item. -/
def sameItems : List Datum → List Datum → Bool
  | [], [] => true
  | x :: xs, y :: ys => same x y && sameItems xs ys
  | _, _ => false

/-- Equality of lists of fields, field by field. -/
def sameFields : List (String × Datum) → List (String × Datum) → Bool
  | [], [] => true
  | (k, x) :: fs, (l, y) :: gs => k == l && same x y && sameFields fs gs
  | _, _ => false

end

/-- Fields in ascending order of names, with one more of them; it takes the place of a field of its name. -/
def insertField (name : String) (value : Datum) : List (String × Datum) → List (String × Datum)
  | [] => [(name, value)]
  | (k, v) :: rest =>
    if name < k then (name, value) :: (k, v) :: rest
    else if name = k then (name, value) :: rest
    else (k, v) :: insertField name value rest

/-- The record with the given fields, the last of those with one name deciding. -/
def ofFields (fields : List (String × Datum)) : Datum :=
  .record (fields.foldl (fun acc f => insertField f.1 f.2 acc) [])

/-- The value of a field of a list of fields. -/
def lookUp? (name : String) (fields : List (String × Datum)) : Option Datum := fields.lookup name

/-- The value of a field of a record. -/
def field? (name : String) : Datum → Option Datum
  | .record fields => lookUp? name fields
  | _ => none

/-- The least integer of 64 bits. -/
def minInteger : Int := -9223372036854775808

/-- The greatest signed integer of 64 bits. -/
def maxSigned : Int := 9223372036854775807

/-- What a value is called in messages about a value of the wrong kind. -/
def describe : Datum → String
  | .null => "null"
  | .boolean b => s!"boolean `{b}`"
  | .integer i => s!"integer `{i}`"
  | .real x => s!"floating point `{Layout.data.write x}`"
  | .text s => "string " ++ Text.quoted s
  | .list _ => "sequence"
  | .record _ => "map"

end Datum

end JobRoster
