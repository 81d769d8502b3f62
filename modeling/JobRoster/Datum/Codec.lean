import JobRoster.Datum.Basic
import JobRoster.Instant.Printer
import JobRoster.Instant.Reader

/-!
# Typed values as data

A codec writes the values of a type as data and reads them back. Codecs of records are put together from fields:
a record is read from a record of data, its fields found by name and other fields ignored, or from a list, its
fields being the items in declared order. A field may have a default for when it is absent.

When a record of data holds several bad fields, the first of them in the order of names decides the message; a
missing field is only noticed when all that are present are good, and then the first in declared order counts.
-/

namespace JobRoster

/-- Why data cannot be read as a value of a type. -/
inductive Mismatch where
  /-- A value of the wrong kind. -/
  | wrongKind (found expected : String)
  /-- A value of the right kind that is out of bounds. -/
  | wrongValue (found expected : String)
  /-- A list of the wrong length. -/
  | wrongLength (length : Nat) (expected : String)
  /-- A field is absent. -/
  | missingField (name : String)
  /-- A choice that is not offered. -/
  | unknownVariant (name : String) (known : List String)
  /-- A text that is no moment. -/
  | badMoment (fault : TimeFault)
  deriving DecidableEq, Repr

namespace Mismatch

/-- The choices that are offered, in words. -/
def describeKnown (known : List String) : String :=
  let marked := known.map fun name => s!"`{name}`"
  match marked with
  | [a] => a
  | [a, b] => s!"{a} or {b}"
  | _ => "one of " ++ ", ".intercalate marked

/-- The text of a mismatch. -/
def message : Mismatch → String
  | wrongKind found expected => s!"invalid type: {found}, expected {expected}"
  | wrongValue found expected => s!"invalid value: {found}, expected {expected}"
  | wrongLength n expected => s!"invalid length {n}, expected {expected}"
  | missingField name => s!"missing field `{name}`"
  | unknownVariant name known => s!"unknown variant `{name}`, expected {describeKnown known}"
  | badMoment fault => fault.message

end Mismatch

/-- Where data come from decides two things about reading them. -/
structure Dialect where
  /-- Whether a value is the content of a choice that has no content. -/
  isUnit : Datum → Bool
  /-- Whether a list may hold more items than a record has fields. -/
  extraItems : Bool

/-- Data as such: a choice without content contains null. -/
def Dialect.data : Dialect where
  isUnit | .null => true | _ => false
  extraItems := false

/-- Settings files: a choice without content contains an empty table or an empty list. -/
def Dialect.settings : Dialect where
  isUnit | .record [] => true | .list [] => true | _ => false
  extraItems := true

/-- A writer of the values of a type as data, and a reader. -/
structure Codec (α : Type) where
  /-- A value as data. -/
  write : α → Datum
  /-- The value that data stand for. -/
  read : Dialect → Datum → Except Mismatch α

/-- A codec whose reader gives back what its writer is given. -/
def Codec.Lawful {α : Type} (c : Codec α) (dialect : Dialect) : Prop :=
  ∀ a, c.read dialect (c.write a) = .ok a

/-- The mismatch of a value of the wrong kind. -/
def Datum.refuse {α : Type} (d : Datum) (expected : String) : Except Mismatch α :=
  .error (.wrongKind d.describe expected)

namespace Codec

/-- Texts. -/
def text : Codec String where
  write := .text
  read _
    | .text s => .ok s
    | d => d.refuse "a string"

/-- Truth values. -/
def boolean : Codec Bool where
  write := .boolean
  read _
    | .boolean b => .ok b
    | d => d.refuse "a boolean"

/-- Signed integers of 64 bits. -/
def signed : Codec Int64 where
  write i := .integer i.toInt
  read _
    | .integer i =>
      if Datum.minInteger ≤ i ∧ i ≤ Datum.maxSigned then .ok (Int64.ofInt i)
      else .error (.wrongValue (Datum.integer i).describe "i64")
    | d => d.refuse "i64"

/-- Moments. -/
def moment : Codec Instant where
  write t := .text t.write
  read _
    | .text s => (Instant.read s).mapError .badMoment
    | d => d.refuse "an RFC 3339 formatted date and time string"

/-- Values that may be absent; null stands for an absent one. -/
def optional {α : Type} (c : Codec α) : Codec (Option α) where
  write
    | some a => c.write a
    | none => .null
  read dialect
    | .null => .ok none
    | d => (c.read dialect d).map some

/-- The value with a name, of a type with a fixed list of values. -/
def pick {α : Type} (all : List α) (name : α → String) (s : String) : Except Mismatch α :=
  match all.find? fun a => name a = s with
  | some a => .ok a
  | none => .error (.unknownVariant s (all.map name))

/-- The value whose name the data are; only a text is a name. -/
def readName {α : Type} (all : List α) (name : α → String) : Datum → Except Mismatch α
  | .text s => pick all name s
  | d => d.refuse "variant identifier"

/-- Values of a type with a fixed list of them, each written as its name. A record with the name as its only field and
no content in it is read as well. -/
def choice {α : Type} (all : List α) (name : α → String) : Codec α where
  write a := .text (name a)
  read dialect
    | .text s => pick all name s
    | .record [(s, content)] => do
      let a ← pick all name s
      if dialect.isUnit content then .ok a else content.refuse "unit"
    | .record _ => .error (.wrongValue "map" "map with a single key")
    | d => d.refuse "string or map"

end Codec

/-- A field of a record. -/
structure RecordField (α : Type) where
  /-- The name of the field. -/
  name : String
  /-- The codec of its values. -/
  codec : Codec α
  /-- What stands for a field that a record of data does not have. -/
  absent : Option α
  /-- What stands for a field that a list of data is too short for. -/
  beyond : Option α

namespace RecordField

/-- A field that has to be there. -/
def required {α : Type} (name : String) (codec : Codec α) : RecordField α := ⟨name, codec, none, none⟩

/-- A field with a default. -/
def defaulted {α : Type} (name : String) (codec : Codec α) (value : α) : RecordField α :=
  ⟨name, codec, some value, some value⟩

/-- A field that may be absent from a record, but not from a list. -/
def nullable {α : Type} (name : String) (codec : Codec α) : RecordField (Option α) :=
  ⟨name, codec.optional, some none, none⟩

end RecordField

/-- The fields of a record, and how its values are made up of theirs. -/
structure Shape (α : Type) where
  /-- The names of the fields in declared order. -/
  names : List String
  /-- What is wrong with the value of a field, given the name of the field. -/
  fault : Dialect → String → Datum → Option Mismatch
  /-- The record with the given fields. -/
  ofFields : Dialect → List (String × Datum) → Except Mismatch α
  /-- The record with the given items from an index on, and the items left over. A list that ends too early is
  reported with the index at which it ends. -/
  ofItems : Dialect → String → Nat → List Datum → Except Mismatch (α × List Datum)
  /-- The fields of a record in declared order. -/
  fields : α → List (String × Datum)

namespace Shape

/-- The record with one field. -/
def single {α : Type} (f : RecordField α) : Shape α where
  names := [f.name]
  fault dialect name d :=
    if name = f.name then
      match f.codec.read dialect d with
      | .ok _ => none
      | .error m => some m
    else none
  ofFields dialect fields :=
    match Datum.lookUp? f.name fields, f.absent with
    | some d, _ => f.codec.read dialect d
    | none, some a => .ok a
    | none, none => .error (.missingField f.name)
  ofItems dialect expected index
    | d :: rest => (f.codec.read dialect d).map fun a => (a, rest)
    | [] =>
      match f.beyond with
      | some a => .ok (a, [])
      | none => .error (.wrongLength index expected)
  fields a := [(f.name, f.codec.write a)]

/-- The fields of one record followed by those of another. -/
def both {α β : Type} (s : Shape α) (t : Shape β) : Shape (α × β) where
  names := s.names ++ t.names
  fault dialect name d := (s.fault dialect name d).or (t.fault dialect name d)
  ofFields dialect fields := do
    let a ← s.ofFields dialect fields
    let b ← t.ofFields dialect fields
    return (a, b)
  ofItems dialect expected index items := do
    let (a, rest) ← s.ofItems dialect expected index items
    let (b, rest) ← t.ofItems dialect expected (index + s.names.length) rest
    return ((a, b), rest)
  fields p := s.fields p.1 ++ t.fields p.2

/-- The same record as a value of another type. -/
def as {α β : Type} (s : Shape α) (make : α → β) (split : β → α) : Shape β where
  names := s.names
  fault := s.fault
  ofFields dialect fields := (s.ofFields dialect fields).map make
  ofItems dialect expected index items :=
    (s.ofItems dialect expected index items).map fun (a, rest) => (make a, rest)
  fields b := s.fields (split b)

/-- The codec of a record that is called `label` in messages. -/
def codec {α : Type} (s : Shape α) (label : String) : Codec α where
  write a := Datum.ofFields (s.fields a)
  read dialect
    | .record fields =>
      match fields.findSome? fun f => s.fault dialect f.1 f.2 with
      | some m => .error m
      | none => s.ofFields dialect fields
    | .list items => do
      let (a, rest) ← s.ofItems dialect s!"struct {label} with {s.names.length} elements" 0 items
      if rest.isEmpty || dialect.extraItems then .ok a
      else .error (.wrongLength items.length "fewer elements in array")
    | d => d.refuse s!"struct {label}"

end Shape

end JobRoster
