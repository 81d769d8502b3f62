import JobRoster.Datum.Basic

/-!
# Data values as JSON text

A value is written without blanks. A number with a point always has a point or an exponent, and an integer never
has either, so that the two kinds are told apart when read.
-/

namespace JobRoster.Datum.Json

/-- One character of a text as it is written. -/
def writeChar (c : Char) : List Char :=
  if c = '"' || c = '\\' then ['\\', c]
  else if c = '\x08' then ['\\', 'b']
  else if c = '\x0c' then ['\\', 'f']
  else if c = '\n' then ['\\', 'n']
  else if c = '\r' then ['\\', 'r']
  else if c = '\t' then ['\\', 't']
  else if c.toNat < 0x20 then
    ['\\', 'u', '0', '0', Nat.digitChar (c.toNat / 16), Nat.digitChar (c.toNat % 16)]
  else [c]

/-- A text between quotes. -/
def writeText (s : String) : List Char := ['"'] ++ s.toList.flatMap writeChar ++ ['"']

/-- Parts with commas between them. -/
def joinWithCommas : List (List Char) → List Char
  | [] => []
  | [part] => part
  | part :: parts => part ++ [','] ++ joinWithCommas parts

mutual

/-- A value as text. -/
def write : Datum → List Char
  | .null => "null".toList
  | .boolean b => (if b then "true" else "false").toList
  | .integer i => (toString i).toList
  | .real x => (Layout.data.write x).toList
  | .text s => writeText s
  | .list items => ['['] ++ joinWithCommas (writeItems items) ++ [']']
  | .record fields => ['\x7b'] ++ joinWithCommas (writeFields fields) ++ ['\x7d']

/-- The items of a list as texts. -/
def writeItems : List Datum → List (List Char)
  | [] => []
  | item :: items => write item :: writeItems items

/-- The fields of a record as texts. -/
def writeFields : List (String × Datum) → List (List Char)
  | [] => []
  | (name, value) :: fields => (writeText name ++ [':'] ++ write value) :: writeFields fields

end

/-- A value as a text. -/
def print (d : Datum) : String := String.ofList (write d)

end JobRoster.Datum.Json
