import JobRoster.Settings.Toml.Scalar
import JobRoster.Settings.Toml.Table

/-!
# Settings files

A whole file in the format TOML 1.0: lines with headers, with definitions, or with nothing but blanks and a comment.
Lists and tables within a value may be nested 79 deep, and a name may have 79 parts.
-/

namespace JobRoster.Settings.Toml

/-! ### Blanks, comments and names -/

/-- The text after a comment, if one starts there, up to the line end. -/
def skipComment (cs : List Char) : List Char :=
  match cs with
  | '#' :: rest => rest.dropWhile isPrintable
  | cs => cs

/-- The text after the end of a line, before which blanks and a comment may stand. The end of the file ends a line. -/
def restOfLine? (cs : List Char) : Option (List Char) :=
  match skipComment (skipBlanks cs) with
  | [] => some []
  | rest => lineEnd? rest

/-- The text after blanks, line ends and comments with their line ends. -/
def skipLines (cs : List Char) : List Char :=
  match skipBlankLines cs with
  | '#' :: rest =>
    match lineEnd? (rest.dropWhile isPrintable) with
    | some next => if _h : next.length < cs.length then skipLines next else next
    | none => '#' :: rest
  | rest => rest
termination_by cs.length

/-- The characters of a name without quotes. -/
def isBare (c : Char) : Bool := c.isAlphanum || c = '_' || c = '-'

/-- One part of a name. -/
def simpleName? : List Char → Option (String × List Char)
  | '"' :: rest => (basic? rest).map fun (s, last) => (String.ofList s, last)
  | '\'' :: rest => (literal? rest).map fun (s, last) => (String.ofList s, last)
  | cs =>
    let word := cs.takeWhile isBare
    if word.isEmpty then none else some (String.ofList word, cs.dropWhile isBare)

/-- Parts of a name with points between them, and blanks around each part. -/
def nameParts? (cs : List Char) : Option (List String × List Char) :=
  match simpleName? (skipBlanks cs) with
  | none => none
  | some (part, rest) =>
    match skipBlanks rest with
    | '.' :: next =>
      if _h : next.length < cs.length then (nameParts? next).map fun (parts, last) => (part :: parts, last) else none
    | last => some ([part], last)
termination_by cs.length

/-- The greatest depth to which lists, tables and names may be nested, and one more. -/
def depthLimit : Nat := 80

/-- A name, whose parts are not too many. -/
def name? (cs : List Char) : Option (List String × List Char) :=
  (nameParts? cs).filter fun (parts, _) => parts.length < depthLimit

/-- A name as the path to a table and the last part. -/
def splitName (parts : List String) : List String × String := (parts.dropLast, parts.getLast?.getD "")

/-! ### Values -/

/-- The items of a list up to its end, given how a value is read. -/
def items? (value : List Char → Option (Datum × List Char)) (cs : List Char) : Option (List Datum × List Char) :=
  match skipLines cs with
  | ']' :: rest => some ([], rest)
  | start =>
    match value start with
    | none => none
    | some (d, rest) =>
      match skipLines rest with
      | ']' :: last => some ([d], last)
      | ',' :: next =>
        if _h : next.length < cs.length then (items? value next).map fun (ds, last) => (d :: ds, last) else none
      | _ => none
termination_by cs.length

/-- The definitions of a table within a value up to its end, given how a value is read; the text starts at a name. -/
def pairs? (value : List Char → Option (Datum × List Char)) (cs : List Char) (es : Entries) :
    Option (Entries × List Char) := do
  let (parts, rest) ← name? cs
  let rest ← word? ['='] rest
  let (d, rest) ← value (skipBlanks rest)
  let (path, name) := splitName parts
  let es ← es.define path name (.value d) .header
  match skipBlanks rest with
  | '\x7d' :: last => some (es, last)
  | ',' :: next => if _h : next.length < cs.length then pairs? value next es else none
  | _ => none
termination_by cs.length

/-- A value with fewer than `depth` levels of lists and tables. -/
def value? (depth : Nat) (cs : List Char) : Option (Datum × List Char) :=
  match depth with
  | 0 => scalar? cs
  | depth + 1 =>
    match cs with
    | '[' :: rest => if depth = 0 then none else (items? (value? depth) rest).map fun (ds, last) => (.list ds, last)
    | '\x7b' :: rest =>
      if depth = 0 then none
      else
        match skipBlanks rest with
        | '\x7d' :: last => some (.record [], last)
        | start => (pairs? (value? depth) start []).map fun (es, last) => ((Node.table .header es).toDatum, last)
    | cs => scalar? cs

/-! ### Lines -/

/-- A file as far as it has been read: its tables, and the path to the one that was opened last. -/
structure Progress where
  /-- The entries of the outermost table. -/
  entries : Entries
  /-- The path of the last header. -/
  header : List String

/-- The line with a header, from its first bracket on. -/
def headerLine? (p : Progress) (cs : List Char) : Option (Progress × List Char) :=
  match cs with
  | '[' :: '[' :: rest => do
    let (parts, rest) ← name? rest
    let rest ← word? [']', ']'] rest
    let rest ← restOfLine? rest
    let (path, name) := splitName parts
    return (⟨← p.entries.openItem path name, parts⟩, rest)
  | '[' :: rest => do
    let (parts, rest) ← name? rest
    let rest ← word? [']'] rest
    let rest ← restOfLine? rest
    let (path, name) := splitName parts
    return (⟨← p.entries.openTable path name, parts⟩, rest)
  | _ => none

/-- The line with a definition. -/
def definitionLine? (p : Progress) (cs : List Char) : Option (Progress × List Char) := do
  let (parts, rest) ← name? cs
  let rest ← word? ['='] rest
  let (d, rest) ← value? depthLimit (skipBlanks rest)
  let rest ← restOfLine? rest
  let (path, name) := splitName parts
  return ({ p with entries := ← p.entries.defineIn p.header path name (.value d) }, rest)

/-- The lines of a file. -/
def lines? (p : Progress) (cs : List Char) : Option Entries :=
  match skipBlanks cs with
  | [] => some p.entries
  | c :: rest =>
    let next :=
      if c = '#' then (restOfLine? (c :: rest)).map fun after => (p, after)
      else if c = '\n' || c = '\r' then (lineEnd? (c :: rest)).map fun after => (p, after)
      else if c = '[' then headerLine? p (c :: rest)
      else definitionLine? p (c :: rest)
    match next with
    | none => none
    | some (p, after) => if _h : after.length < cs.length then lines? p after else none
termination_by cs.length

/-- The text after a byte order mark, if there is one. -/
def dropMark : List Char → List Char
  | '\uFEFF' :: rest => rest
  | cs => cs

/-- The data in a file, if it is well formed. -/
def read? (text : String) : Option Datum :=
  (lines? ⟨[], []⟩ (dropMark text.toList)).map fun es => (Node.table .header es).toDatum

end JobRoster.Settings.Toml
