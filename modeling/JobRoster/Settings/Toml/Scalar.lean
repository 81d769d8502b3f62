import JobRoster.Datum.Basic
import JobRoster.Instant.Date
import JobRoster.Text.Digits

/-!
# Scalars of settings files

The readers of quoted texts, numbers, truth values and points in time of the format TOML 1.0. A reader takes its
value off the front of a text, or has no result; which fault a text has is not told.

Of a number with a point or an exponent nothing but that it is one is kept, since no setting is such a number. A point
in time becomes a record with a single field, whose name no setting has.
-/

namespace JobRoster.Settings.Toml

/-- Spaces and tabs. -/
def isBlank (c : Char) : Bool := c = ' ' || c = '\t'

/-- The text after the blanks at its front. -/
def skipBlanks (cs : List Char) : List Char := cs.dropWhile isBlank

/-- The characters other than line ends that may stand in a comment or between quotes. -/
def isPrintable (c : Char) : Bool := c = '\t' || (0x20 ≤ c.toNat && c.toNat ≠ 0x7F)

/-- The text after the line end at its front. -/
def lineEnd? : List Char → Option (List Char)
  | '\n' :: rest => some rest
  | '\r' :: '\n' :: rest => some rest
  | _ => none

/-- The text after a given word at its front. -/
def word? (word cs : List Char) : Option (List Char) :=
  if word.isPrefixOf cs then some (cs.drop word.length) else none

/-! ### Quoted texts -/

/-- The hexadecimal digits. -/
def isHexDigit (c : Char) : Bool := (Text.digitValue? c).isSome

/-- The character whose number is given by some hexadecimal digits. -/
def charOfHex? (digits : List Char) : Option Char :=
  let n := Text.numberOf 16 digits
  if digits.all isHexDigit && n.isValidChar then some (Char.ofNat n) else none

/-- The character of an escape, from the character after the backslash on. -/
def escape? : List Char → Option (Char × List Char)
  | 'b' :: rest => some ('\x08', rest)
  | 't' :: rest => some ('\t', rest)
  | 'n' :: rest => some ('\n', rest)
  | 'f' :: rest => some ('\x0c', rest)
  | 'r' :: rest => some ('\r', rest)
  | '"' :: rest => some ('"', rest)
  | '\\' :: rest => some ('\\', rest)
  | 'u' :: rest =>
    if rest.length < 4 then none else (charOfHex? (rest.take 4)).map fun c => (c, rest.drop 4)
  | 'U' :: rest =>
    if rest.length < 8 then none else (charOfHex? (rest.take 8)).map fun c => (c, rest.drop 8)
  | _ => none

/-- A text in double quotes on one line, from the character after its first quote on. -/
def basic? (cs : List Char) : Option (List Char × List Char) :=
  match cs with
  | [] => none
  | '"' :: rest => some ([], rest)
  | '\\' :: rest =>
    match escape? rest with
    | none => none
    | some (c, after) =>
      if _h : after.length ≤ rest.length then (basic? after).map fun (s, last) => (c :: s, last) else none
  | c :: rest => if isPrintable c then (basic? rest).map fun (s, last) => (c :: s, last) else none
termination_by cs.length

/-- A text in single quotes on one line, from the character after its first quote on. -/
def literal? : List Char → Option (List Char × List Char)
  | [] => none
  | '\'' :: rest => some ([], rest)
  | c :: rest => if isPrintable c then (literal? rest).map fun (s, last) => (c :: s, last) else none

/-- The text after blanks and line ends. -/
def skipBlankLines : List Char → List Char
  | ' ' :: rest => skipBlankLines rest
  | '\t' :: rest => skipBlankLines rest
  | '\n' :: rest => skipBlankLines rest
  | '\r' :: '\n' :: rest => skipBlankLines rest
  | cs => cs

/-- The end of a text over several lines: a run of quotes at least three long ends the text, and up to two of them
still belong to it. -/
def closing? (quote : Char) (cs : List Char) : Option (List Char × List Char) :=
  let run := cs.takeWhile (· = quote)
  if 3 ≤ run.length ∧ run.length ≤ 5 then some (List.replicate (run.length - 3) quote, cs.drop run.length) else none

/-- A text in three double quotes over several lines, from the character after the quotes on. Each line end becomes a
line feed. A backslash at the end of a line takes away all blanks and line ends that follow. -/
def basicLines? (cs : List Char) : Option (List Char × List Char) :=
  match cs with
  | [] => none
  | '"' :: '"' :: '"' :: rest => closing? '"' ('"' :: '"' :: '"' :: rest)
  | '\r' :: '\n' :: rest => (basicLines? rest).map fun (s, last) => ('\n' :: s, last)
  | '\n' :: rest => (basicLines? rest).map fun (s, last) => ('\n' :: s, last)
  | '\\' :: rest =>
    match lineEnd? (skipBlanks rest) with
    | some after =>
      if _h : (skipBlankLines after).length ≤ rest.length then basicLines? (skipBlankLines after) else none
    | none =>
      match escape? rest with
      | none => none
      | some (c, after) =>
        if _h : after.length ≤ rest.length then (basicLines? after).map fun (s, last) => (c :: s, last) else none
  | c :: rest => if isPrintable c then (basicLines? rest).map fun (s, last) => (c :: s, last) else none
termination_by cs.length

/-- A text in three single quotes over several lines, from the character after the quotes on. -/
def literalLines? : List Char → Option (List Char × List Char)
  | [] => none
  | '\'' :: '\'' :: '\'' :: rest => closing? '\'' ('\'' :: '\'' :: '\'' :: rest)
  | '\r' :: '\n' :: rest => (literalLines? rest).map fun (s, last) => ('\n' :: s, last)
  | '\n' :: rest => (literalLines? rest).map fun (s, last) => ('\n' :: s, last)
  | c :: rest => if isPrintable c then (literalLines? rest).map fun (s, last) => (c :: s, last) else none

/-- The text after one line end at its front, if there is one. -/
def dropLineEnd (cs : List Char) : List Char := (lineEnd? cs).getD cs

/-- A quoted text of any kind. -/
def quoted? : List Char → Option (List Char × List Char)
  | '"' :: '"' :: '"' :: rest => basicLines? (dropLineEnd rest)
  | '"' :: rest => basic? rest
  | '\'' :: '\'' :: '\'' :: rest => literalLines? (dropLineEnd rest)
  | '\'' :: rest => literal? rest
  | _ => none

/-! ### Numbers -/

/-- Digits of a class, at least one, single underscores between them being left out. -/
def digits? (isDigit : Char → Bool) (cs : List Char) : Option (List Char × List Char) :=
  if (cs.takeWhile isDigit).isEmpty then none
  else
    match _h : cs.dropWhile isDigit with
    | '_' :: next => (digits? isDigit next).map fun (ds, last) => (cs.takeWhile isDigit ++ ds, last)
    | rest => some (cs.takeWhile isDigit, rest)
termination_by cs.length
decreasing_by
  have := (List.dropWhile_suffix (l := cs) isDigit).length_le
  simp_all only [List.length_cons]
  omega

/-- A sign, if there is one; whether it is minus. -/
def sign : List Char → Bool × List Char
  | '-' :: rest => (true, rest)
  | '+' :: rest => (false, rest)
  | cs => (false, cs)

/-- Decimal digits without a zero in front of others. -/
def whole? (cs : List Char) : Option (List Char × List Char) :=
  match cs with
  | '0' :: rest => some (['0'], rest)
  | cs => digits? Char.isDigit cs

/-- An integer, if it is one of 64 bits. -/
def integer? (cs : List Char) : Option (Datum × List Char) :=
  match cs with
  | '0' :: 'x' :: rest => (digits? isHexDigit rest).bind (unsigned 16)
  | '0' :: 'o' :: rest => (digits? (fun c => '0' ≤ c && c ≤ '7') rest).bind (unsigned 8)
  | '0' :: 'b' :: rest => (digits? (fun c => c = '0' || c = '1') rest).bind (unsigned 2)
  | cs =>
    let (negative, rest) := sign cs
    match whole? rest with
    | none => none
    | some (digits, last) =>
      let n : Int := if negative then -(Text.numberOf 10 digits : Int) else Text.numberOf 10 digits
      if Datum.minInteger ≤ n ∧ n ≤ Datum.maxSigned then some (.integer n, last) else none
where
  /-- The integer that digits to a base stand for. -/
  unsigned (base : Nat) : List Char × List Char → Option (Datum × List Char) := fun (digits, last) =>
    if (Text.numberOf base digits : Int) ≤ Datum.maxSigned then some (.integer (Text.numberOf base digits), last) else none

/-- Whether the numeral `digits * 10 ^ exponent` is nearest to a finite number. -/
def isFinite (digits : Nat) (exponent : Int) : Bool :=
  let size : Int := (Nat.toDigits 10 digits).length + exponent
  if digits = 0 || size < 0 then true
  else if 400 < size then false
  else if 0 ≤ exponent then (Binary64.ofRatio? false (digits * Nat.pow 10 exponent.toNat) 1).isSome
  else (Binary64.ofRatio? false digits (Nat.pow 10 (-exponent).toNat)).isSome

/-- The exponent of a number, from its letter on. -/
def exponent? : List Char → Option (Int × List Char)
  | c :: rest =>
    if c = 'e' || c = 'E' then
      let (negative, rest) := sign rest
      (digits? Char.isDigit rest).map fun (ds, last) =>
        (if negative then -(Text.numberOf 10 ds : Int) else Text.numberOf 10 ds, last)
    else none
  | [] => none

/-- A number with a point or an exponent, or one that is not finite. A positive number that is too great to be finite
is refused. -/
def float? (cs : List Char) : Option (Datum × List Char) := do
  let (negative, start) := sign cs
  match (word? "inf".toList start).or (word? "nan".toList start) with
  | some rest => some (.real .zero, rest)
  | none =>
    let (digits, rest) ← whole? start
    let (fraction, rest) ← match rest with
      | '.' :: rest => digits? Char.isDigit rest
      | rest => if (exponent? rest).isSome then some ([], rest) else none
    let (power, rest) ← match rest with
      | c :: _ => if c = 'e' || c = 'E' then exponent? rest else some (0, rest)
      | [] => some (0, rest)
    if negative || isFinite (Text.numberOf 10 (digits ++ fraction)) (power - fraction.length) then
      some (.real .zero, rest)
    else none

/-! ### Points in time -/

/-- A number of a fixed count of digits, between two bounds. -/
def part? (count low high : Nat) (cs : List Char) : Option (Nat × List Char) :=
  let ds := cs.take count
  if ds.length = count ∧ ds.all Char.isDigit ∧ low ≤ Text.numberOf 10 ds ∧ Text.numberOf 10 ds ≤ high then
    some (Text.numberOf 10 ds, cs.drop count)
  else none

/-- A calendar date that exists. -/
def date? (cs : List Char) : Option (List Char) := do
  let (year, rest) ← part? 4 0 9999 cs
  let rest ← word? ['-'] rest
  let (month, rest) ← part? 2 1 12 rest
  let rest ← word? ['-'] rest
  let (day, rest) ← part? 2 1 31 rest
  if day ≤ Date.daysInMonth year month then some rest else none

/-- A time of day. -/
def time? (cs : List Char) : Option (List Char) := do
  let (_, rest) ← part? 2 0 23 cs
  let rest ← word? [':'] rest
  let (_, rest) ← part? 2 0 59 rest
  let rest ← word? [':'] rest
  let (_, rest) ← part? 2 0 60 rest
  match rest with
  | '.' :: more =>
    let after := more.dropWhile Char.isDigit
    if after.length < more.length then some after else none
  | rest => some rest

/-- An offset from universal time. -/
def offset? (cs : List Char) : Option (List Char) :=
  match cs with
  | c :: rest =>
    if c = 'Z' || c = 'z' then some rest
    else if c = '+' || c = '-' then do
      let (_, rest) ← part? 2 0 23 rest
      let rest ← word? [':'] rest
      let (_, rest) ← part? 2 0 59 rest
      some rest
    else none
  | [] => none

/-- A date with or without a time of day and an offset, or a time of day. -/
def moment? (cs : List Char) : Option (Datum × List Char) :=
  match date? cs with
  | some rest =>
    match rest with
    | c :: more =>
      if c = 'T' || c = 't' || c = ' ' then
        match time? more with
        | some after => some (found ((offset? after).getD after))
        | none => some (found rest)
      else some (found rest)
    | [] => some (found rest)
  | none => (time? cs).map found
where
  /-- The record that stands for the point in time before the given rest. -/
  found (rest : List Char) : Datum × List Char :=
    (.record [("$moment", .text (String.ofList (cs.take (cs.length - rest.length))))], rest)

/-- A value that is no list and no table. -/
def scalar? (cs : List Char) : Option (Datum × List Char) :=
  ((quoted? cs).map fun (s, rest) => (.text (String.ofList s), rest))
    <|> ((word? "true".toList cs).map fun rest => (.boolean true, rest))
    <|> ((word? "false".toList cs).map fun rest => (.boolean false, rest))
    <|> moment? cs <|> float? cs <|> integer? cs

end JobRoster.Settings.Toml
