import JobRoster.Datum.Basic
import JobRoster.Text.Digits

/-!
# Data values from JSON text

The reader goes through a text from left to right and stops at the first fault. A fault is placed by line and
column, the column counted in bytes of UTF-8. It lies right after the first byte of a character that is at fault,
after the four bytes that an escape by number looks at, and else right after what has been read. Lists and records
may be nested 127 deep.
-/

namespace JobRoster.Datum.Json

/-- What is wrong with a text. -/
inductive FaultKind where
  /-- The text ends within a list. -/
  | listEnded
  /-- The text ends within a record. -/
  | recordEnded
  /-- The text ends within a quoted text. -/
  | quotedEnded
  /-- The text ends where a value has to be. -/
  | valueEnded
  /-- No colon after the name of a field. -/
  | noColon
  /-- Neither a comma nor the end of the list after an item. -/
  | noListComma
  /-- Neither a comma nor the end of the record after a field. -/
  | noRecordComma
  /-- A word other than the three that stand for values. -/
  | badWord
  /-- No value where one has to be. -/
  | noValue
  /-- An unknown escape. -/
  | badEscape
  /-- A malformed number. -/
  | badNumber
  /-- A number that is not finite. -/
  | numberTooGreat
  /-- A control character within a quoted text. -/
  | controlCharacter
  /-- A field whose name is not quoted. -/
  | nameNotQuoted
  /-- Half of a pair of escapes without its other half. -/
  | loneSurrogate
  /-- An escape that ends too early. -/
  | escapeEnded
  /-- A comma after the last item or field. -/
  | trailingComma
  /-- Something after the value. -/
  | trailingText
  /-- Too deep a nesting. -/
  | tooDeep
  deriving DecidableEq, Repr

/-- The text of a kind of fault. -/
def FaultKind.message : FaultKind → String
  | listEnded => "EOF while parsing a list"
  | recordEnded => "EOF while parsing an object"
  | quotedEnded => "EOF while parsing a string"
  | valueEnded => "EOF while parsing a value"
  | noColon => "expected `:`"
  | noListComma => "expected `,` or `]`"
  | noRecordComma => "expected `,` or `\x7d`"
  | badWord => "expected ident"
  | noValue => "expected value"
  | badEscape => "invalid escape"
  | badNumber => "invalid number"
  | numberTooGreat => "number out of range"
  | controlCharacter => "control character (\\u0000-\\u001F) found while parsing a string"
  | nameNotQuoted => "key must be a string"
  | loneSurrogate => "lone leading surrogate in hex escape"
  | escapeEnded => "unexpected end of hex escape"
  | trailingComma => "trailing comma"
  | trailingText => "trailing characters"
  | tooDeep => "recursion limit exceeded"

/-- A fault and its place: a text that is left, and the count of its bytes that lie before the place. -/
structure Fault where
  /-- What is wrong. -/
  kind : FaultKind
  /-- The text that is left. -/
  unread : List Char
  /-- The bytes of that text before the place. -/
  seen : Nat

/-- A fault right after what has been read. -/
def behind {α : Type} (kind : FaultKind) (unread : List Char) : Except Fault α := .error ⟨kind, unread, 0⟩

/-- A fault at the next character. -/
def atNext {α : Type} (kind : FaultKind) (unread : List Char) : Except Fault α := .error ⟨kind, unread, 1⟩

/-- The count of the bytes of a text. -/
def byteSize (cs : List Char) : Nat := cs.foldr (fun c size => c.utf8Size + size) 0

/-- The text after the blanks at its front. -/
def skipBlanks (cs : List Char) : List Char :=
  cs.dropWhile fun c => c = ' ' || c = '\n' || c = '\t' || c = '\r'

/-! ### Numbers -/

/-- The greatest number that digits are collected to. -/
def maxDigits : Nat := 18446744073709551615

/-- The digits of a numeral so far: their number, and the power of ten of the last of them. Digits that would lead
beyond `maxDigits` are not collected. -/
structure Collected where
  /-- The collected digits, read as one number. -/
  digits : Nat
  /-- The power of ten of the last digit. -/
  exponent : Int
  /-- Whether a digit has been left out. -/
  full : Bool

/-- One more digit before the point. -/
def Collected.whole (c : Collected) (digit : Char) : Collected :=
  let next := 10 * c.digits + (digit.toNat - '0'.toNat)
  if c.full || maxDigits < next then { c with exponent := c.exponent + 1, full := true }
  else { c with digits := next }

/-- One more digit after the point. -/
def Collected.fraction (c : Collected) (digit : Char) : Collected :=
  let next := 10 * c.digits + (digit.toNat - '0'.toNat)
  if c.full || maxDigits < next then { c with full := true }
  else { c with digits := next, exponent := c.exponent - 1 }

/-- The number that a numeral with a point or an exponent stands for. -/
def finish (negative : Bool) (c : Collected) (rest : List Char) : Except Fault (Datum × List Char) :=
  match Binary64.ofNumeral? c.digits c.exponent with
  | some x => .ok (.real { x with negative }, rest)
  | none => behind .numberTooGreat rest

/-- The greatest exponent that is read. -/
def maxExponent : Nat := 2147483647

/-- The number that begins with the digits `size` and goes on with those at the front of a text, and the text after
it; or, if it exceeds `maxExponent`, the text after the digit that makes it do so. -/
def readSize (size : Nat) : List Char → Except (List Char) (Nat × List Char)
  | [] => .ok (size, [])
  | d :: rest =>
    if d.isDigit then
      let next := 10 * size + (d.toNat - '0'.toNat)
      if maxExponent < next then .error rest else readSize next rest
    else .ok (size, d :: rest)

/-- A numeral whose exponent exceeds `maxExponent`, from the digit on with which it does so: zero, or no finite
number. -/
def finishExcessive (negative down : Bool) (c : Collected) (rest : List Char) : Except Fault (Datum × List Char) :=
  if c.digits = 0 ∨ down then .ok (.real { Binary64.zero with negative }, rest.dropWhile Char.isDigit)
  else behind .numberTooGreat rest

/-- The exponent of a numeral, from the letter on. -/
def readExponent (negative : Bool) (c : Collected) (cs : List Char) : Except Fault (Datum × List Char) :=
  let afterLetter := cs.drop 1
  let down := afterLetter.head? = some '-'
  let start := if down || afterLetter.head? = some '+' then afterLetter.drop 1 else afterLetter
  match start with
  | [] => behind .valueEnded []
  | d :: _ =>
    if d.isDigit then
      match readSize 0 start with
      | .error rest => finishExcessive negative down c rest
      | .ok (size, rest) =>
        let exponent := if down then c.exponent - size else c.exponent + size
        finish negative { c with exponent } rest
    else atNext .badNumber start

/-- The rest of a numeral after the digits before the point. -/
def readAfterWhole (negative : Bool) (c : Collected) (cs : List Char) : Except Fault (Datum × List Char) :=
  match cs with
  | '.' :: rest =>
    let digits := rest.takeWhile Char.isDigit
    let after := rest.dropWhile Char.isDigit
    if digits.isEmpty then
      if after.isEmpty then atNext .valueEnded after else atNext .badNumber after
    else
      let c := digits.foldl Collected.fraction { c with full := false }
      match after with
      | e :: _ => if e = 'e' || e = 'E' then readExponent negative c after else finish negative c after
      | [] => finish negative c after
  | e :: _ =>
    if e = 'e' || e = 'E' then readExponent negative c cs else asInteger cs
  | [] => asInteger cs
where
  /-- The integer of the digits, if there is one of 64 bits, and else the nearest number. -/
  asInteger (cs : List Char) : Except Fault (Datum × List Char) :=
    if c.full then finish negative c cs
    else if ¬ negative then .ok (.integer c.digits, cs)
    else if c.digits = 0 ∨ (c.digits : Int) > -minInteger then finish negative c cs
    else .ok (.integer (-(c.digits : Int)), cs)

/-- A number, after its sign. -/
def readNumber (negative : Bool) (cs : List Char) : Except Fault (Datum × List Char) :=
  match cs with
  | [] => behind .valueEnded []
  | d :: rest =>
    if d = '0' then
      if (rest.head?.map Char.isDigit).getD false then atNext .badNumber rest
      else readAfterWhole negative ⟨0, 0, false⟩ rest
    else if d.isDigit then
      readAfterWhole negative ((cs.takeWhile Char.isDigit).foldl Collected.whole ⟨0, 0, false⟩)
        (cs.dropWhile Char.isDigit)
    else atNext .badNumber cs

/-! ### Quoted texts -/

/-- Four hexadecimal digits. They are looked for in the next four bytes, whatever characters these belong to. -/
def readHex (cs : List Char) : Except Fault (Nat × List Char) :=
  let digits := cs.take 4
  if digits.length = 4 ∧ digits.all fun h => (Text.digitValue? h).isSome then
    .ok (Text.numberOf 16 digits, cs.drop 4)
  else if byteSize digits < 4 then behind .quotedEnded []
  else .error ⟨.badEscape, cs, 4⟩

/-- The character of an escape by number, from the digits on. A number that is the first half of a pair is followed
by an escape with the second half. -/
def readNumberedChar (cs : List Char) : Except Fault (Char × List Char) := do
  let (high, rest) ← readHex cs
  if 0xDC00 ≤ high ∧ high ≤ 0xDFFF then behind .loneSurrogate rest
  else if high < 0xD800 ∨ 0xDBFF < high then .ok (Char.ofNat high, rest)
  else
    match rest with
    | [] => behind .quotedEnded []
    | c :: rest =>
      if c ≠ '\\' then atNext .escapeEnded (c :: rest)
      else
        match rest with
        | [] => behind .quotedEnded []
        | c :: rest =>
          if c ≠ 'u' then atNext .escapeEnded (c :: rest)
          else do
            let (low, rest) ← readHex rest
            if low < 0xDC00 ∨ 0xDFFF < low then behind .loneSurrogate rest
            else .ok (Char.ofNat (0x10000 + (high - 0xD800) * 0x400 + (low - 0xDC00)), rest)

/-- The character of an escape, from the character after the backslash on. -/
def readEscape (cs : List Char) : Except Fault (Char × List Char) :=
  match cs with
  | [] => behind .quotedEnded []
  | c :: rest =>
    if c = '"' || c = '\\' || c = '/' then .ok (c, rest)
    else if c = 'b' then .ok ('\x08', rest)
    else if c = 'f' then .ok ('\x0c', rest)
    else if c = 'n' then .ok ('\n', rest)
    else if c = 'r' then .ok ('\r', rest)
    else if c = 't' then .ok ('\t', rest)
    else if c = 'u' then readNumberedChar rest
    else atNext .badEscape (c :: rest)

/-- A quoted text from the character after its first quote on, behind the characters already read. -/
def readQuoted (cs : List Char) (done : List Char) : Except Fault (String × List Char) :=
  match cs with
  | [] => behind .quotedEnded []
  | c :: rest =>
    if c = '"' then .ok (String.ofList done.reverse, rest)
    else if c = '\\' then
      match readEscape rest with
      | .error fault => .error fault
      | .ok (e, after) =>
        if _h : after.length ≤ rest.length then readQuoted after (e :: done) else behind .quotedEnded []
    else if c.toNat < 0x20 then behind .controlCharacter rest
    else readQuoted rest (c :: done)
termination_by cs.length

/-! ### Values -/

/-- A word that stands for a value, from its second character on. -/
def readWord (word : List Char) (value : Datum) (cs : List Char) : Except Fault (Datum × List Char) :=
  match word, cs with
  | [], rest => .ok (value, rest)
  | _ :: _, [] => behind .valueEnded []
  | w :: word, c :: rest => if c = w then readWord word value rest else atNext .badWord (c :: rest)

/-- The items of a list up to its end, given how an item is read. The text starts at an item. -/
def readItems (item : List Char → Except Fault (Datum × List Char)) (cs : List Char) :
    Except Fault (List Datum × List Char) :=
  match item cs with
  | .error fault => .error fault
  | .ok (d, rest) =>
    match _h : skipBlanks rest with
    | [] => atNext .listEnded []
    | ']' :: after => .ok ([d], after)
    | ',' :: after =>
      match skipBlanks after with
      | [] => atNext .valueEnded []
      | ']' :: last => atNext .trailingComma (']' :: last)
      | next =>
        if _h : next.length < cs.length then
          match readItems item next with
          | .error fault => .error fault
          | .ok (ds, last) => .ok (d :: ds, last)
        else atNext .noListComma next
    | other => atNext .noListComma other
termination_by cs.length

/-- The fields of a record up to its end, given how a value is read. The text starts at the quote of a name. -/
def readFields (item : List Char → Except Fault (Datum × List Char)) (cs : List Char) :
    Except Fault (List (String × Datum) × List Char) := do
  let (name, rest) ← readQuoted (cs.drop 1) []
  let afterColon ← match skipBlanks rest with
    | [] => atNext .recordEnded []
    | ':' :: rest => pure rest
    | other => atNext .noColon other
  let (d, rest) ← item afterColon
  match skipBlanks rest with
  | [] => atNext .recordEnded []
  | '\x7d' :: after => .ok ([(name, d)], after)
  | ',' :: after =>
    match skipBlanks after with
    | [] => atNext .valueEnded []
    | '"' :: next =>
      if _h : ('"' :: next).length < cs.length then do
        let (fields, last) ← readFields item ('"' :: next)
        .ok ((name, d) :: fields, last)
      else atNext .noRecordComma next
    | '\x7d' :: last => atNext .trailingComma ('\x7d' :: last)
    | other => atNext .nameNotQuoted other
  | other => atNext .noRecordComma other
termination_by cs.length

/-- A value, with at most `depth - 1` levels of lists and records. -/
def readValue (depth : Nat) (cs : List Char) : Except Fault (Datum × List Char) :=
  match skipBlanks cs with
  | [] => atNext .valueEnded []
  | 'n' :: rest => readWord "ull".toList .null rest
  | 't' :: rest => readWord "rue".toList (.boolean true) rest
  | 'f' :: rest => readWord "alse".toList (.boolean false) rest
  | '-' :: rest => readNumber true rest
  | '"' :: rest => (readQuoted rest []).map fun (s, after) => (.text s, after)
  | '[' :: rest =>
    match depth with
    | 0 | 1 => atNext .tooDeep ('[' :: rest)
    | depth + 1 =>
      match skipBlanks rest with
      | [] => atNext .listEnded []
      | ']' :: after => .ok (.list [], after)
      | items => (readItems (readValue depth) items).map fun (ds, after) => (.list ds, after)
  | '\x7b' :: rest =>
    match depth with
    | 0 | 1 => atNext .tooDeep ('\x7b' :: rest)
    | depth + 1 =>
      match skipBlanks rest with
      | [] => atNext .recordEnded []
      | '\x7d' :: after => .ok (.record [], after)
      | '"' :: fields =>
        (readFields (readValue depth) ('"' :: fields)).map fun (fs, after) => (ofFields fs, after)
      | other => atNext .nameNotQuoted other
  | c :: rest => if c.isDigit then readNumber false (c :: rest) else atNext .noValue (c :: rest)

/-- A whole text as one value. -/
def readText (cs : List Char) : Except Fault Datum := do
  let (d, rest) ← readValue 128 cs
  match skipBlanks rest with
  | [] => .ok d
  | other => atNext .trailingText other

/-- The line and the column that are reached from a line and a column by going through some bytes of a text. -/
def advance (line column bytes : Nat) : List Char → Nat × Nat
  | [] => (line, column)
  | c :: cs =>
    if bytes = 0 then (line, column)
    else if c = '\n' then advance (line + 1) 0 (bytes - 1) cs
    else advance line (column + min bytes c.utf8Size) (bytes - c.utf8Size) cs

/-- A fault with its place in the text. -/
def Fault.message (f : Fault) (source : List Char) : String :=
  let (line, column) := advance 1 0 (byteSize source - byteSize f.unread + f.seen) source
  s!"{f.kind.message} at line {line} column {column}"

/-- The value that a text stands for, or the message about its first fault. -/
def read (s : String) : Except String Datum :=
  match readText s.toList with
  | .ok d => .ok d
  | .error f => .error (f.message s.toList)

end JobRoster.Datum.Json
