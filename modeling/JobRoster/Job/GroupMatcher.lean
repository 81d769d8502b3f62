import JobRoster.Datum.Codec

/-!
# Group matchers

A matcher selects groups by comparing their names with a text. Beside each comparison, which looks at the characters,
stands what it means as an equation between texts.
-/

namespace JobRoster

/-- A condition on the name of a group. -/
inductive GroupMatcher where
  /-- The name is the text. -/
  | equals (value : String)
  /-- The name ends with the text. -/
  | endsWith (value : String)
  /-- The name starts with the text. -/
  | startsWith (value : String)
  /-- The name contains the text. -/
  | contains (value : String)
  /-- No condition. -/
  | anything
  deriving DecidableEq, Repr

namespace GroupMatcher

/-- Whether a text occurs within another. -/
def occursIn (value : List Char) : List Char → Bool
  | [] => value.isEmpty
  | c :: cs => value.isPrefixOf (c :: cs) || occursIn value cs

theorem occursIn_iff {value cs : List Char} :
    occursIn value cs = true ↔ ∃ x y, cs = x ++ value ++ y := by
  induction cs with
  | nil => simp [occursIn]
  | cons c cs ih =>
    simp only [occursIn, Bool.or_eq_true, List.isPrefixOf_iff_prefix, ih]
    constructor
    · rintro (⟨y, hy⟩ | ⟨x, y, rfl⟩)
      · exact ⟨[], y, by simp [hy]⟩
      · exact ⟨c :: x, y, by simp⟩
    · rintro ⟨x, y, h⟩
      cases x with
      | nil => exact .inl ⟨y, by simpa using h.symm⟩
      | cons a x =>
        simp only [List.cons_append, List.cons.injEq] at h
        exact .inr ⟨x, y, h.2⟩

/-- Whether a matcher selects a group. -/
def accepts : GroupMatcher → String → Bool
  | equals value, group => group == value
  | endsWith value, group => value.toList.isSuffixOf group.toList
  | startsWith value, group => value.toList.isPrefixOf group.toList
  | contains value, group => occursIn value.toList group.toList
  | anything, _ => true

/-- A matcher in words. -/
def describe : GroupMatcher → String
  | equals value => "group == " ++ Text.quoted value
  | endsWith value => "group ends with " ++ Text.quoted value
  | startsWith value => "group starts with " ++ Text.quoted value
  | contains value => "group contains " ++ Text.quoted value
  | anything => "any group"

/-! ### Matchers as data -/

/-- A kind of condition. -/
inductive Kind where
  /-- The name is the text. -/
  | equals
  /-- The name ends with the text. -/
  | endsWith
  /-- The name starts with the text. -/
  | startsWith
  /-- The name contains the text. -/
  | contains
  /-- No condition. -/
  | anything
  deriving DecidableEq, Repr

/-- The kinds of conditions. -/
def Kind.all : List Kind := [.equals, .endsWith, .startsWith, .contains, .anything]

/-- The name of a kind of condition. -/
def Kind.name : Kind → String
  | equals => "equals"
  | endsWith => "ends_with"
  | startsWith => "starts_with"
  | contains => "contains"
  | anything => "anything"

/-- Kinds of conditions as data. -/
def Kind.codec : Codec Kind := .choice Kind.all Kind.name

/-- A matcher as data: the kind of the condition, and its text if it has one. -/
def write : GroupMatcher → Datum
  | equals value => tagged .equals value
  | endsWith value => tagged .endsWith value
  | startsWith value => tagged .startsWith value
  | contains value => tagged .contains value
  | anything => .record [("op", Kind.codec.write .anything)]
where
  /-- A kind with a text. -/
  tagged (kind : Kind) (value : String) : Datum :=
    .record [("op", Kind.codec.write kind), ("value", .text value)]

/-- The matcher of a kind, given the data of its text. -/
def ofKind (dialect : Dialect) (kind : Kind) (value : Datum) : Except Mismatch GroupMatcher :=
  match kind with
  | .equals => (Codec.text.read dialect value).map equals
  | .endsWith => (Codec.text.read dialect value).map endsWith
  | .startsWith => (Codec.text.read dialect value).map startsWith
  | .contains => (Codec.text.read dialect value).map contains
  | .anything =>
    match value with
    | .null => .ok anything
    | d => d.refuse "unit variant GroupMatcher::Anything"

/-- The matcher that data stand for: a record of the kind and the text, or a list of them, in which the kind has to be
given by its name. -/
def read (dialect : Dialect) : Datum → Except Mismatch GroupMatcher
  | .record fields =>
    match Datum.lookUp? "op" fields, Datum.lookUp? "value" fields with
    | none, _ => .error (.missingField "op")
    | some kind, some value => do ofKind dialect (← Kind.codec.read dialect kind) value
    | some kind, none => do
      match ← Kind.codec.read dialect kind with
      | .anything => return anything
      | _ => .error (.missingField "value")
  | .list [] => .error (.wrongLength 0 label)
  | .list (kind :: rest) => do
    let kind ← Codec.readName Kind.all Kind.name kind
    match rest with
    | [] => .error (.wrongLength 1 label)
    | [value] => ofKind dialect kind value
    | value :: more => do
      let matcher ← ofKind dialect kind value
      if dialect.extraItems then return matcher
      else .error (.wrongLength (more.length + 2) "fewer elements in array")
  | d => d.refuse label
where
  /-- What a matcher is called in messages. -/
  label : String := "adjacently tagged enum GroupMatcher"

/-- Matchers as data. -/
def codec : Codec GroupMatcher := ⟨write, read⟩

end GroupMatcher

end JobRoster
