import JobRoster.Text.Digits

/-!
# The grammar of cron expressions

A field of a cron expression is a list of items with commas between them. An item is a star, a number, a span of
numbers or of names, each of them with or without a step, or a single name. The functions here take an item or a
whole field off the front of a text; each of them takes the first alternative that fits, and as much as it can.

Blanks are the space, the tab, the carriage return and the line feed. They may stand on either side of a number or
a name and around a field, but not around a star.
-/

namespace JobRoster.Cron

/-- What an item denotes before its step is applied. -/
inductive Base where
  /-- Every value. -/
  | all
  /-- One value. -/
  | one (value : Nat)
  /-- The values from one number to another. -/
  | span (first last : Nat)
  /-- The values from one name to another. -/
  | named (first last : List Char)
  deriving DecidableEq, Repr

/-- One item of a field. -/
inductive Item where
  /-- A base by itself. -/
  | plain (base : Base)
  /-- A base with a step. -/
  | stepped (base : Base) (step : Nat)
  /-- A single name. -/
  | name (name : List Char)
  deriving DecidableEq, Repr

namespace Expression

/-- The blanks of the grammar. -/
def isBlank (c : Char) : Bool := c = ' ' || c = '\t' || c = '\r' || c = '\n'

/-- The text after the blanks at its front. -/
def skipBlanks (cs : List Char) : List Char := cs.dropWhile isBlank

/-- The greatest number that can be written. -/
def maxNumber : Nat := 4294967295

/-- A run of characters of one class, at least one of them, with blanks around it. -/
def run? (p : Char → Bool) (cs : List Char) : Option (List Char × List Char) :=
  let start := skipBlanks cs
  let word := start.takeWhile p
  if word.isEmpty then none else some (word, skipBlanks (start.dropWhile p))

/-- A number with blanks around it. -/
def number? (cs : List Char) : Option (Nat × List Char) :=
  match run? Char.isDigit cs with
  | some (digits, rest) => if Text.numberOf 10 digits ≤ maxNumber then some (Text.numberOf 10 digits, rest) else none
  | none => none

/-- A name with blanks around it. -/
def name? (cs : List Char) : Option (List Char × List Char) := run? Char.isAlpha cs

/-- One given character. -/
def mark? (mark : Char) : List Char → Option (List Char)
  | c :: rest => if c = mark then some rest else none
  | [] => none

/-- A span of two things of one kind. -/
def span? {α : Type} (read : List Char → Option (α × List Char)) (cs : List Char) :
    Option ((α × α) × List Char) := do
  let (first, rest) ← read cs
  let rest ← mark? '-' rest
  let (last, rest) ← read rest
  return ((first, last), rest)

/-- A base. -/
def base? (cs : List Char) : Option (Base × List Char) :=
  ((mark? '*' cs).map fun rest => (Base.all, rest))
    <|> ((span? number? cs).map fun (ends, rest) => (Base.span ends.1 ends.2, rest))
    <|> ((number? cs).map fun (n, rest) => (Base.one n, rest))
    <|> ((span? name? cs).map fun (ends, rest) => (Base.named ends.1 ends.2, rest))

/-- A base with its step. -/
def stepped? (cs : List Char) : Option (Item × List Char) := do
  let (base, rest) ← base? cs
  let rest ← mark? '/' rest
  let (step, rest) ← number? rest
  return (Item.stepped base step, rest)

/-- An item. -/
def item? (cs : List Char) : Option (Item × List Char) :=
  stepped? cs
    <|> ((base? cs).map fun (base, rest) => (Item.plain base, rest))
    <|> ((name? cs).map fun (name, rest) => (Item.name name, rest))

/-! ### Each reader takes something off the front -/

theorem length_skipBlanks_le (cs : List Char) : (skipBlanks cs).length ≤ cs.length :=
  (List.dropWhile_suffix _).length_le

theorem length_of_run? {p : Char → Bool} {cs word rest : List Char} (h : run? p cs = some (word, rest)) :
    rest.length < cs.length := by
  simp only [run?] at h
  split at h
  · cases h
  · rename_i hw
    obtain ⟨rfl, rfl⟩ := Prod.mk.injEq .. ▸ Option.some.inj h
    have hsplit := congrArg List.length (List.takeWhile_append_dropWhile (p := p) (l := skipBlanks cs))
    have hpos : 0 < ((skipBlanks cs).takeWhile p).length := by
      cases hl : (skipBlanks cs).takeWhile p <;> simp_all
    have := length_skipBlanks_le ((skipBlanks cs).dropWhile p)
    have := length_skipBlanks_le cs
    simp only [List.length_append] at hsplit
    omega

theorem length_of_number? {cs rest : List Char} {n : Nat} (h : number? cs = some (n, rest)) :
    rest.length < cs.length := by
  simp only [number?] at h
  split at h
  · rename_i hr
    split at h
    · obtain ⟨rfl, rfl⟩ := Prod.mk.injEq .. ▸ Option.some.inj h
      exact length_of_run? hr
    · cases h
  · cases h

theorem length_of_mark? {mark : Char} {cs rest : List Char} (h : mark? mark cs = some rest) :
    rest.length < cs.length := by
  cases cs with
  | nil => cases h
  | cons c cs =>
    simp only [mark?] at h
    split at h
    · cases h; simp
    · cases h

theorem length_of_span? {α : Type} {read : List Char → Option (α × List Char)}
    (hread : ∀ {cs a rest}, read cs = some (a, rest) → rest.length < cs.length)
    {cs rest : List Char} {ends : α × α} (h : span? read cs = some (ends, rest)) :
    rest.length < cs.length := by
  simp only [span?, Option.bind_eq_bind, Option.bind_eq_some_iff] at h
  obtain ⟨⟨a, r₁⟩, h₁, r₂, h₂, ⟨b, r₃⟩, h₃, h₄⟩ := h
  cases h₄
  have : r₁.length < cs.length := hread h₁
  have : r₂.length < r₁.length := length_of_mark? h₂
  have : r₃.length < r₂.length := hread h₃
  show r₃.length < cs.length
  omega

theorem length_of_base? {cs rest : List Char} {base : Base} (h : base? cs = some (base, rest)) :
    rest.length < cs.length := by
  simp only [base?, Option.orElse_eq_orElse, Option.orElse_eq_or, Option.or_eq_some_iff, Option.map_eq_some_iff] at h
  rcases h with ⟨_, h, hb⟩ | ⟨_, ⟨_, h, hb⟩ | ⟨_, ⟨_, h, hb⟩ | ⟨_, _, h, hb⟩⟩⟩ <;> cases hb
  · exact length_of_mark? h
  · exact length_of_span? length_of_number? h
  · exact length_of_number? h
  · exact length_of_span? length_of_run? h

theorem length_of_item? {cs rest : List Char} {item : Item} (h : item? cs = some (item, rest)) :
    rest.length < cs.length := by
  simp only [item?, Option.orElse_eq_orElse, Option.orElse_eq_or, Option.or_eq_some_iff, Option.map_eq_some_iff] at h
  rcases h with h | ⟨_, ⟨_, h, hi⟩ | ⟨_, _, h, hi⟩⟩
  · simp only [stepped?, Option.bind_eq_bind, Option.bind_eq_some_iff] at h
    obtain ⟨⟨base, r₁⟩, h₁, r₂, h₂, ⟨step, r₃⟩, h₃, h₄⟩ := h
    cases h₄
    have : r₁.length < cs.length := length_of_base? h₁
    have : r₂.length < r₁.length := length_of_mark? h₂
    have : r₃.length < r₂.length := length_of_number? h₃
    show r₃.length < cs.length
    omega
  · cases hi; exact length_of_base? h
  · cases hi; exact length_of_run? h

/-! ### Fields -/

/-- The items that follow an item, each with a comma in front of it. A comma without an item after it is not
taken. -/
def moreItems (cs : List Char) : List Item × List Char :=
  match cs with
  | ',' :: rest =>
    match h : item? rest with
    | some (item, after) =>
      have : after.length < rest.length := length_of_item? h
      let (items, last) := moreItems after
      (item :: items, last)
    | none => ([], cs)
  | _ => ([], cs)
termination_by cs.length
decreasing_by simp only [List.length_cons]; omega

/-- A field with the blanks around it: its items and the text after it. -/
def field? (cs : List Char) : Option (List Item × List Char) :=
  match item? (skipBlanks cs) with
  | some (item, rest) =>
    let (items, last) := moreItems rest
    some (item :: items, skipBlanks last)
  | none => none

end Expression

end JobRoster.Cron
