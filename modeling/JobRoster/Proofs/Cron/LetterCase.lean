import JobRoster.Engine.Store
import Mathlib.Data.List.DropRight
import Mathlib.Tactic.Common

/-!
# Cron expressions up to the case of letters

An expression can be written in small letters (`Text.fold`). Of the readers of the grammar each takes the same off the
front of the text then, with its names in small letters (`Caseless`): none of them tells a capital letter from a small
one, and a capital letter is no blank, no digit and no mark. What an item means does not depend on the case of its names
either (`Item.values_fold`), nor does what is read of the fields of an expression (`readFields_fold`).

Keywords are another matter, since they are looked for in small letters only. A keyword that is found is found in small
letters too, but a keyword in capital letters is not found, and nor are there fields where it stands.

Main statements:

* `readCron_congr`: two expressions that can be read, and that differ in case only, have the same schedule.
* `readCron_or_capitalKeyword`: where one of them can be read the other one can, unless it is a keyword with capital
  letters.
-/

namespace JobRoster

/-! ### Characters -/

namespace Text

/-- The capital letters, which have small forms. -/
def capital (i : Fin 26) : Char := Char.ofNat (65 + i)

theorem exists_capital_of_toLower_ne {c : Char} (h : c.toLower ≠ c) : ∃ i, c = capital i := by
  unfold Char.toLower at h
  split at h
  · next hrange =>
    obtain ⟨hlow, hhigh⟩ := hrange
    have hlow : 65 ≤ c.toNat := hlow
    have hhigh : c.toNat ≤ 90 := hhigh
    refine ⟨⟨c.toNat - 65, by omega⟩, ?_⟩
    rw [capital, Nat.add_sub_cancel' hlow, Char.ofNat_toNat]
  · exact absurd rfl h

/-- What is the same of each capital letter and its small form is the same of each character and its small form. -/
theorem apply_toLower {α : Type} {p : Char → α} (h : ∀ i, p (capital i).toLower = p (capital i)) (c : Char) :
    p c.toLower = p c := by
  by_cases hc : c.toLower = c
  · rw [hc]
  · obtain ⟨i, rfl⟩ := exists_capital_of_toLower_ne hc
    exact h i

/-- A mark that is no letter is the small form of nothing else. -/
theorem toLower_eq_iff (mark : Char) (h : ∀ i, (capital i).toLower = mark ↔ capital i = mark) (c : Char) :
    c.toLower = mark ↔ c = mark :=
  iff_of_eq (apply_toLower (p := fun c => c = mark) (fun i => propext (h i)) c)

theorem toLower_toLower (c : Char) : c.toLower.toLower = c.toLower := apply_toLower (by decide) c

theorem isBlank_toLower (c : Char) : isBlank c.toLower = isBlank c := apply_toLower (by decide) c

theorem isDigit_toLower (c : Char) : c.toLower.isDigit = c.isDigit := apply_toLower (by decide) c

theorem isAlpha_toLower (c : Char) : c.toLower.isAlpha = c.isAlpha := apply_toLower (by decide) c

theorem digitValue?_toLower (c : Char) : digitValue? c.toLower = digitValue? c := apply_toLower (by decide) c

theorem fold_fold (cs : List Char) : fold (fold cs) = fold cs := by
  simp only [fold, List.map_map, Function.comp_def, toLower_toLower]

theorem fold_dropWhile {p : Char → Bool} (hp : ∀ c : Char, p c.toLower = p c) (cs : List Char) :
    fold (cs.dropWhile p) = (fold cs).dropWhile p := by
  rw [fold, fold, List.dropWhile_map, show p ∘ Char.toLower = p from funext hp]

theorem fold_takeWhile {p : Char → Bool} (hp : ∀ c : Char, p c.toLower = p c) (cs : List Char) :
    fold (cs.takeWhile p) = (fold cs).takeWhile p := by
  rw [fold, fold, List.takeWhile_map, show p ∘ Char.toLower = p from funext hp]

theorem fold_trim (cs : List Char) : fold (trim cs) = trim (fold cs) := by
  have hreverse (cs : List Char) : fold cs.reverse = (fold cs).reverse := List.map_reverse
  rw [trim, trimEnd, trimStart, hreverse, fold_dropWhile isBlank_toLower, hreverse, fold_dropWhile isBlank_toLower]
  rfl

/-- The number that digits stand for does not depend on their case. -/
theorem numberOf_fold (base : Nat) (digits : List Char) : numberOf base (fold digits) = numberOf base digits := by
  rw [numberOf, fold, List.foldl_map]
  simp only [digitValue?_toLower]
  rfl

theorem not_isBlank_head_trim {cs : List Char} {c : Char} (h : (trim cs).head? = some c) : isBlank c = false := by
  have hprefix : trim cs <+: trimStart cs := List.rdropWhile_prefix isBlank _
  obtain ⟨rest, hrest⟩ := hprefix
  have hhead : (trimStart cs).head? = some c := by
    rw [← hrest, List.head?_append, h]
    rfl
  exact not_isBlank_head_trimStart hhead

theorem not_isBlank_last_trim {cs : List Char} {c : Char} (h : (trim cs).getLast? = some c) : isBlank c = false := by
  have hne : (trimStart cs).rdropWhile isBlank ≠ [] := by
    intro hnil
    cases h.symm.trans (congrArg List.getLast? hnil)
  obtain rfl : ((trimStart cs).rdropWhile isBlank).getLast hne = c :=
    Option.some.inj ((List.getLast?_eq_some_getLast hne).symm.trans h)
  exact Bool.eq_false_iff.2 (List.rdropWhile_last_not isBlank (trimStart cs) hne)

end Text

namespace Cron

/-- A base with its names in small letters. -/
def Base.fold : Base → Base
  | named first last => named (Text.fold first) (Text.fold last)
  | base => base

/-- An item with its names in small letters. -/
def Item.fold : Item → Item
  | plain base => plain base.fold
  | stepped base step => stepped base.fold step
  | name text => name (Text.fold text)

/-! ### Readers -/

namespace Expression

variable {α : Type} {small : α → α} {read : List Char → Option (α × List Char)}

/-- **A reader does not tell capital letters from small ones**: off the front of a text in small letters it takes the
same, in small letters, and what it leaves is the same, in small letters. -/
def Caseless (small : α → α) (read : List Char → Option (α × List Char)) : Prop :=
  ∀ cs, read (Text.fold cs) = (read cs).map (Prod.map small Text.fold)

theorem isBlank_toLower (c : Char) : isBlank c.toLower = isBlank c := Text.apply_toLower (by decide) c

theorem skipBlanks_fold (cs : List Char) : skipBlanks (Text.fold cs) = Text.fold (skipBlanks cs) :=
  (Text.fold_dropWhile isBlank_toLower cs).symm

theorem caseless_run? {p : Char → Bool} (hp : ∀ c : Char, p c.toLower = p c) : Caseless Text.fold (run? p) := by
  intro cs
  simp only [run?, skipBlanks_fold, ← Text.fold_takeWhile hp, ← Text.fold_dropWhile hp]
  rw [show (Text.fold ((skipBlanks cs).takeWhile p)).isEmpty = ((skipBlanks cs).takeWhile p).isEmpty from
    List.isEmpty_map]
  split <;> rfl

theorem caseless_number? : Caseless id number? := by
  intro cs
  simp only [number?, caseless_run? Text.isDigit_toLower cs]
  cases run? Char.isDigit cs with
  | none => rfl
  | some found =>
    simp only [Option.map_some, Prod.map, Text.numberOf_fold]
    split <;> rfl

theorem caseless_name? : Caseless Text.fold name? := caseless_run? Text.isAlpha_toLower

theorem mark?_fold (mark : Char) (hmark : ∀ i, (Text.capital i).toLower = mark ↔ Text.capital i = mark)
    (cs : List Char) : mark? mark (Text.fold cs) = (mark? mark cs).map Text.fold := by
  cases cs with
  | nil => rfl
  | cons c cs =>
    simp only [Text.fold, List.map_cons, mark?, Text.toLower_eq_iff mark hmark c]
    split <;> rfl

theorem Caseless.span? (h : Caseless small read) : Caseless (Prod.map small small) (Expression.span? read) := by
  intro cs
  simp only [Expression.span?, Option.bind_eq_bind, h _, mark?_fold '-' (by decide), Option.bind_map,
    Option.map_bind, Function.comp_def, Prod.map_fst, Prod.map_snd]
  rfl

theorem caseless_base? : Caseless Base.fold base? := by
  intro cs
  simp only [base?, Option.orElse_eq_orElse, Option.orElse_eq_or, Option.map_or, Option.map_map,
    mark?_fold '*' (by decide), caseless_number?.span? cs, caseless_number? cs, caseless_name?.span? cs]
  rfl

theorem caseless_stepped? : Caseless Item.fold stepped? := by
  intro cs
  simp only [stepped?, Option.bind_eq_bind, caseless_base? _, mark?_fold '/' (by decide),
    caseless_number? _, Option.bind_map, Option.map_bind, Function.comp_def, Prod.map_fst, Prod.map_snd]
  rfl

theorem caseless_item? : Caseless Item.fold item? := by
  intro cs
  simp only [item?, Option.orElse_eq_orElse, Option.orElse_eq_or, Option.map_or, Option.map_map, caseless_stepped? cs,
    caseless_base? cs, caseless_name? cs]
  rfl

/-- After a comma there is an item and then more of them, or nothing is taken. -/
theorem moreItems_comma (rest : List Char) :
    moreItems (',' :: rest) = match item? rest with
      | some (item, after) => (item :: (moreItems after).1, (moreItems after).2)
      | none => ([], ',' :: rest) := by
  rw [moreItems]
  split <;> simp_all

/-- Without a comma nothing is taken. -/
theorem moreItems_of_ne {cs : List Char} (h : ∀ rest, cs ≠ ',' :: rest) : moreItems cs = ([], cs) := by
  rw [moreItems]
  exact h

theorem moreItems_fold (cs : List Char) :
    moreItems (Text.fold cs) = Prod.map (List.map Item.fold) Text.fold (moreItems cs) := by
  have hcomma (rest : List Char) : Text.fold (',' :: rest) = ',' :: Text.fold rest := rfl
  induction cs using moreItems.induct with
  | case1 rest item after hitem _ items last hmore ih =>
    rw [hcomma, moreItems_comma, moreItems_comma, caseless_item? rest, hitem]
    simp only [Option.map_some, Prod.map, ih, List.map_cons]
  | case2 rest hitem =>
    rw [hcomma, moreItems_comma, moreItems_comma, caseless_item? rest, hitem]
    rfl
  | case3 cs hne =>
    have hne' (rest : List Char) : Text.fold cs ≠ ',' :: rest := by
      intro h
      obtain ⟨c, cs, rfl, hc, -⟩ := List.map_eq_cons_iff.1 h
      rw [Text.toLower_eq_iff _ (by decide)] at hc
      exact hne cs (congrArg (· :: cs) hc)
    rw [moreItems_of_ne hne', moreItems_of_ne hne]
    rfl

theorem caseless_field? : Caseless (List.map Item.fold) field? := by
  intro cs
  rw [field?, field?, skipBlanks_fold, caseless_item?]
  cases item? (skipBlanks cs) with
  | none => rfl
  | some found => simp only [Option.map_some, Prod.map, moreItems_fold, skipBlanks_fold, List.map_cons]

end Expression

/-! ### What items mean -/

section ToOption

variable {ε α β : Type}

theorem toOption_eq_some_iff {x : Except ε α} {a : α} : x.toOption = some a ↔ x = .ok a := by
  cases x <;> simp [Except.toOption]

theorem exists_eq_ok_iff {x : Except ε α} : (∃ a, x = .ok a) ↔ x.toOption.isSome = true := by
  simp only [Option.isSome_iff_exists, toOption_eq_some_iff]

theorem toOption_bind (x : Except ε α) (k : α → Except ε β) :
    (x >>= k).toOption = x.toOption.bind fun a => (k a).toOption := by
  cases x <;> rfl

theorem toOption_map (x : Except ε α) (k : α → β) : (x.map k).toOption = x.toOption.map k := by
  cases x <;> rfl

end ToOption

theorem Field.lookUp_fold (f : Field) (name : List Char) :
    (f.lookUp (Text.fold name)).toOption = (f.lookUp name).toOption := by
  have hvalue : f.valueOf? (Text.fold name) = f.valueOf? name := by rw [valueOf?, valueOf?, Text.fold_fold]
  unfold lookUp
  split
  · rfl
  · rw [hvalue]
    cases f.valueOf? name <;> rfl

theorem Base.values_fold (f : Field) (base : Base) : (base.fold.values f).toOption = (base.values f).toOption := by
  cases base with
  | named first last =>
    simp only [fold, values, toOption_bind, f.lookUp_fold, apply_ite Except.toOption]
    rfl
  | _ => rfl

/-- **What an item means does not depend on the case of its names**, if it has a meaning. -/
theorem Item.values_fold (f : Field) (item : Item) : (item.fold.values f).toOption = (item.values f).toOption := by
  cases item with
  | plain base => exact base.values_fold f
  | name text => simp only [fold, values, toOption_map, f.lookUp_fold]
  | stepped base step =>
    simp only [fold, values]
    split_ifs
    · rfl
    · rfl
    · cases base with
      | named first last =>
        change (((Base.named first last).fold.values f).map _).toOption = _
        rw [toOption_map, toOption_map, Base.values_fold]
      | _ => rfl

theorem Field.admitted_fold (f : Field) (items : List Item) :
    (f.admitted (items.map Item.fold)).toOption = (f.admitted items).toOption := by
  have hsets : ((items.map Item.fold).mapM (Item.values f)).toOption = (items.mapM (Item.values f)).toOption := by
    induction items with
    | nil => rfl
    | cons item items ih => simp only [List.map_cons, List.mapM_cons, toOption_bind, Item.values_fold, ih]
  rw [admitted, admitted, toOption_bind, toOption_bind, hsets]

/-! ### Fields -/

namespace Schedule

open Expression

variable {cs : List Char} {s : Schedule}

theorem toOption_readField (f : Field) (cs : List Char) : (readField f cs).toOption =
    (field? cs).bind fun found => (f.admitted found.1).toOption.map fun values => (values, found.2) := by
  unfold readField
  cases field? cs with
  | none => rfl
  | some found =>
    obtain ⟨items, rest⟩ := found
    dsimp only [Option.bind_some]
    cases f.admitted items <;> rfl

theorem readField_fold (f : Field) (cs : List Char) :
    (readField f (Text.fold cs)).toOption = (readField f cs).toOption.map (Prod.map id Text.fold) := by
  simp only [toOption_readField, caseless_field? cs, Option.bind_map, Option.map_bind, Function.comp_def, Prod.map,
    f.admitted_fold, Option.map_map]
  rfl

theorem readYears_fold (cs : List Char) : readYears (Text.fold cs) = Prod.map id Text.fold (readYears cs) := by
  have heq (cs : List Char) : readYears cs = (readField .years cs).toOption.getD (Field.years.values, cs) := by
    unfold readYears
    cases readField .years cs <;> rfl
  rw [heq, heq, readField_fold]
  cases (readField .years cs).toOption <;> rfl

theorem readEnd_fold (s : Schedule) (cs : List Char) :
    (readEnd s (Text.fold cs)).toOption = (readEnd s cs).toOption := by
  cases cs <;> rfl

/-- **The fields of an expression mean the same in small letters.** -/
theorem readFields_fold (cs : List Char) : (readFields (Text.fold cs)).toOption = (readFields cs).toOption := by
  simp only [readFields, toOption_bind, readField_fold, readYears_fold, readEnd_fold, Option.bind_map,
    Function.comp_def, Prod.map_fst, Prod.map_snd, id]

/-! ### Keywords -/

theorem keyword?_eq_some_iff {found : Schedule × List Char} :
    keyword? cs = some found ↔ ∃ entry ∈ keywords, cs = entry.1.toList ++ found.2 ∧ found.1 = entry.2 := by
  constructor
  · intro h
    obtain ⟨entry, hentry, h⟩ := List.exists_of_findSome?_eq_some h
    rw [Option.ite_none_right_eq_some, Option.some.injEq, List.isPrefixOf_iff_prefix] at h
    obtain ⟨⟨rest, rfl⟩, rfl⟩ := h
    exact ⟨entry, hentry, by simp, rfl⟩
  · rintro ⟨entry, hentry, rfl, hfound⟩
    obtain ⟨s, rest⟩ := found
    obtain rfl : s = entry.2 := hfound
    -- no keyword is the beginning of another one, so the first that fits is this one
    simp only [keywords, List.mem_cons, List.not_mem_nil, or_false] at hentry
    rcases hentry with rfl | rfl | rfl | rfl | rfl <;> rfl

/-- Keywords are written in small letters. -/
theorem fold_keyword {entry : String × Schedule} (h : entry ∈ keywords) :
    Text.fold entry.1.toList = entry.1.toList := by
  simp only [keywords, List.mem_cons, List.not_mem_nil, or_false] at h
  rcases h with rfl | rfl | rfl | rfl | rfl <;> rfl

theorem head_keyword {entry : String × Schedule} (h : entry ∈ keywords) : ∃ rest, entry.1.toList = '@' :: rest := by
  simp only [keywords, List.mem_cons, List.not_mem_nil, or_false] at h
  rcases h with rfl | rfl | rfl | rfl | rfl <;> exact ⟨_, rfl⟩

/-- No field begins as the keywords do. -/
theorem toOption_readFields_of_at {rest : List Char} (h : skipBlanks cs = '@' :: rest) :
    (readFields cs).toOption = none := by
  have hfield : field? cs = none := by
    rw [field?, h]
    rfl
  rw [readFields, toOption_bind, toOption_readField, hfield]
  rfl

/-- A keyword that is found is found in small letters too. -/
theorem keyword?_fold {found : Schedule × List Char} (h : keyword? cs = some found) :
    keyword? (Text.fold cs) = some (found.1, Text.fold found.2) := by
  obtain ⟨entry, hentry, rfl, hfound⟩ := keyword?_eq_some_iff.1 h
  refine keyword?_eq_some_iff.2 ⟨entry, hentry, ?_, hfound⟩
  rw [Text.fold, List.map_append]
  exact congrArg (· ++ _) (fold_keyword hentry)

/-- Where fields can be read there is no keyword, nor is there one in small letters. -/
theorem keyword?_fold_of_readFields (h : (readFields cs).toOption = some s) :
    keyword? (skipBlanks (Text.fold cs)) = none := by
  cases hkeyword : keyword? (skipBlanks (Text.fold cs)) with
  | none => rfl
  | some found =>
    obtain ⟨entry, hentry, hfold, -⟩ := keyword?_eq_some_iff.1 hkeyword
    obtain ⟨rest, hrest⟩ := head_keyword hentry
    rw [skipBlanks_fold, hrest, List.cons_append] at hfold
    obtain ⟨c, rest', hcs, hc, -⟩ := List.map_eq_cons_iff.1 hfold
    rw [Text.toLower_eq_iff _ (by decide)] at hc
    cases h.symm.trans (toOption_readFields_of_at (hcs.trans (congrArg (· :: rest') hc)))

theorem keyword?_of_readFields (h : (readFields cs).toOption = some s) : keyword? (skipBlanks cs) = none := by
  cases hkeyword : keyword? (skipBlanks cs) with
  | none => rfl
  | some found =>
    have hfold := keyword?_fold hkeyword
    rw [← skipBlanks_fold, keyword?_fold_of_readFields h] at hfold
    cases hfold

/-! ### Whole expressions -/

theorem toOption_read (cs : List Char) : (read cs).toOption = match keyword? (skipBlanks cs) with
    | some (s, rest) => (readEnd s (skipBlanks rest)).toOption
    | none => (readFields cs).toOption := by
  unfold read
  cases keyword? (skipBlanks cs) <;> rfl

/-- Fields that can be read are read as an expression. -/
theorem toOption_read_of_readFields (h : (readFields cs).toOption = some s) : (read cs).toOption = some s := by
  rw [toOption_read, keyword?_of_readFields h]
  exact h

/-- **An expression that can be read means the same in small letters.** -/
theorem read_fold (h : (read cs).toOption = some s) : (read (Text.fold cs)).toOption = some s := by
  rw [toOption_read] at h
  cases hkeyword : keyword? (skipBlanks cs) with
  | none =>
    rw [hkeyword] at h
    exact toOption_read_of_readFields ((readFields_fold cs).trans h)
  | some found =>
    rw [hkeyword] at h
    rw [toOption_read, skipBlanks_fold, keyword?_fold hkeyword]
    dsimp only
    rw [skipBlanks_fold, readEnd_fold]
    exact h

theorem fold_normalize (expression : String) : Text.fold (normalize expression) =
    (Text.trim (Text.fold expression.toList)).map fun c => if c = '?' then '*' else c := by
  have hmark (c : Char) : (if c = '?' then '*' else c).toLower = if c.toLower = '?' then '*' else c.toLower := by
    simp only [Text.toLower_eq_iff '?' (by decide)]
    split <;> rfl
  rw [normalize, ← Text.fold_trim, Text.fold, Text.fold, List.map_map, List.map_map]
  exact List.map_congr_left fun c _ => hmark c

/-- **No blank stands at either end** of a text. -/
structure Trimmed (cs : List Char) : Prop where
  /-- The first character is no blank. -/
  head : ∀ c ∈ cs.head?, isBlank c = false
  /-- The last character is no blank. -/
  last : ∀ c ∈ cs.getLast?, isBlank c = false

theorem Trimmed.skipBlanks_eq (h : Trimmed cs) : skipBlanks cs = cs := by
  cases cs with
  | nil => rfl
  | cons c cs => exact List.dropWhile_cons_of_neg (by simp [h.head c rfl])

/-- There are no blanks after the last word. -/
theorem Trimmed.eq_nil_of_append {word rest : List Char} (h : Trimmed (word ++ rest)) (hrest : skipBlanks rest = []) :
    rest = [] := by
  cases hlast : rest.getLast? with
  | none => exact List.getLast?_eq_none_iff.1 hlast
  | some c =>
    have hblank : isBlank c = true := List.dropWhile_eq_nil_iff.1 hrest c (List.mem_of_getLast? hlast)
    have hnot : isBlank c = false := h.last c (by simp [hlast])
    cases hblank.symm.trans hnot

/-- A map that makes no blanks leaves none at the ends. -/
theorem trimmed_map {f : Char → Char} (hhead : ∀ c ∈ cs.head?, isBlank (f c) = false)
    (hlast : ∀ c ∈ cs.getLast?, isBlank (f c) = false) : Trimmed (cs.map f) := by
  refine ⟨fun c hc => ?_, fun c hc => ?_⟩
  · rw [List.head?_map, Option.mem_def, Option.map_eq_some_iff] at hc
    obtain ⟨c, hc, rfl⟩ := hc
    exact hhead c hc
  · rw [List.getLast?_map, Option.mem_def, Option.map_eq_some_iff] at hc
    obtain ⟨c, hc, rfl⟩ := hc
    exact hlast c hc

theorem trimmed_normalize (expression : String) : Trimmed (normalize expression) := by
  have hblank {c : Char} (h : Text.isBlank c = false) : isBlank c = false := by
    rw [← Bool.not_eq_true] at h ⊢
    refine fun hblank => h ?_
    simp only [isBlank, Bool.or_eq_true, decide_eq_true_eq] at hblank
    rcases hblank with ((rfl | rfl) | rfl) | rfl <;> decide
  have hstar {c : Char} (h : Text.isBlank c = false) : isBlank (if c = '?' then '*' else c) = false := by
    split
    · rfl
    · exact hblank h
  exact trimmed_map (fun _ hc => hstar (Text.not_isBlank_head_trim hc)) fun _ hc => hstar (Text.not_isBlank_last_trim hc)

theorem Trimmed.fold (h : Trimmed cs) : Trimmed (Text.fold cs) := by
  refine trimmed_map (fun c hc => ?_) fun c hc => ?_
  · rw [isBlank_toLower, h.head c hc]
  · rw [isBlank_toLower, h.last c hc]

/-- **What can be read is a keyword or fields**, where no blanks stand at the ends. -/
theorem Trimmed.read_cases (h : Trimmed cs) (hs : (read cs).toOption = some s) :
    (∃ entry ∈ keywords, cs = entry.1.toList) ∨ (readFields cs).toOption = some s := by
  rw [toOption_read, h.skipBlanks_eq] at hs
  cases hkeyword : keyword? cs with
  | none =>
    rw [hkeyword] at hs
    exact .inr hs
  | some found =>
    rw [hkeyword] at hs
    obtain ⟨entry, hentry, rfl, -⟩ := keyword?_eq_some_iff.1 hkeyword
    have hrest : skipBlanks found.2 = [] := by
      cases hskip : skipBlanks found.2 with
      | nil => rfl
      | cons c rest =>
        simp only [hskip] at hs
        cases hs
    refine .inl ⟨entry, hentry, ?_⟩
    rw [h.eq_nil_of_append hrest, List.append_nil]

end Schedule

/-- **An expression is a keyword in which not all letters are small**, apart from blanks at its ends. -/
def CapitalKeyword (expression : String) : Prop :=
  ∃ entry ∈ keywords, Text.fold (Schedule.normalize expression) = entry.1.toList ∧
    Schedule.normalize expression ≠ entry.1.toList

instance (expression : String) : Decidable (CapitalKeyword expression) := by unfold CapitalKeyword; infer_instance

end Cron

open Cron Schedule

theorem toOption_readCron (expression : String) :
    (readCron expression).toOption = (read (normalize expression)).toOption := by
  unfold readCron
  dsimp only
  cases read (normalize expression) <;> rfl

/-- A keyword in which not all letters are small cannot be read. -/
theorem Cron.CapitalKeyword.not_readable {expression : String} (h : CapitalKeyword expression) (s : Schedule) :
    readCron expression ≠ .ok s := by
  obtain ⟨entry, hentry, hfold, hne⟩ := h
  intro hread
  rw [← toOption_eq_some_iff, toOption_readCron] at hread
  have htrimmed := trimmed_normalize expression
  obtain ⟨entry', hentry', heq⟩ | hfields := htrimmed.read_cases hread
  · rw [heq, fold_keyword hentry'] at hfold
    exact hne (heq.trans hfold)
  · have hnone := keyword?_fold_of_readFields hfields
    have hkeyword : keyword? entry.1.toList = some (entry.2, []) :=
      keyword?_eq_some_iff.2 ⟨entry, hentry, (List.append_nil _).symm, rfl⟩
    rw [htrimmed.fold.skipBlanks_eq, hfold, hkeyword] at hnone
    cases hnone

section SameIgnoringCase

variable {x y : String} {s s' : Schedule}

theorem fold_normalize_congr (h : Text.sameIgnoringCase x y = true) :
    Text.fold (normalize x) = Text.fold (normalize y) := by
  rw [fold_normalize, fold_normalize, Text.sameIgnoringCase_iff.1 h]

/-- **Expressions that differ in case only have the same schedule**, if both can be read. -/
theorem readCron_congr (h : Text.sameIgnoringCase x y = true) (hx : readCron x = .ok s) (hy : readCron y = .ok s') :
    s = s' := by
  rw [← toOption_eq_some_iff, toOption_readCron] at hx hy
  have hx := read_fold hx
  rw [fold_normalize_congr h, read_fold hy] at hx
  exact (Option.some.inj hx).symm

/-- **Of expressions that differ in case only** one can be read where the other one can, unless it is a keyword with
capital letters. -/
theorem readCron_or_capitalKeyword (h : Text.sameIgnoringCase x y = true) (hx : readCron x = .ok s) :
    readCron y = .ok s ∨ CapitalKeyword y := by
  rw [← toOption_eq_some_iff, toOption_readCron] at hx ⊢
  have hread := read_fold hx
  rw [fold_normalize_congr h] at hread
  obtain ⟨entry, hentry, hfold⟩ | hfields := (trimmed_normalize y).fold.read_cases hread
  · by_cases hy : normalize y = entry.1.toList
    · rw [hfold, ← hy] at hread
      exact .inl hread
    · exact .inr ⟨entry, hentry, hfold, hy⟩
  · exact .inl (toOption_read_of_readFields ((readFields_fold _).symm.trans hfields))

end SameIgnoringCase

end JobRoster
