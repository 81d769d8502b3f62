import JobRoster.Settings.Load
import Mathlib.Data.List.Basic
import Mathlib.Data.List.TakeWhile

/-!
# Replacing references

What becomes of a settings text that refers to the environment, said without running a search: where a text goes on with
a reference (`Refers`), what its parts are from left to right (`Scans`), what stands for them (`Substituted`), and which
name is reported if some are not set (`FirstUnset`). The parts are also those between which all references stand when
each is sought as the leftmost one after the one before (`Leftmost`), as a search for a pattern finds them.

What a name stands for can be said in two ways. A variable is set to the bytes that stand behind its name in the first
entry of that name (`Environment.IsSet`); a text is read under a name if bytes are found there that are one
(`Environment.Reads`). These differ where a name holds an equals sign, under which there may be a piece of the value of
another variable, and where a variable is set to bytes that are no text. What becomes of a text goes by what is read
(`expand_exact`), and so by what is set except where it comes to a name for which the two differ.
-/

namespace JobRoster.Settings

variable {c : Char} {cs rest before name after : List Char} {parts : List Piece} {env : Environment}

/-! ### Bytes -/

theorem utf8_ofList (cs : List Char) : utf8 (String.ofList cs) = cs.flatMap String.utf8EncodeChar := by
  rw [utf8, String.toByteArray_ofList, List.utf8Encode, List.data_toByteArray]

theorem utf8_inj {s t : String} : utf8 s = utf8 t ↔ s = t := by
  rw [utf8, utf8, Array.toList_inj, ← ByteArray.ext_iff, String.toByteArray_inj]

theorem utf8_eq_nil_iff {s : String} : utf8 s = [] ↔ s = "" := by
  rw [← utf8_inj]
  rfl

theorem ofUtf8?_eq_some_iff {bytes : List UInt8} {text : String} : ofUtf8? bytes = some text ↔ utf8 text = bytes := by
  have hbytes : text.toByteArray = bytes.toByteArray ↔ utf8 text = bytes := by
    rw [utf8, ByteArray.ext_iff, List.data_toByteArray, ← Array.toList_inj]
  rw [← hbytes, ofUtf8?, String.fromUTF8?]
  constructor
  · intro h
    split at h
    · cases h
      rfl
    · cases h
  · intro h
    rw [← h, dif_pos text.isValidUTF8]
    rfl

/-- Only the equals sign has its byte: all bytes of longer characters are 128 or more. -/
theorem equalsSign_mem_utf8EncodeChar_iff : equalsSign ∈ String.utf8EncodeChar c ↔ c = '=' := by
  constructor
  · intro h
    have hval : c.val.toNat = 0x3D := by
      unfold String.utf8EncodeChar at h
      dsimp only at h
      split_ifs at h <;> simp only [equalsSign, ← UInt8.toNat_inj, List.mem_cons, List.not_mem_nil, or_false,
        UInt8.toNat_ofNat, UInt8.toNat_ofNat'] at h <;> omega
    exact Char.ext (UInt32.toNat_inj.1 hval)
  · rintro rfl
    decide

theorem equalsSign_mem_utf8_iff {text : String} : equalsSign ∈ utf8 text ↔ '=' ∈ text.toList := by
  rw [← String.ofList_toList (s := text), utf8_ofList, List.mem_flatMap]
  simp [equalsSign_mem_utf8EncodeChar_iff]

/-! ### What a name stands for -/

/-- An entry sets a variable: the name is not empty, and ends before the first equals sign. -/
def Entry.Sets (e : Entry) (name value : List UInt8) : Prop :=
  name ≠ [] ∧ equalsSign ∉ name ∧ e.bytes = name ++ equalsSign :: value

/-- Bytes are a text. -/
def IsText (bytes : List UInt8) : Prop := ∃ text, utf8 text = bytes

namespace Environment

variable {name : String} {value value' : List UInt8}

/-- A value belongs to the first entry that has one. -/
def First (env : Environment) (has : Entry → List UInt8 → Prop) (value : List UInt8) : Prop :=
  ∃ earlier e later, env = earlier ++ e :: later ∧ has e value ∧ ∀ e' ∈ earlier, ∀ value', ¬ has e' value'

/-- **A variable is set to a value** by the first entry that sets it. -/
def IsSet (env : Environment) (name : String) : List UInt8 → Prop := env.First fun e => e.Sets (utf8 name)

/-- **A value is found under a name**: it stands behind the name and an equals sign in the first entry that begins
so. -/
def Finds (env : Environment) (name : String) (value : List UInt8) : Prop :=
  name ≠ "" ∧ env.First (fun e value => e.bytes = utf8 name ++ equalsSign :: value) value

/-- **A text is read under a name**: it is found there. -/
def Reads (env : Environment) (name : String) (value : List UInt8) : Prop := env.Finds name value ∧ IsText value

/-- **A name is misread**: something is read under it although no variable can have that name, or the variable is set to
what is no text. -/
def Misread (env : Environment) (name : String) : Prop :=
  ('=' ∈ name.toList ∧ ∃ value, env.Reads name value) ∨ ∃ value, env.IsSet name value ∧ ¬ IsText value

theorem find?_eq_some_iff : env.find? name = some value ↔ env.Finds name value := by
  unfold find? Finds
  split
  · next hempty => simp [hempty]
  · next hname =>
    simp only [List.findSome?_eq_some_iff, Option.eq_none_iff_forall_ne_some, ne_eq,
      List.isPrefixOf?_eq_some_iff_append_eq, List.append_assoc, List.singleton_append, hname, not_false_eq_true,
      true_and, First, @eq_comm _ _ (Entry.bytes _)]

theorem Finds.unique (h : env.Finds name value) (h' : env.Finds name value') : value = value' :=
  Option.some.inj ((find?_eq_some_iff.2 h).symm.trans (find?_eq_some_iff.2 h'))

theorem value_eq_ok_iff {text : String} : env.value name = .ok text ↔ env.Finds name (utf8 text) := by
  rw [← find?_eq_some_iff, value]
  split
  · next hnone => simp [hnone]
  · next bytes hbytes =>
    rw [hbytes, Option.some.injEq, eq_comm (a := bytes), ← ofUtf8?_eq_some_iff]
    split
    · next heq => simp [heq]
    · next heq => simp [heq]

/-- A text is read under a name exactly if its value is one. -/
theorem reads_iff : env.Reads name value ↔ ∃ text, env.value name = .ok text ∧ utf8 text = value := by
  simp only [value_eq_ok_iff, Reads, IsText]
  constructor
  · rintro ⟨hfinds, text, rfl⟩
    exact ⟨text, hfinds, rfl⟩
  · rintro ⟨text, hfinds, rfl⟩
    exact ⟨hfinds, text, rfl⟩

/-- **What a variable is set to is what is found under its name.** -/
theorem isSet_iff : env.IsSet name value ↔ '=' ∉ name.toList ∧ env.Finds name value := by
  simp only [IsSet, Finds, First, Entry.Sets, ne_eq, utf8_eq_nil_iff, equalsSign_mem_utf8_iff]
  by_cases hname : name = "" <;> by_cases heq : '=' ∈ name.toList <;> simp [hname, heq]

/-- What is set and read is not misread. -/
theorem not_misread (hset : env.IsSet name value) (hreads : env.Reads name value') : ¬ env.Misread name := by
  rintro (⟨heq, -⟩ | ⟨value'', hset', hnoText⟩)
  · exact (isSet_iff.1 hset).1 heq
  · exact hnoText ((isSet_iff.1 hset').2.unique hreads.1 ▸ hreads.2)

/-- **Under a name that is not misread there is what it is set to.** -/
theorem isSet_iff_reads (h : ¬ env.Misread name) : env.IsSet name value ↔ env.Reads name value := by
  constructor
  · intro hset
    refine ⟨(isSet_iff.1 hset).2, ?_⟩
    by_contra hnoText
    exact h (.inr ⟨value, hset, hnoText⟩)
  · intro hreads
    refine isSet_iff.2 ⟨fun heq => ?_, hreads.1⟩
    exact h (.inl ⟨heq, value, hreads⟩)

end Environment

/-! ### References -/

/-- **A text goes on with a reference** to a name: the name is closed by the first closing brace, and not empty. -/
def Refers (cs name after : List Char) : Prop :=
  name ≠ [] ∧ '\x7d' ∉ name ∧ cs = '$' :: '\x7b' :: (name ++ '\x7d' :: after)

theorem reference?_of_refers (h : Refers cs name after) : reference? cs = some (name, after) := by
  obtain ⟨hne, hopen, rfl⟩ := h
  have hname : ∀ c ∈ name, decide (c ≠ '\x7d') = true := by
    rintro c hc
    exact decide_eq_true fun h => hopen (h ▸ hc)
  have htake : (name ++ '\x7d' :: after).takeWhile (· ≠ '\x7d') = name := by
    rw [List.takeWhile_append_of_pos hname, List.takeWhile_cons_of_neg (by decide), List.append_nil]
  have hdrop : (name ++ '\x7d' :: after).dropWhile (· ≠ '\x7d') = '\x7d' :: after := by
    rw [List.dropWhile_append_of_pos hname, List.dropWhile_cons_of_neg (by decide)]
  have hnonempty : ¬ name.isEmpty = true := by simpa using hne
  simp only [reference?, htake, hdrop, if_neg hnonempty]

theorem refers_of_reference? (h : reference? cs = some (name, after)) : Refers cs name after := by
  unfold reference? at h
  split at h
  · next rest =>
    dsimp only at h
    split at h
    · next c after' hdrop =>
      split at h
      · cases h
      · next hne =>
        cases h
        obtain rfl : c = '\x7d' := by
          have hfirst := List.head?_dropWhile_not (· ≠ '\x7d') rest
          rw [hdrop] at hfirst
          simpa using hfirst
        refine ⟨by simpa using hne, fun hmem => ?_, ?_⟩
        · simpa using List.mem_takeWhile_imp hmem
        · rw [← hdrop, List.takeWhile_append_dropWhile]
    · cases h
  · cases h

theorem reference?_eq_some_iff : reference? cs = some (name, after) ↔ Refers cs name after :=
  ⟨refers_of_reference?, reference?_of_refers⟩

theorem reference?_eq_none_iff : reference? cs = none ↔ ∀ name after, ¬ Refers cs name after := by
  simp only [← reference?_eq_some_iff, Option.eq_none_iff_forall_ne_some, Prod.forall, ne_eq]

/-! ### Parts -/

/-- How a part is written. -/
def Piece.written : Piece → List Char
  | plain c => [c]
  | reference name => '$' :: '\x7b' :: (name ++ ['\x7d'])

/-- **The parts of a text from left to right**: wherever it goes on with a reference, that, and else one character. -/
inductive Scans : List Char → List Piece → Prop where
  /-- The text is at its end. -/
  | nil : Scans [] []
  /-- The text goes on with a reference, and then after that. -/
  | reference {cs name after : List Char} {parts : List Piece} :
      Refers cs name after → Scans after parts → Scans cs (.reference name :: parts)
  /-- The text does not go on with a reference. -/
  | plain {c : Char} {rest : List Char} {parts : List Piece} :
      (∀ name after, ¬ Refers (c :: rest) name after) → Scans rest parts → Scans (c :: rest) (.plain c :: parts)

theorem pieces_of_refers (h : Refers cs name after) : pieces cs = .reference name :: pieces after := by
  have hsome := reference?_of_refers h
  -- the search goes on only where there is a character
  obtain ⟨-, -, rfl⟩ := h
  rw [pieces]
  split
  · next heq =>
    cases hsome.symm.trans heq
    rfl
  · next heq => cases hsome.symm.trans heq

theorem pieces_of_not_refers (h : ∀ name after, ¬ Refers (c :: rest) name after) :
    pieces (c :: rest) = .plain c :: pieces rest := by
  have hnone := reference?_eq_none_iff.2 h
  rw [pieces]
  split
  · next heq => cases hnone.symm.trans heq
  · rfl

theorem pieces_nil : pieces [] = [] := by rw [pieces]

theorem Scans.pieces_eq (h : Scans cs parts) : pieces cs = parts := by
  induction h with
  | nil => exact pieces_nil
  | reference href _ ih => rw [pieces_of_refers href, ih]
  | plain hnot _ ih => rw [pieces_of_not_refers hnot, ih]

theorem scans_pieces (cs : List Char) : Scans cs (pieces cs) := by
  induction cs using pieces.induct with
  | case1 => exact pieces_nil ▸ .nil
  | case2 c rest name after hsome ih =>
    have href := refers_of_reference? hsome
    rw [pieces_of_refers href]
    exact .reference href ih
  | case3 c rest hnone ih =>
    have hnot := reference?_eq_none_iff.1 hnone
    rw [pieces_of_not_refers hnot]
    exact .plain hnot ih

/-- The parts are found, whatever the text is, and there is no other way to divide it. -/
theorem scans_iff : Scans cs parts ↔ parts = pieces cs :=
  ⟨fun h => h.pieces_eq.symm, fun h => h ▸ scans_pieces cs⟩

/-- Put one after another the parts are the text. -/
theorem Scans.flatMap_written (h : Scans cs parts) : parts.flatMap Piece.written = cs := by
  induction h with
  | nil => rfl
  | reference href _ ih =>
    obtain ⟨-, -, rfl⟩ := href
    rw [List.flatMap_cons, ih, Piece.written]
    simp
  | plain _ _ ih => rw [List.flatMap_cons, ih, Piece.written, List.singleton_append]

/-! ### The leftmost references -/

/-- No reference begins in what stands at the front of a text. -/
def Silent (before rest : List Char) : Prop :=
  ∀ u v, before = u ++ v → v ≠ [] → ∀ name after, ¬ Refers (v ++ rest) name after

/-- **References sought one after another**, each the leftmost one after the one before. What stands between them is
left as it is. -/
inductive Leftmost : List Char → List Piece → Prop where
  /-- There are no more references. -/
  | last {cs : List Char} : Silent cs [] → Leftmost cs (cs.map .plain)
  /-- There is one, and none further left. -/
  | next {before rest name after : List Char} {parts : List Piece} : Silent before rest → Refers rest name after →
      Leftmost after parts → Leftmost (before ++ rest) (before.map .plain ++ .reference name :: parts)

theorem silent_nil (rest : List Char) : Silent [] rest :=
  fun _ _ h hv => absurd (List.append_eq_nil_iff.1 h.symm).2 hv

theorem silent_cons_iff :
    Silent (c :: before) rest ↔ (∀ name after, ¬ Refers (c :: (before ++ rest)) name after) ∧ Silent before rest := by
  constructor
  · intro h
    exact ⟨h [] (c :: before) rfl (List.cons_ne_nil _ _), fun u v huv => h (c :: u) v (congrArg (c :: ·) huv)⟩
  · rintro ⟨hnot, hbefore⟩ u v huv hv
    cases u with
    | nil =>
      obtain rfl : c :: before = v := huv
      exact hnot
    | cons d u => exact hbefore u v (List.cons.inj huv).2 hv

theorem pieces_append_of_silent (h : Silent before rest) :
    pieces (before ++ rest) = before.map .plain ++ pieces rest := by
  induction before with
  | nil => rfl
  | cons c before ih =>
    obtain ⟨hnot, hbefore⟩ := silent_cons_iff.1 h
    rw [List.cons_append, pieces_of_not_refers hnot, ih hbefore, List.map_cons, List.cons_append]

theorem Leftmost.pieces_eq (h : Leftmost cs parts) : pieces cs = parts := by
  induction h with
  | @last cs hsilent => simpa [pieces_nil] using pieces_append_of_silent hsilent
  | next hsilent href _ ih => rw [pieces_append_of_silent hsilent, pieces_of_refers href, ih]

/-- A character at which no reference begins is left as it is. -/
theorem Leftmost.plain (hnot : ∀ name after, ¬ Refers (c :: cs) name after) (h : Leftmost cs parts) :
    Leftmost (c :: cs) (.plain c :: parts) := by
  cases h with
  | last hsilent => exact .last (silent_cons_iff.2 ⟨by simpa using hnot, hsilent⟩)
  | next hsilent href hafter => exact .next (silent_cons_iff.2 ⟨hnot, hsilent⟩) href hafter

theorem Scans.leftmost (h : Scans cs parts) : Leftmost cs parts := by
  induction h with
  | nil => exact .last (silent_nil [])
  | reference href _ ih => exact .next (silent_nil _) href ih
  | plain hnot _ ih =>
    -- the character joins what stands before the next reference
    exact ih.plain hnot

/-- **Seeking the leftmost references divides a text into the same parts** as going through it. -/
theorem leftmost_iff : Leftmost cs parts ↔ parts = pieces cs :=
  ⟨fun h => h.pieces_eq.symm, fun h => h ▸ (scans_pieces cs).leftmost⟩

/-! ### What stands for the parts -/

section

variable {holds : String → List UInt8 → Prop} {out : List UInt8}

/-- **What becomes of the parts of a text**, as bytes, if every name in it holds some value: each reference gives place
to the value, and nothing is done to the values. -/
inductive Substituted (holds : String → List UInt8 → Prop) : List Piece → List UInt8 → Prop where
  /-- There are no more parts. -/
  | nil : Substituted holds [] []
  /-- A character stays where it is. -/
  | plain {c : Char} {parts : List Piece} {out : List UInt8} :
      Substituted holds parts out → Substituted holds (.plain c :: parts) (String.utf8EncodeChar c ++ out)
  /-- A value stands where the reference stood. -/
  | reference {name : List Char} {value : List UInt8} {parts : List Piece} {out : List UInt8} :
      holds (String.ofList name) value → Substituted holds parts out →
        Substituted holds (.reference name :: parts) (value ++ out)

/-- **The first name that holds nothing** among those that the parts of a text refer to. -/
def FirstUnset (holds : String → List UInt8 → Prop) (parts : List Piece) (name : String) : Prop :=
  (∀ value, ¬ holds name value) ∧ ∃ earlier later, parts = earlier ++ .reference name.toList :: later ∧
    ∀ other, .reference other ∈ earlier → ∃ value, holds (String.ofList other) value

/-- **What becomes of a text follows what its names hold**: either all of them hold something, and the text is given
back with the values in it, or the first one that does not is told. -/
def Follows (holds : String → List UInt8 → Prop) (parts : List Piece) : Except String String → Prop
  | .ok result => Substituted holds parts (utf8 result)
  | .error name => FirstUnset holds parts name

theorem Substituted.exists_value (h : Substituted holds parts out) {name : List Char} (hname : .reference name ∈ parts) :
    ∃ value, holds (String.ofList name) value := by
  induction h with
  | nil => cases hname
  | plain _ ih => exact ih (by simpa using hname)
  | reference hvalue _ ih =>
    rcases List.mem_cons.1 hname with heq | hrest
    · cases heq
      exact ⟨_, hvalue⟩
    · exact ih hrest

/-- Only what the names in a text hold makes a difference. -/
theorem Substituted.congr {holds' : String → List UInt8 → Prop} (h : Substituted holds parts out)
    (hsame : ∀ name, .reference name ∈ parts → ∀ value,
      holds (String.ofList name) value → holds' (String.ofList name) value) :
    Substituted holds' parts out := by
  induction h with
  | nil => exact .nil
  | plain _ ih => exact .plain (ih fun name hname => hsame name (List.mem_cons_of_mem _ hname))
  | reference hvalue _ ih =>
    exact .reference (hsame _ List.mem_cons_self _ hvalue) (ih fun name hname => hsame name (List.mem_cons_of_mem _ hname))

end

/-! ### What is read -/

section

variable {out : List UInt8}

theorem Substituted.eq_utf8 (h : Substituted env.Reads parts out) :
    out = utf8 (String.ofList (parts.flatMap (Piece.replaced env))) := by
  rw [utf8_ofList]
  induction h with
  | nil => rfl
  | plain _ ih => rw [List.flatMap_cons, List.flatMap_append, ← ih, Piece.replaced, List.flatMap_singleton]
  | reference hvalue _ ih =>
    obtain ⟨text, htext, rfl⟩ := Environment.reads_iff.1 hvalue
    simp only [List.flatMap_cons, List.flatMap_append, ← ih, Piece.replaced, htext, ← utf8_ofList,
      String.ofList_toList]

theorem substituted_of_reads (hreads : ∀ name, .reference name ∈ parts → ∃ value, env.Reads (String.ofList name) value) :
    Substituted env.Reads parts (utf8 (String.ofList (parts.flatMap (Piece.replaced env)))) := by
  suffices h : ∃ out, Substituted env.Reads parts out by
    obtain ⟨out, hout⟩ := h
    exact hout.eq_utf8 ▸ hout
  induction parts with
  | nil => exact ⟨[], .nil⟩
  | cons part parts ih =>
    obtain ⟨out, hout⟩ := ih fun name hname => hreads name (List.mem_cons_of_mem _ hname)
    cases part with
    | plain c => exact ⟨_, .plain hout⟩
    | reference name =>
      obtain ⟨value, hvalue⟩ := hreads name List.mem_cons_self
      exact ⟨_, .reference hvalue hout⟩

theorem missing?_eq_some_iff {part : Piece} {name : String} :
    part.missing? env = some name ↔ part = .reference name.toList ∧ ∀ value, ¬ env.Reads name value := by
  cases part with
  | plain c => simp [Piece.missing?]
  | reference cs =>
    rw [Piece.missing?, Piece.reference.injEq]
    constructor
    · intro h
      split at h
      · cases h
      · next lack hlack =>
        cases h
        refine ⟨String.toList_ofList.symm, fun value hvalue => ?_⟩
        obtain ⟨text, htext, -⟩ := Environment.reads_iff.1 hvalue
        cases hlack.symm.trans htext
    · rintro ⟨rfl, hnone⟩
      rw [String.ofList_toList]
      split
      · next text htext => exact absurd (Environment.reads_iff.2 ⟨text, htext, rfl⟩) (hnone _)
      · rfl

theorem missing?_eq_none_iff {part : Piece} :
    part.missing? env = none ↔ ∀ name, part = .reference name → ∃ value, env.Reads (String.ofList name) value := by
  rw [Option.eq_none_iff_forall_ne_some]
  simp only [ne_eq, missing?_eq_some_iff, not_and, not_forall, not_not]
  constructor
  · rintro h name rfl
    exact h (String.ofList name) (by rw [String.toList_ofList])
  · rintro h name rfl
    simpa only [String.ofList_toList] using h name.toList rfl

theorem findSome?_missing?_eq_some_iff {name : String} :
    parts.findSome? (Piece.missing? env) = some name ↔ FirstUnset env.Reads parts name := by
  simp only [List.findSome?_eq_some_iff, missing?_eq_some_iff, missing?_eq_none_iff, FirstUnset]
  constructor
  · rintro ⟨earlier, _, later, hparts, ⟨rfl, hnone⟩, hset⟩
    exact ⟨hnone, earlier, later, hparts, fun other hother => hset _ hother other rfl⟩
  · rintro ⟨hnone, earlier, later, hparts, hset⟩
    refine ⟨earlier, _, later, hparts, ⟨rfl, hnone⟩, ?_⟩
    rintro _ hpart other rfl
    exact hset other hpart

theorem findSome?_missing?_eq_none_iff : parts.findSome? (Piece.missing? env) = none ↔
    ∀ name, .reference name ∈ parts → ∃ value, env.Reads (String.ofList name) value := by
  simp only [List.findSome?_eq_none_iff, missing?_eq_none_iff]
  constructor
  · intro h name hname
    exact h _ hname name rfl
  · rintro h _ hpart name rfl
    exact h name hpart

end

/-! ### Texts -/

/-- A text is given back if a text is read under all names in it. -/
theorem exists_expand_eq_ok_iff {text : String} : (∃ result, expand env text = .ok result) ↔
    ∀ name, .reference name ∈ pieces text.toList → ∃ value, env.Reads (String.ofList name) value := by
  rw [← findSome?_missing?_eq_none_iff, expand]
  split
  · next heq => simp [heq]
  · next heq => simp [heq]

theorem expand_eq_ok_iff {text result : String} :
    expand env text = .ok result ↔ Substituted env.Reads (pieces text.toList) (utf8 result) := by
  constructor
  · intro h
    have hreads := exists_expand_eq_ok_iff.1 ⟨result, h⟩
    rw [expand, findSome?_missing?_eq_none_iff.2 hreads] at h
    cases h
    exact substituted_of_reads hreads
  · intro h
    have hnone := findSome?_missing?_eq_none_iff.2 fun name hname => h.exists_value hname
    rw [expand, hnone]
    exact congrArg Except.ok (utf8_inj.1 h.eq_utf8).symm

theorem expand_eq_error_iff {text name : String} :
    expand env text = .error name ↔ FirstUnset env.Reads (pieces text.toList) name := by
  rw [← findSome?_missing?_eq_some_iff, expand]
  split
  · next heq => simp [heq]
  · next heq => simp [heq]

/-- **What becomes of a text follows what is read under its names.** -/
theorem expand_eq_iff {text : String} {r : Except String String} :
    expand env text = r ↔ Follows env.Reads (pieces text.toList) r := by
  cases r with
  | ok result => exact expand_eq_ok_iff
  | error name => exact expand_eq_error_iff

/-- Settings cannot be loaded for want of a variable exactly if that is what became of their text. -/
theorem load_eq_variableNotSet_iff {text name : String} :
    load env text = .error (.variableNotSet name) ↔ expand env text = .error name := by
  unfold load
  split
  · next heq => simp [heq]
  · next heq =>
    simp only [heq, reduceCtorEq, iff_false]
    split
    · exact fun h => nomatch h
    · split
      · exact fun h => nomatch h
      · exact fun h => nomatch h

/-! ### What is set -/

section

variable {text : String} {r : Except String String} {earlier later : List Piece}

/-- **Another name is told first**: one that is neither set nor read is among the parts that come earlier. -/
def Preempted (env : Environment) (earlier : List Piece) : Prop :=
  ∃ other, .reference other ∈ earlier ∧
    ∀ value, ¬ env.IsSet (String.ofList other) value ∧ ¬ env.Reads (String.ofList other) value

/-- Where something is read under every name up to a misread one, the misread one is not preempted. -/
theorem not_preempted (h : ∀ other, .reference other ∈ earlier → ∃ value, env.Reads (String.ofList other) value) :
    ¬ Preempted env earlier := by
  rintro ⟨other, hother, hnone⟩
  obtain ⟨value, hvalue⟩ := h other hother
  exact (hnone value).2 hvalue

/-- A misread name that is not preempted comes before the first name that is neither set nor read. -/
theorem mem_of_not_preempted {earlier' later' : List Piece} {other : List Char}
    (hparts : earlier ++ .reference name :: later = earlier' ++ .reference other :: later')
    (hmisread : env.Misread (String.ofList name)) (hearlier : ¬ Preempted env earlier)
    (hnone : ∀ value, ¬ env.IsSet (String.ofList other) value ∧ ¬ env.Reads (String.ofList other) value) :
    .reference name ∈ earlier' := by
  have hne : name ≠ other := by
    rintro rfl
    obtain ⟨-, value, hvalue⟩ | ⟨value, hvalue, -⟩ := hmisread
    · exact (hnone value).2 hvalue
    · exact (hnone value).1 hvalue
  obtain ⟨gap, rfl, hrest⟩ | ⟨gap, rfl, hrest⟩ := List.append_eq_append_iff.1 hparts
  · cases gap with
    | nil => exact absurd (Piece.reference.inj (List.cons.inj hrest).1) hne
    | cons part gap =>
      obtain ⟨rfl, -⟩ := List.cons.inj hrest
      simp
  · cases gap with
    | nil => exact absurd (Piece.reference.inj (List.cons.inj hrest).1).symm hne
    | cons part gap =>
      obtain ⟨rfl, -⟩ := List.cons.inj hrest
      exact absurd ⟨other, by simp, hnone⟩ hearlier

/-- Where all misread names are preempted, none of those up to which something is read is misread. -/
theorem not_misread_of_reads (hparts : parts = earlier ++ later)
    (hreads : ∀ other, .reference other ∈ earlier → ∃ value, env.Reads (String.ofList other) value)
    (hpre : ∀ earlier name later, parts = earlier ++ .reference name :: later → env.Misread (String.ofList name) →
      Preempted env earlier) (hname : .reference name ∈ earlier) : ¬ env.Misread (String.ofList name) := by
  intro hmisread
  obtain ⟨front, back, rfl⟩ := List.append_of_mem hname
  have hfront : Preempted env front := hpre front name (back ++ later) (by simp [hparts]) hmisread
  exact not_preempted (fun other hother => hreads other (List.mem_append_left _ hother)) hfront

/-- **What follows what is read follows what is set** exactly if all misread names are preempted. -/
theorem follows_isSet_iff (h : Follows env.Reads parts r) : Follows env.IsSet parts r ↔
    ∀ earlier name later, parts = earlier ++ .reference name :: later → env.Misread (String.ofList name) →
      Preempted env earlier := by
  constructor
  · intro h' earlier name later hparts hmisread
    by_contra hearlier
    obtain ⟨⟨value, hset⟩, ⟨value', hreads⟩⟩ : (∃ value, env.IsSet (String.ofList name) value) ∧
        ∃ value, env.Reads (String.ofList name) value := by
      cases r with
      | ok result =>
        have hname : .reference name ∈ parts := hparts ▸ List.mem_append_right _ List.mem_cons_self
        exact ⟨Substituted.exists_value h' hname, Substituted.exists_value h hname⟩
      | error other =>
        obtain ⟨hunread, front, back, hfront, hallRead⟩ := h
        obtain ⟨hunset, front', back', hfront', hallSet⟩ := h'
        rw [← String.ofList_toList (s := other)] at hunread hunset
        have hnone value := And.intro (hunset value) (hunread value)
        exact ⟨hallSet name (mem_of_not_preempted (hparts.symm.trans hfront') hmisread hearlier hnone),
          hallRead name (mem_of_not_preempted (hparts.symm.trans hfront) hmisread hearlier hnone)⟩
    exact Environment.not_misread hset hreads hmisread
  · intro hpre
    cases r with
    | ok result =>
      refine Substituted.congr h fun name hname value hreads => ?_
      have hmisread := not_misread_of_reads (List.append_nil parts).symm
        (fun other hother => Substituted.exists_value h hother) hpre hname
      exact (Environment.isSet_iff_reads hmisread).2 hreads
    | error other =>
      obtain ⟨hunread, front, back, hfront, hallRead⟩ := h
      have hother : ¬ env.Misread other := by
        intro hmisread
        rw [← String.ofList_toList (s := other)] at hmisread
        exact not_preempted hallRead (hpre front _ back hfront hmisread)
      refine ⟨fun value hset => hunread value ((Environment.isSet_iff_reads hother).1 hset), front, back, hfront, ?_⟩
      intro name hname
      obtain ⟨value, hreads⟩ := hallRead name hname
      have hmisread := not_misread_of_reads hfront hallRead hpre hname
      exact ⟨value, (Environment.isSet_iff_reads hmisread).2 hreads⟩

end

/-- **What becomes of a text** is what a reader going through it from left to right would make of it. The text has parts
in one way only, and seeking the leftmost reference again and again finds the same ones. If a text is read under every
name, each reference gives place to it, while all else stays where it is, and values are not looked through. Otherwise
the first name under which none is read is told, whatever comes after it, also when settings are loaded. So it is what
the variables are set to that stands in the text, or the first that is not set that is told, exactly if every misread
name in the text comes after one that is neither set nor read. -/
theorem expand_exact (env : Environment) (text : String) :
    ∃ parts, (∀ parts', Scans text.toList parts' ↔ parts' = parts) ∧
      (∀ parts', Leftmost text.toList parts' ↔ parts' = parts) ∧ parts.flatMap Piece.written = text.toList ∧
      ((∃ result, expand env text = .ok result) ↔
        ∀ name, .reference name ∈ parts → ∃ value, env.Reads (String.ofList name) value) ∧
      (∀ r, expand env text = r ↔ Follows env.Reads parts r) ∧
      (∀ name, load env text = .error (.variableNotSet name) ↔ FirstUnset env.Reads parts name) ∧
      (Follows env.IsSet parts (expand env text) ↔
        ∀ earlier name later, parts = earlier ++ .reference name :: later → env.Misread (String.ofList name) →
          Preempted env earlier) :=
  ⟨pieces text.toList, fun _ => scans_iff, fun _ => leftmost_iff, (scans_pieces _).flatMap_written,
    exists_expand_eq_ok_iff, fun _ => expand_eq_iff, fun _ => load_eq_variableNotSet_iff.trans expand_eq_error_iff,
    follows_isSet_iff (expand_eq_iff.1 rfl)⟩

/-- A name may look like a reference, and so may a value; an empty reference and one that is not closed stay. -/
example : expand [("a$\x7b", "$\x7bb\x7d")] "<$\x7ba$\x7b\x7d>$\x7b\x7d$\x7ba" =
    .ok "<$\x7bb\x7d>$\x7b\x7d$\x7ba" := by
  decide +kernel

/-- The variable `CRED` is set to a byte that is no text, and is told not to be set; the variable `A` is set to `B=C`,
and stands for a variable `A=B`, which is not set. -/
theorem exists_misread : (∃ (env : Environment) (parts : List Piece), Scans "$\x7bCRED\x7d".toList parts ∧
      env.IsSet "CRED" [0xFF] ∧ expand env "$\x7bCRED\x7d" = .error "CRED" ∧
        ¬ Follows env.IsSet parts (expand env "$\x7bCRED\x7d")) ∧
    ∃ (env : Environment) (parts : List Piece), Scans "$\x7bA=B\x7d".toList parts ∧
      env.IsSet "A" (utf8 "B=C") ∧ (∀ value, ¬ env.IsSet "A=B" value) ∧ expand env "$\x7bA=B\x7d" = .ok "C" ∧
        ¬ Follows env.IsSet parts (expand env "$\x7bA=B\x7d") := by
  constructor
  · let env : Environment := [⟨[0x43, 0x52, 0x45, 0x44, 0x3D, 0xFF], by decide⟩]
    have hset : env.IsSet "CRED" [0xFF] :=
      ⟨[], _, [], rfl, ⟨by decide +kernel, by decide +kernel, by decide +kernel⟩, by simp⟩
    have hexpand : expand env "$\x7bCRED\x7d" = .error "CRED" := by decide +kernel
    refine ⟨env, _, scans_pieces _, hset, hexpand, ?_⟩
    rw [hexpand]
    exact fun h => h.1 _ hset
  · let env : Environment := [("A", "B=C")]
    have hset : env.IsSet "A" (utf8 "B=C") :=
      ⟨[], _, [], rfl, ⟨by decide +kernel, by decide +kernel, by decide +kernel⟩, by simp⟩
    have hunset value : ¬ env.IsSet "A=B" value := fun h => (Environment.isSet_iff.1 h).1 (by decide +kernel)
    have hexpand : expand env "$\x7bA=B\x7d" = .ok "C" := by decide +kernel
    have hname : .reference "A=B".toList ∈ pieces "$\x7bA=B\x7d".toList := by decide +kernel
    refine ⟨env, _, scans_pieces _, hset, hunset, hexpand, ?_⟩
    rw [hexpand]
    intro h
    obtain ⟨value, hvalue⟩ := Substituted.exists_value h hname
    exact hunset value (by simpa only [String.ofList_toList] using hvalue)

end JobRoster.Settings
