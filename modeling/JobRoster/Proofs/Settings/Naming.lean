import JobRoster.Settings.Basic
import Mathlib.Data.List.Basic
import Std.Data.String.ToInt

/-!
# Names of groups, and which groups are meant by a name

A deletion that names a group means that group, or all whose names end with the given one (`GroupMatch.Reaches`); the
matcher that is made for it selects just these (`accepts_matcher_iff`).

The name of a group that is made from an integer has the stem, an underscore, and the integer in decimal. However many
underscores there are in the stem, what stands after the last one is the integer, so no two integers share a name, and
among the names with one stem none ends with another one (`groupName_endsWith_iff`).
-/

namespace JobRoster

/-! ### Groups that are meant -/

namespace GroupMatcher

variable {value group : String}

theorem accepts_equals_iff : (equals value).accepts group = true ↔ group = value := by
  simp [accepts]

theorem accepts_endsWith_iff : (endsWith value).accepts group = true ↔ ∃ front, group = front ++ value := by
  simp only [accepts, List.isSuffixOf_iff_suffix]
  constructor
  · rintro ⟨front, h⟩
    refine ⟨String.ofList front, String.ext ?_⟩
    rw [String.toList_append, String.toList_ofList, h]
  · rintro ⟨front, rfl⟩
    exact ⟨front.toList, String.toList_append.symm⟩

theorem accepts_startsWith_iff : (startsWith value).accepts group = true ↔ ∃ back, group = value ++ back := by
  simp only [accepts, List.isPrefixOf_iff_prefix]
  constructor
  · rintro ⟨back, h⟩
    refine ⟨String.ofList back, String.ext ?_⟩
    rw [String.toList_append, String.toList_ofList, h]
  · rintro ⟨back, rfl⟩
    exact ⟨back.toList, String.toList_append.symm⟩

theorem accepts_contains_iff : (contains value).accepts group = true ↔ ∃ front back, group = front ++ value ++ back := by
  rw [accepts, occursIn_iff]
  constructor
  · rintro ⟨front, back, h⟩
    refine ⟨String.ofList front, String.ofList back, String.ext ?_⟩
    rw [String.toList_append, String.toList_append, String.toList_ofList, String.toList_ofList, h]
  · rintro ⟨front, back, rfl⟩
    exact ⟨front.toList, back.toList, by rw [String.toList_append, String.toList_append]⟩

end GroupMatcher

namespace GroupMatch

/-- **Which groups are meant when one is named**: those whose names end with the given one, or that one only. -/
def Reaches : GroupMatch → String → String → Prop
  | suffix, named, group => ∃ front, group = front ++ named
  | exact, named, group => group = named

/-- The matcher for a group selects the groups that are meant. -/
theorem accepts_matcher_iff {m : GroupMatch} {named group : String} :
    (m.matcher named).accepts group = true ↔ m.Reaches named group := by
  cases m with
  | suffix => exact GroupMatcher.accepts_endsWith_iff
  | exact => exact GroupMatcher.accepts_equals_iff

end GroupMatch

/-! ### Names made from integers -/

/-- What stands before the last separator and what stands after it are determined by the whole. -/
theorem eq_of_separated {α : Type} {a : α} {front front' back back' : List α} (hback : a ∉ back) (hback' : a ∉ back')
    (h : front ++ a :: back = front' ++ a :: back') : front = front' ∧ back = back' := by
  rcases List.append_eq_append_iff.1 h with ⟨mid, hfront, hmid⟩ | ⟨mid, hfront, hmid⟩
  · cases mid with
    | nil => simpa using And.intro hfront.symm hmid
    | cons b mid =>
      simp only [List.cons_append, List.cons.injEq] at hmid
      exact absurd (hmid.2 ▸ List.mem_append_right mid List.mem_cons_self) hback
  · cases mid with
    | nil => simpa [eq_comm] using And.intro hfront hmid
    | cons b mid =>
      simp only [List.cons_append, List.cons.injEq] at hmid
      exact absurd (hmid.2 ▸ List.mem_append_right mid List.mem_cons_self) hback'

namespace Ident

theorem isDigit_of_mem_repr {c : Char} {n : Nat} (h : c ∈ n.repr.toList) : c.isDigit = true := by
  rw [Nat.repr_eq_ofList_toDigits, String.toList_ofList] at h
  exact Nat.isDigit_of_mem_toDigits (by omega) (by omega) h

/-- An integer is written with digits, and a minus perhaps. -/
theorem isDigit_of_mem_plain {c : Char} {i : Int} (h : c ∈ (integer i).plain.toList) : c = '-' ∨ c.isDigit = true := by
  rw [show (integer i).plain = i.repr from rfl, Int.repr_eq_if] at h
  split at h
  · exact .inr (isDigit_of_mem_repr h)
  · rw [String.toList_append, List.mem_append] at h
    rcases h with h | h
    · exact .inl (by simpa using h)
    · exact .inr (isDigit_of_mem_repr h)

theorem underscore_not_mem_plain (i : Int) : '_' ∉ (integer i).plain.toList := by
  intro h
  rcases isDigit_of_mem_plain h with h | h
  · cases h
  · cases h

theorem plain_integer_inj {i j : Int} : (integer i).plain = (integer j).plain ↔ i = j := Int.repr_inj

end Ident

namespace Naming

variable {n : Naming} {i j : Int}

/-- A stem with an integer ends with the stem and another integer only if the two are the same. -/
theorem eq_of_endsWith {stem : String}
    (h : ∃ front, stem ++ "_" ++ (Ident.integer i).plain = front ++ (stem ++ "_" ++ (Ident.integer j).plain)) :
    i = j := by
  obtain ⟨front, h⟩ := h
  have hlist : stem.toList ++ '_' :: (Ident.integer i).plain.toList =
      (front.toList ++ stem.toList) ++ '_' :: (Ident.integer j).plain.toList := by
    simpa [String.toList_append] using congrArg String.toList h
  have hback := (eq_of_separated (Ident.underscore_not_mem_plain i) (Ident.underscore_not_mem_plain j) hlist).2
  exact Ident.plain_integer_inj.1 (String.ext hback)

/-- **Among the names of groups with one stem, none ends with another one.** -/
theorem groupName_endsWith_iff :
    (∃ front, n.groupName (.integer i) = front ++ n.groupName (.integer j)) ↔ i = j := by
  constructor
  · exact eq_of_endsWith
  · rintro rfl
    exact ⟨"", String.empty_append.symm⟩

/-- With one stem, different integers make different names. -/
theorem stem_append_inj {stem : String} :
    stem ++ "_" ++ (Ident.integer i).plain = stem ++ "_" ++ (Ident.integer j).plain ↔ i = j := by
  constructor
  · intro h
    exact eq_of_endsWith ⟨"", h.trans String.empty_append.symm⟩
  · rintro rfl
    rfl

theorem jobName_inj : n.jobName (.integer i) = n.jobName (.integer j) ↔ i = j := stem_append_inj

theorem groupName_inj : n.groupName (.integer i) = n.groupName (.integer j) ↔ i = j := stem_append_inj

/-- Naming a group that is made from an integer means none that is made from another one. -/
theorem reaches_groupName_iff {m : GroupMatch} :
    m.Reaches (n.groupName (.integer j)) (n.groupName (.integer i)) ↔ i = j := by
  cases m with
  | suffix => exact groupName_endsWith_iff
  | exact => exact groupName_inj

end Naming

end JobRoster
