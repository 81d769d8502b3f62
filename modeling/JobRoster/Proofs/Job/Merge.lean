import JobRoster.Job.Payload
import JobRoster.Proofs.Datum.Equality
import Mathlib.Tactic.Common

/-!
# Merging payloads

What a payload has under each name after another one was merged into it (`getElem?_merge`): the value of the other one,
if it has one, unless an equal value was there already. Merging it once more changes nothing (`merge_merge`), and what
merging tells is right (`merge_changed_iff`): it tells of a change exactly if the payload is not what it was.
-/

namespace JobRoster

namespace Payload

variable {p q : Payload} {name : String} {value : Datum}

theorem holds_iff : p.holds name value = true ↔ ∃ v, p[name]? = some v ∧ v.same value = true := by
  unfold holds
  split
  · next v hv => simp [hv]
  · next hv => simp [hv]

/-- A payload holds what it has. -/
theorem holds_of_getElem? (h : p[name]? = some value) : p.holds name value = true :=
  holds_iff.2 ⟨value, h, value.same_refl⟩

theorem put_of_holds (h : p.holds name value = true) : p.put name value = (p, false) := by
  rw [put, if_pos h]

theorem put_of_not_holds (h : p.holds name value = false) : p.put name value = (p.insert name value, true) := by
  rw [put, if_neg (Bool.eq_false_iff.1 h)]

/-- What is put under one name is held there then, and nothing else is touched. -/
theorem getElem?_put (p : Payload) (name : String) (value : Datum) (other : String) :
    (p.put name value).1[other]? = if name = other ∧ p.holds name value = false then some value else p[other]? := by
  cases h : p.holds name value with
  | true => simp [put_of_holds h]
  | false => simp [put_of_not_holds h, Std.ExtTreeMap.getElem?_insert]

/-- Whether a payload holds a value under a name depends on what it has under that name alone. -/
theorem holds_congr (h : p[name]? = q[name]?) : p.holds name value = q.holds name value := by
  unfold holds
  rw [h]

variable {fields : List (String × Datum)}

theorem getElem?_putAll_of_not_mem (p : Payload) (h : ∀ field ∈ fields, field.1 ≠ name) :
    (p.putAll fields).1[name]? = p[name]? := by
  induction fields generalizing p with
  | nil => rfl
  | cons field fields ih =>
    obtain ⟨hfirst, hrest⟩ := List.forall_mem_cons.1 h
    rw [putAll, ih _ hrest, getElem?_put, if_neg fun h => hfirst h.1]

/-- Where each name is put once, what is put under one of them is as if it were put alone. -/
theorem getElem?_putAll_of_mem (p : Payload) (hdistinct : fields.Pairwise fun a b => a.1 ≠ b.1)
    (h : (name, value) ∈ fields) : (p.putAll fields).1[name]? = (p.put name value).1[name]? := by
  induction fields generalizing p with
  | nil => cases h
  | cons field fields ih =>
    obtain ⟨hfirst, hdistinct⟩ := List.pairwise_cons.1 hdistinct
    rw [putAll]
    obtain rfl | h := List.mem_cons.1 h
    · exact getElem?_putAll_of_not_mem _ fun field hfield => (hfirst field hfield).symm
    · have hsame : (p.put field.1 field.2).1[name]? = p[name]? := by
        rw [getElem?_put, if_neg fun heq => hfirst _ h heq.1]
      rw [ih _ hdistinct h, getElem?_put, hsame, holds_congr hsame, getElem?_put]

/-- Where each name is put once, there is a change exactly if one of the values is not held. -/
theorem putAll_changed_iff (p : Payload) (hdistinct : fields.Pairwise fun a b => a.1 ≠ b.1) :
    (p.putAll fields).2 = true ↔ ∃ name value, (name, value) ∈ fields ∧ p.holds name value = false := by
  induction fields generalizing p with
  | nil => simp [putAll]
  | cons field fields ih =>
    obtain ⟨first, v⟩ := field
    obtain ⟨hfirst, hdistinct⟩ := List.pairwise_cons.1 hdistinct
    have hrest : ∀ name value, (name, value) ∈ fields →
        (p.put first v).1.holds name value = p.holds name value := by
      intro name value h
      refine holds_congr ?_
      rw [getElem?_put, if_neg fun heq => hfirst _ h heq.1]
    have hput : (p.put first v).2 = true ↔ p.holds first v = false := by
      cases hv : p.holds first v with
      | true => simp [put_of_holds hv]
      | false => simp [put_of_not_holds hv]
    rw [putAll, Bool.or_eq_true, ih _ hdistinct, hput]
    constructor
    · rintro (h | ⟨name, value, hmem, h⟩)
      · exact ⟨first, v, List.mem_cons_self, h⟩
      · exact ⟨name, value, List.mem_cons_of_mem _ hmem, hrest name value hmem ▸ h⟩
    · rintro ⟨name, value, hmem, h⟩
      obtain heq | hmem := List.mem_cons.1 hmem
      · cases heq
        exact .inl h
      · exact .inr ⟨name, value, hmem, (hrest name value hmem).trans h⟩

theorem distinct_toList (q : Payload) : q.toList.Pairwise fun a b => a.1 ≠ b.1 :=
  q.distinct_keys_toList.imp fun h heq => h (Std.compare_eq_iff_eq.2 heq)

/-- **A payload into which another one was merged** has the values of that one, but for those that it held before, and
its own values under all other names. -/
theorem getElem?_merge (p q : Payload) (name : String) :
    (p.merge q).1[name]? = match q[name]? with
      | some value => (p.put name value).1[name]?
      | none => p[name]? := by
  rw [merge]
  split
  · next value hvalue =>
    exact getElem?_putAll_of_mem p q.distinct_toList (Std.ExtTreeMap.mem_toList_iff_getElem?_eq_some.2 hvalue)
  · next hnone =>
    refine getElem?_putAll_of_not_mem p fun field hfield heq => ?_
    rw [← heq, Std.ExtTreeMap.mem_toList_iff_getElem?_eq_some.1 hfield] at hnone
    cases hnone

/-- After a merge the payload holds all that was merged into it. -/
theorem merge_holds (p : Payload) (h : q[name]? = some value) : (p.merge q).1.holds name value = true := by
  have hmerge : (p.merge q).1[name]? = (p.put name value).1[name]? := by rw [getElem?_merge, h]
  rw [holds_congr hmerge]
  cases hv : p.holds name value with
  | true => rw [put_of_holds hv, hv]
  | false =>
    rw [put_of_not_holds hv]
    exact holds_of_getElem? Std.ExtTreeMap.getElem?_insert_self

/-- Merging what is held already leaves a payload alone. -/
theorem merge_of_holds (h : ∀ name value, q[name]? = some value → p.holds name value = true) : (p.merge q).1 = p := by
  refine Std.ExtTreeMap.ext_getElem? fun name => ?_
  rw [getElem?_merge]
  split
  · next value hvalue => rw [put_of_holds (h name value hvalue)]
  · rfl

/-- **Merging a payload twice is merging it once.** -/
theorem merge_merge (p q : Payload) : ((p.merge q).1.merge q).1 = (p.merge q).1 :=
  merge_of_holds fun _ _ hvalue => merge_holds p hvalue

/-- **Merging tells of a change exactly if there is one.** -/
theorem merge_changed_iff (p q : Payload) : (p.merge q).2 = true ↔ (p.merge q).1 ≠ p := by
  have hchanged : (p.merge q).2 = true ↔ ∃ name value, q[name]? = some value ∧ p.holds name value = false := by
    rw [merge, putAll_changed_iff p q.distinct_toList]
    simp only [Std.ExtTreeMap.mem_toList_iff_getElem?_eq_some]
  rw [hchanged]
  constructor
  · rintro ⟨name, value, hvalue, hheld⟩ heq
    have hafter := merge_holds p hvalue
    rw [heq, hheld] at hafter
    cases hafter
  · intro hne
    by_contra hall
    refine hne (merge_of_holds fun name value hvalue => ?_)
    by_contra hheld
    exact hall ⟨name, value, hvalue, Bool.eq_false_iff.2 hheld⟩

/-- Merging that tells of no change leaves the payload alone. -/
theorem merge_unchanged (h : (p.merge q).2 = false) : (p.merge q).1 = p := by
  by_contra hne
  rw [(merge_changed_iff p q).2 hne] at h
  cases h

end Payload

end JobRoster
