import JobRoster.Proofs.Job.Merge

/-!
# Merging as a union

Payloads are equal exactly if they are the same but for the signs of zeros (`same_iff`), that is, if they have equal
values under the same names (`same_iff_forall`). Up to that, merging takes the values of the payload that is merged
where there are some, and the others where there are none (`getElem?_dropZeroSigns_merge`); so it does not matter how
three payloads are put together.

Main statement: `merge_union`.
-/

namespace JobRoster.Payload

variable {p q : Payload} {name : String} {value : Datum} {fields fields' : List (String × Datum)}

/-! ### Equality of payloads -/

/-- A payload without the signs of the zeros in it. -/
def dropZeroSigns (p : Payload) : Payload := p.map fun _ => Datum.dropZeroSigns

theorem getElem?_dropZeroSigns (p : Payload) (name : String) :
    p.dropZeroSigns[name]? = p[name]?.map Datum.dropZeroSigns := by
  rw [dropZeroSigns, Std.ExtTreeMap.getElem?_map]

/-- **Two payloads are equal exactly if they are the same but for the signs of zeros.** -/
theorem same_iff : p.same q = true ↔ p.dropZeroSigns = q.dropZeroSigns := by
  rw [same, Datum.sameFields_iff, Datum.dropFieldSigns_eq_map, Datum.dropFieldSigns_eq_map, ← Std.ExtTreeMap.toList_inj,
    dropZeroSigns, dropZeroSigns, Std.ExtTreeMap.toList_map, Std.ExtTreeMap.toList_map]

/-- Equality of payloads is an equivalence relation. -/
theorem same_equivalence : Equivalence fun p q : Payload => p.same q = true where
  refl _ := same_iff.2 rfl
  symm h := same_iff.2 (same_iff.1 h).symm
  trans h h' := same_iff.2 ((same_iff.1 h).trans (same_iff.1 h'))

/-- **Equal payloads have equal values under the same names.** -/
theorem same_iff_forall : p.same q = true ↔ (∀ name, name ∈ p ↔ name ∈ q) ∧
    ∀ (name : String) (v w : Datum), p[name]? = some v → q[name]? = some w → v.same w = true := by
  rw [same_iff]
  constructor
  · intro h
    have hname (name : String) : p[name]?.map Datum.dropZeroSigns = q[name]?.map Datum.dropZeroSigns := by
      rw [← getElem?_dropZeroSigns, h, getElem?_dropZeroSigns]
    refine ⟨fun name => ?_, fun name v w hv hw => (Datum.same_iff v w).2 ?_⟩
    · rw [Std.ExtTreeMap.mem_iff_isSome_getElem?, Std.ExtTreeMap.mem_iff_isSome_getElem?, ← Option.isSome_map, hname,
        Option.isSome_map]
    · simpa [hv, hw] using hname name
  · rintro ⟨hnames, hvalues⟩
    refine Std.ExtTreeMap.ext_getElem? fun name => ?_
    have hmem := hnames name
    rw [Std.ExtTreeMap.mem_iff_isSome_getElem?, Std.ExtTreeMap.mem_iff_isSome_getElem?] at hmem
    rw [getElem?_dropZeroSigns, getElem?_dropZeroSigns]
    cases hv : p[name]? with
    | none => simp_all
    | some v =>
      obtain ⟨w, hw⟩ := Option.isSome_iff_exists.1 (hmem.1 (by simp [hv]))
      rw [hw, Option.map_some, Option.map_some, (Datum.same_iff v w).1 (hvalues name v w hv hw)]

/-- A payload holds a value under a name if it has that but for the signs of zeros. -/
theorem holds_iff_dropZeroSigns :
    p.holds name value = true ↔ p.dropZeroSigns[name]? = some value.dropZeroSigns := by
  simp only [holds_iff, getElem?_dropZeroSigns, Option.map_eq_some_iff, Datum.same_iff]

/-! ### The order of the entries -/

/-- **The entries can be put in any order** where each name is put once. -/
theorem putAll_perm (h : fields.Perm fields') (hdistinct : fields.Pairwise fun a b => a.1 ≠ b.1) (p : Payload) :
    p.putAll fields = p.putAll fields' := by
  have hdistinct' := (h.pairwise_iff fun hab => hab.symm).1 hdistinct
  refine Prod.ext (Std.ExtTreeMap.ext_getElem? fun name => ?_) (Bool.eq_iff_iff.2 ?_)
  · by_cases hname : ∃ value, (name, value) ∈ fields
    · obtain ⟨value, hmem⟩ := hname
      rw [getElem?_putAll_of_mem p hdistinct hmem, getElem?_putAll_of_mem p hdistinct' (h.mem_iff.1 hmem)]
    · have hnone : ∀ field ∈ fields, field.1 ≠ name := by
        rintro field hfield rfl
        exact hname ⟨field.2, hfield⟩
      rw [getElem?_putAll_of_not_mem p hnone,
        getElem?_putAll_of_not_mem p fun field hfield => hnone field (h.mem_iff.2 hfield)]
  · simp only [putAll_changed_iff p hdistinct, putAll_changed_iff p hdistinct', h.mem_iff]

/-! ### Unions -/

/-- **Up to the signs of zeros a merge is a union** in which the payload that is merged comes first. -/
theorem getElem?_dropZeroSigns_merge (p q : Payload) (name : String) :
    (p.merge q).1.dropZeroSigns[name]? = q.dropZeroSigns[name]?.or p.dropZeroSigns[name]? := by
  rw [getElem?_dropZeroSigns q]
  cases hvalue : q[name]? with
  | some value => rw [Option.map_some, Option.some_or, holds_iff_dropZeroSigns.1 (merge_holds p hvalue)]
  | none => rw [Option.map_none, Option.none_or, getElem?_dropZeroSigns, getElem?_merge, hvalue, getElem?_dropZeroSigns]

theorem mem_merge_iff : name ∈ (p.merge q).1 ↔ name ∈ p ∨ name ∈ q := by
  have hmem (p : Payload) : name ∈ p ↔ p.dropZeroSigns[name]?.isSome = true := by
    rw [Std.ExtTreeMap.mem_iff_isSome_getElem?, getElem?_dropZeroSigns, Option.isSome_map]
  rw [hmem, hmem, hmem, getElem?_dropZeroSigns_merge, Option.isSome_or, Bool.or_eq_true, or_comm]

/-- **Merging tells of a change exactly if the payload is not equal to what it was.** -/
theorem merge_changed_iff_same : (p.merge q).2 = true ↔ (p.merge q).1.same p = false := by
  constructor
  · intro hchanged
    by_contra hsame
    rw [Bool.not_eq_false, same_iff] at hsame
    refine (merge_changed_iff p q).1 hchanged (merge_of_holds fun name value hvalue => ?_)
    rw [holds_iff_dropZeroSigns, ← hsame, ← holds_iff_dropZeroSigns]
    exact merge_holds p hvalue
  · intro hsame
    refine (merge_changed_iff p q).2 fun heq => ?_
    rw [heq, same_equivalence.refl] at hsame
    cases hsame

/-- Merging once more finds everything there, and says so. -/
theorem merge_again (p q : Payload) : (p.merge q).1.merge q = ((p.merge q).1, false) :=
  Prod.ext (merge_merge p q) (Bool.eq_false_iff.2 fun h => (merge_changed_iff _ q).1 h (merge_merge p q))

/-- Three payloads can be put together in two ways that differ in no more than the signs of zeros. -/
theorem merge_assoc_same (a b c : Payload) : ((a.merge b).1.merge c).1.same (a.merge (b.merge c).1).1 = true := by
  refine same_iff.2 (Std.ExtTreeMap.ext_getElem? fun name => ?_)
  simp only [getElem?_dropZeroSigns_merge, Option.or_assoc]

/-- **Merging is a union in which the payload that is merged has precedence**, and it tells rightly of changes, in
whatever order the entries come. The payload has all names of both then: under those of the payload that was merged it
has values equal to those, and under the others it has its own. It is told whether it is still equal to what it was.
Merging the same once more changes nothing, and says so; and of three payloads the last two may be merged first. -/
theorem merge_union (a b c : Payload) :
    (∀ fields, fields.Perm b.toList → a.putAll fields = a.merge b) ∧
      (∀ name, name ∈ (a.merge b).1 ↔ name ∈ a ∨ name ∈ b) ∧
      (∀ (name : String) (value : Datum), b[name]? = some value →
        ∃ v, (a.merge b).1[name]? = some v ∧ v.same value = true) ∧
      (∀ name, name ∉ b → (a.merge b).1[name]? = a[name]?) ∧
      ((a.merge b).2 = true ↔ (a.merge b).1.same a = false) ∧
      (a.merge b).1.merge b = ((a.merge b).1, false) ∧
      ((a.merge b).1.merge c).1.same (a.merge (b.merge c).1).1 = true := by
  refine ⟨fun fields h => ?_, fun _ => mem_merge_iff, fun name value hvalue => ?_, fun name hname => ?_,
    merge_changed_iff_same, merge_again a b, merge_assoc_same a b c⟩
  · exact (putAll_perm h.symm b.distinct_toList a).symm
  · exact holds_iff.1 (merge_holds a hvalue)
  · rw [getElem?_merge, Std.ExtTreeMap.getElem?_eq_none hname]

/-- Nought is there, and one is merged under the same name, and then minus nought. If minus nought is merged into one
first, nought stays; the two ends differ in a sign, and are equal. -/
theorem merge_union_of_zeros : ∃ (a b c : Payload) (fields : List (String × Datum)),
    (fields.Perm b.toList ∧ fields.map Prod.fst ≠ b.toList.map Prod.fst ∧ a.putAll fields = a.merge b) ∧
      (b["x"]? = some (.integer 1) ∧ ∃ v, (a.merge b).1["x"]? = some v ∧ v.same (.integer 1) = true) ∧
      ("y" ∉ b ∧ (a.merge b).1["y"]? = a["y"]?) ∧ (a.merge b).1.same a = false ∧
      ((a.merge b).1.merge c).1 ≠ (a.merge (b.merge c).1).1 ∧
      ((a.merge b).1.merge c).1.same (a.merge (b.merge c).1).1 = true := by
  let a : Payload := ((∅ : Payload).insert "x" (.real .zero)).insert "y" (.text "old")
  let b : Payload := ((∅ : Payload).insert "x" (.integer 1)).insert "z" .null
  let c : Payload := (∅ : Payload).insert "x" (.real Binary64.zero.negate)
  have hone : b["x"]? = some (.integer 1) := by
    rw [Std.ExtTreeMap.getElem?_insert, if_neg (by decide), Std.ExtTreeMap.getElem?_insert_self]
  have hother : "y" ∉ b := by simp [b, Std.ExtTreeMap.mem_insert]
  obtain ⟨hperm, -, hvalues, hrest, hchanged, -, hassoc⟩ := merge_union a b c
  refine ⟨a, b, c, b.toList.reverse, ⟨List.reverse_perm _, by decide +kernel, hperm _ (List.reverse_perm _)⟩,
    ⟨hone, hvalues _ _ hone⟩, ⟨hother, hrest _ hother⟩, hchanged.1 (by decide +kernel), fun heq => ?_, hassoc⟩
  have hminus : ((a.merge b).1.merge c).1["x"]? = some (.real Binary64.zero.negate) := rfl
  have hplus : (a.merge (b.merge c).1).1["x"]? = some (.real .zero) := rfl
  rw [heq, hplus, Option.some.injEq, Datum.real.injEq] at hminus
  exact absurd hminus (by decide)

end JobRoster.Payload
