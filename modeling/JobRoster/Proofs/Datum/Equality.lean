import JobRoster.Datum.Basic

/-!
# Equality of data values

Two data values are equal exactly if they are one and the same but for the signs of zeros (`same_iff`), so equality of
data values is an equivalence relation. An integer is never equal to a number with a point.
-/

namespace JobRoster.Datum

mutual

/-- A value without the signs of the zeros in it. -/
def dropZeroSigns : Datum → Datum
  | .real x => .real x.dropZeroSign
  | .list items => .list (dropItemSigns items)
  | .record fields => .record (dropFieldSigns fields)
  | .null => .null
  | .boolean b => .boolean b
  | .integer i => .integer i
  | .text s => .text s

/-- The items of a list without the signs of the zeros in them. -/
def dropItemSigns : List Datum → List Datum
  | [] => []
  | d :: items => d.dropZeroSigns :: dropItemSigns items

/-- The fields of a record without the signs of the zeros in them. -/
def dropFieldSigns : List (String × Datum) → List (String × Datum)
  | [] => []
  | (name, d) :: fields => (name, d.dropZeroSigns) :: dropFieldSigns fields

end

mutual

/-- **Two values are equal exactly if they are the same but for the signs of zeros.** -/
theorem same_iff : ∀ d e : Datum, d.same e = true ↔ d.dropZeroSigns = e.dropZeroSigns
  | .null, e => by cases e <;> simp [same, dropZeroSigns]
  | .boolean b, e => by cases e <;> simp [same, dropZeroSigns]
  | .integer i, e => by cases e <;> simp [same, dropZeroSigns]
  | .real x, e => by cases e <;> simp [same, dropZeroSigns, Binary64.same_iff]
  | .text s, e => by cases e <;> simp [same, dropZeroSigns]
  | .list items, e => by cases e <;> simp [same, dropZeroSigns, sameItems_iff items]
  | .record fields, e => by cases e <;> simp [same, dropZeroSigns, sameFields_iff fields]

theorem sameItems_iff : ∀ ds es : List Datum, sameItems ds es = true ↔ dropItemSigns ds = dropItemSigns es
  | [], es => by cases es <;> simp [sameItems, dropItemSigns]
  | d :: ds, [] => by simp [sameItems, dropItemSigns]
  | d :: ds, e :: es => by simp [sameItems, dropItemSigns, same_iff d e, sameItems_iff ds es]

theorem sameFields_iff : ∀ fs gs : List (String × Datum),
    sameFields fs gs = true ↔ dropFieldSigns fs = dropFieldSigns gs
  | [], gs => by cases gs <;> simp [sameFields, dropFieldSigns]
  | f :: fs, [] => by simp [sameFields, dropFieldSigns]
  | (name, d) :: fs, (name', e) :: gs => by
    simp [sameFields, dropFieldSigns, same_iff d e, sameFields_iff fs gs]

end

/-- One is not one point nought, but nought is minus nought. -/
example : (integer 1).same (.real ⟨false, 1023 * 2 ^ 52, by decide⟩) = false ∧
    (real .zero).same (.real Binary64.zero.negate) = true := by
  decide +kernel

theorem same_refl (d : Datum) : d.same d = true := (same_iff d d).2 rfl

/-- Equality of data values is an equivalence relation. -/
theorem same_equivalence : Equivalence fun d e : Datum => d.same e = true where
  refl := same_refl
  symm h := (same_iff _ _).2 ((same_iff _ _).1 h).symm
  trans h h' := (same_iff _ _).2 (((same_iff _ _).1 h).trans ((same_iff _ _).1 h'))

theorem dropFieldSigns_eq_map (fields : List (String × Datum)) :
    dropFieldSigns fields = fields.map fun field => (field.1, field.2.dropZeroSigns) := by
  induction fields with
  | nil => rfl
  | cons field fields ih => rw [dropFieldSigns, ih, List.map_cons]

end JobRoster.Datum
