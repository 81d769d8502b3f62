/-!
# Text up to the case of ASCII letters

Two texts are the same ignoring case when they differ at most in the case of the letters `a` to `z`. No other
letter has its case ignored, so `É` and `é` differ.
-/

namespace JobRoster.Text

/-- `cs` with each of the letters `A` to `Z` replaced by its small form. -/
def fold (cs : List Char) : List Char := cs.map Char.toLower

/-- Whether two texts are the same ignoring the case of ASCII letters. -/
def sameIgnoringCase (s t : String) : Bool := fold s.toList == fold t.toList

theorem sameIgnoringCase_iff {s t : String} :
    sameIgnoringCase s t = true ↔ fold s.toList = fold t.toList := by
  simp [sameIgnoringCase]

theorem sameIgnoringCase_refl (s : String) : sameIgnoringCase s s = true := by
  simp [sameIgnoringCase]

end JobRoster.Text
