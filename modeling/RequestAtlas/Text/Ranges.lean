/-!
# Ranges of code points
-/

namespace RequestAtlas.Text

/-- Whether a character lies in one of the given inclusive ranges of code points. -/
def inRanges (ranges : List (Nat × Nat)) (c : Char) : Bool :=
  ranges.any fun (lo, hi) => lo ≤ c.toNat && c.toNat ≤ hi

end RequestAtlas.Text
