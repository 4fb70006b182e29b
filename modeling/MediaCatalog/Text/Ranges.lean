/-!
Sets of characters given by the ascending ranges of their code points.
-/

namespace MediaCatalog.Text

/-- A range of code points; both ends belong to it. -/
abbrev CodeRange := Nat × Nat

/-- Ranges are ascending, so the search stops at the first one that ends at or after the
code point. -/
def memRanges (n : Nat) : List CodeRange → Bool
  | [] => false
  | (first, last) :: ranges => if n ≤ last then decide (first ≤ n) else memRanges n ranges

end MediaCatalog.Text
