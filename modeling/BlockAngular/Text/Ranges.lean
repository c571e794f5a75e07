/-! # Sets of characters as range bounds

A set of characters is kept as the increasing list of the code points where
membership changes: the first bound starts the first range, the second ends it,
and so on.
-/

namespace BlockAngular.Text

/-- Whether the code point lies in one of the ranges: it does exactly when an odd
    number of bounds is at or below it. -/
def inRanges (bounds : Array Nat) (c : Char) : Bool :=
  bounds.foldl (fun inside bound => if bound ≤ c.toNat then !inside else inside) false

end BlockAngular.Text
