/-!
Sets of characters given by ranges of code points, both ends included.
-/

namespace Marshal.Text

def within (ranges : List (Nat × Nat)) (code : Nat) : Bool :=
  ranges.any fun range => range.1 ≤ code ∧ code ≤ range.2

end Marshal.Text
