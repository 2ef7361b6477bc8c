/-! Blocks of consecutive code points, the form in which character properties
are tabulated. -/

namespace EventScript.Text

/-- Consecutive code points, both ends included. -/
structure CodeRange where
  first : Nat
  last : Nat
deriving DecidableEq, Repr

namespace CodeRange

def contains (range : CodeRange) (code : Nat) : Bool :=
  range.first ≤ code && code ≤ range.last

end CodeRange

def inRanges (table : List CodeRange) (c : Char) : Bool :=
  table.any (·.contains c.toNat)

end EventScript.Text
