/-! Indices from either end. Beyond the end an index stands for itself. -/

namespace EventScript.Text

def index? (length : Nat) (index : Int) : Option Nat :=
  if 0 ≤ index then some index.toNat
  else if 0 ≤ index + length then some (index + length).toNat
  else none

end EventScript.Text
