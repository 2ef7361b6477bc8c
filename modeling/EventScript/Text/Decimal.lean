/-! Decimal numerals: integers written without leading zeros, and runs of digits
read back as numbers. -/

namespace EventScript.Text.Decimal

def ofNat (number : Nat) : List Char :=
  Nat.toDigits 10 number

def ofInt : Int → List Char
  | .ofNat number => ofNat number
  | .negSucc number => '-' :: ofNat (number + 1)

def textOfNat (number : Nat) : String :=
  String.ofList (ofNat number)

def textOfInt (number : Int) : String :=
  String.ofList (ofInt number)

/-- The most digits of an integer, leading zeros included. -/
def maxDigits : Nat := 4300

def toNat (digits : List Char) : Nat :=
  digits.foldl (fun value digit => value * 10 + (digit.toNat - '0'.toNat)) 0

end EventScript.Text.Decimal
