import EventScript.Text.Decimal

/-! TOML values. Numbers are exact: a float is kept as the decimal fraction that the
document writes. -/

namespace EventScript.Toml

/-- A float may be one of the words for what is no number, and a zero has a sign too. -/
inductive FloatValue where
  | decimal (negative : Bool) (digits : Nat) (exponent : Int)
  | infinity (negative : Bool)
  | notANumber
deriving DecidableEq, Repr

namespace FloatValue

def signText (negative : Bool) : String :=
  if negative then "-" else ""

def text : FloatValue → String
  | .decimal negative digits exponent =>
      signText negative ++ Text.Decimal.textOfNat digits
        ++ "e" ++ Text.Decimal.textOfInt exponent
  | .infinity negative => signText negative ++ "inf"
  | .notANumber => "nan"

end FloatValue

inductive MomentKind where
  | dateTime
  | date
  | time
deriving DecidableEq, Repr

structure Moment where
  kind : MomentKind
  source : String
deriving DecidableEq, Repr

inductive Value where
  | text (value : String)
  | integer (value : Int)
  | float (value : FloatValue)
  | boolean (value : Bool)
  | moment (value : Moment)
  | array (items : List Value)
  | table (entries : List (String × Value))
deriving Repr

abbrev Table : Type := List (String × Value)

end EventScript.Toml
