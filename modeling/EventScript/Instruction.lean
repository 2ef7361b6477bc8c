import EventScript.Display
import EventScript.Expr

/-! Instructions, the steps of a section. -/

namespace EventScript

/-- The built-in behaviours that a script can invoke. -/
inductive Special where
  | shopBuy
  | shopSell
deriving DecidableEq, Repr

namespace Special

def symbol : Special → String
  | .shopBuy => "shop_buy"
  | .shopSell => "shop_sell"

def all : List Special :=
  [.shopBuy, .shopSell]

def ofSymbol? (symbol : String) : Option Special :=
  all.find? (·.symbol == symbol)

end Special

structure Choice where
  label : String
  target : String
deriving DecidableEq, Repr

inductive Instruction where
  | jump (target : String)
  | jumpIf (target : String) (condition : Expr)
  | talk (textId : String) (choices : List Choice)
  | assign (name : String) (value : Expr)
  | receiveMoney (amount : Expr)
  | removeItem (item : String)
  | special (behaviour : Special)
deriving DecidableEq, Repr

namespace Choice

def render (choice : Choice) : String :=
  "(" ++ choice.label ++ ", " ++ choice.target ++ ")"

def display (choice : Choice) : Display :=
  .list [.text choice.label, .text choice.target]

end Choice

namespace Instruction

/-! ## Source form -/

def render : Instruction → String
  | .jump target => "jump(" ++ target ++ ")"
  | .jumpIf target condition => "jump_if(" ++ target ++ ", " ++ condition.render ++ ")"
  | .talk textId [] => "talk(" ++ textId ++ ")"
  | .talk textId choices =>
      "talk(" ++ textId ++ ", [" ++ ", ".intercalate (choices.map Choice.render) ++ "])"
  | .assign name value => "gset(" ++ name ++ ", " ++ value.render ++ ")"
  | .receiveMoney amount => "receive_money(" ++ amount.render ++ ")"
  | .removeItem item => "remove_item(" ++ item ++ ")"
  | .special behaviour => "special(" ++ behaviour.symbol ++ ")"

/-! ## Display form -/

def kind : Instruction → String
  | .jump _ => "jump"
  | .jumpIf _ _ => "jump_if"
  | .talk _ _ => "talk"
  | .assign _ _ => "gset"
  | .receiveMoney _ => "receive_money"
  | .removeItem _ => "remove_item"
  | .special _ => "special"

def fields : Instruction → List (String × Display)
  | .jump target => [("section", .text target)]
  | .jumpIf target condition =>
      [("section", .text target), ("condition", .text condition.render)]
  | .talk textId choices =>
      [("text_id", .text textId), ("choices", .list (choices.map Choice.display))]
  | .assign name value => [("var_name", .text name), ("value", .text value.render)]
  | .receiveMoney amount => [("amount", .text amount.render)]
  | .removeItem item => [("item_id", .text item)]
  | .special behaviour => [("special", .text behaviour.symbol)]

def display (instruction : Instruction) : Display :=
  .record (("kind", .text instruction.kind) :: instruction.fields)

/-! ## Likeness -/

def alike : Instruction → Instruction → Bool
  | .jumpIf target condition, .jumpIf target' condition' =>
      target == target' && condition.alike condition'
  | .assign name value, .assign name' value' => name == name' && value.alike value'
  | .receiveMoney amount, .receiveMoney amount' => amount.alike amount'
  | first, second => first == second

end Instruction

end EventScript
