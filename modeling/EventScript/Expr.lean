import EventScript.Text.Decimal
import EventScript.Text.Literal

/-! Expressions, the conditions and values inside instructions. They are kept as
trees for whoever runs a script; nothing here evaluates them. -/

namespace EventScript

/-! ## Operators -/

inductive BinaryOp where
  | add
  | subtract
  | multiply
  | divide
  | remainder
  | equal
  | notEqual
  | less
  | greater
  | lessEqual
  | greaterEqual
  | and
  | or
deriving DecidableEq, Repr

namespace BinaryOp

def symbol : BinaryOp → String
  | .add => "+"
  | .subtract => "-"
  | .multiply => "*"
  | .divide => "/"
  | .remainder => "%"
  | .equal => "=="
  | .notEqual => "!="
  | .less => "<"
  | .greater => ">"
  | .lessEqual => "<="
  | .greaterEqual => ">="
  | .and => "and"
  | .or => "or"

def all : List BinaryOp :=
  [.add, .subtract, .multiply, .divide, .remainder, .equal, .notEqual, .less, .greater,
   .lessEqual, .greaterEqual, .and, .or]

def ofSymbol? (symbol : String) : Option BinaryOp :=
  all.find? (·.symbol == symbol)

end BinaryOp

inductive UnaryOp where
  | negate
  | not
deriving DecidableEq, Repr

namespace UnaryOp

def symbol : UnaryOp → String
  | .negate => "-"
  | .not => "not"

def all : List UnaryOp :=
  [.negate, .not]

def ofSymbol? (symbol : String) : Option UnaryOp :=
  all.find? (·.symbol == symbol)

end UnaryOp

/-! ## Trees -/

inductive Literal where
  | boolean (value : Bool)
  | integer (value : Int)
  | text (value : String)
deriving DecidableEq, Repr

/-- An expression tree. `global` refers to a game variable, and `hasItem` asks whether
the player's inventory holds an item. -/
inductive Expr where
  | literal (value : Literal)
  | global (name : String)
  | hasItem (item : String)
  | binary (op : BinaryOp) (left right : Expr)
  | unary (op : UnaryOp) (operand : Expr)
deriving DecidableEq, Repr

/-! ## Rendering -/

namespace Literal

def render : Literal → String
  | .boolean true => "true"
  | .boolean false => "false"
  | .integer value => Text.Decimal.textOfInt value
  | .text value => "\"" ++ Text.escape value ++ "\""

end Literal

namespace Expr

def render : Expr → String
  | .literal value => value.render
  | .global name => name
  | .hasItem item => "has_item(" ++ item ++ ")"
  | .binary op left right => "(" ++ left.render ++ " " ++ op.symbol ++ " " ++ right.render ++ ")"
  | .unary .not operand => "not " ++ operand.render
  | .unary .negate operand => "-" ++ operand.render

end Expr

/-! ## Likeness

Scripts are compared by what their literals count as: `true` counts as one and
`false` as zero. -/

namespace Literal

def count? : Literal → Option Int
  | .boolean value => some (if value then 1 else 0)
  | .integer value => some value
  | .text _ => none

def alike : Literal → Literal → Bool
  | .text first, .text second => first == second
  | .text _, _ | _, .text _ => false
  | first, second => first.count? == second.count?

end Literal

namespace Expr

/-- Whether two trees are the same up to the likeness of literals. -/
def alike : Expr → Expr → Bool
  | .literal first, .literal second => first.alike second
  | .global first, .global second => first == second
  | .hasItem first, .hasItem second => first == second
  | .binary op left right, .binary op' left' right' =>
      op == op' && left.alike left' && right.alike right'
  | .unary op operand, .unary op' operand' => op == op' && operand.alike operand'
  | _, _ => false

end Expr

end EventScript
