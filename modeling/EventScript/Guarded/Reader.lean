import EventScript.Grammar.Statement
import EventScript.Guarded.Run

/-! Readers. Expressions and instructions are read by index into the tokens of a text, with every
index checked and every loop held to pass something. The levels of expressions call one another, and
there is room for only so many calls at once. What is wrong in an expression is taken over by the
statement around it; that there is no room is not. -/

namespace EventScript.Guarded

open Run

abbrev Reader (α : Type) : Type :=
  Run (Array Token) Nat Fault α

namespace Reader

variable {α : Type}

/-! ## Tokens -/

def left (tokens : Array Token) (index : Nat) : Nat :=
  tokens.size - index

def tokenAt (index : Nat) : Reader Token := do
  match (← input)[index]? with
  | some token => return token
  | none => fail .outOfRange

def moveTo (index : Nat) : Reader Unit := do
  if index < (← input).size then put index else fail .outOfRange

def current : Reader Token := do
  tokenAt (← state)

def advance : Reader Token := do
  let token ← current
  if token.kind = .endOfInput then return token
  else
    moveTo ((← state) + 1)
    return token

def newlineRound (_ : Unit) : Reader (Unit ⊕ Unit) := do
  if (← current).kind = .newline then
    let _ ← advance
    return .inl ()
  else return .inr ()

def skipNewlines : Reader Unit :=
  rounds left newlineRound ()

/-! ## Operands -/

def complain (what : Complaint) : Reader α := do
  fail (.complaint what (← state))

def step : Reader Token := do
  let token ← advance
  skipNewlines
  return token

def expectInside (kind : TokenKind) : Reader Token := do
  if (← current).kind = kind then step else complain (.expected kind)

def toNumber (digits : String) : Reader Nat := do
  if digits.length ≤ Text.Decimal.maxDigits then return Text.Decimal.toNat digits.toList
  else fail .conversion

def number (digits : String) : Reader Nat :=
  handle (toNumber digits) fun
    | .conversion => complain .integerTooLong
    | broken => fail broken

def call : Reader Expr := do
  let start ← state
  let name ← step
  if name.value = "has_item" then
    let _ ← expectInside .leftParen
    let item ← expectInside .identifier
    let _ ← expectInside .rightParen
    return .hasItem item.value
  else fail (.complaint .unknownFunction start)

/-- An operand that is a word. The token behind it is looked at by its bare index, so a line
terminator there hides a parenthesis. -/
def word (name : String) : Reader Expr := do
  if name = "true" then
    let _ ← step
    return .literal (.boolean true)
  else if name = "false" then
    let _ ← step
    return .literal (.boolean false)
  else if name = "and" ∨ name = "or" ∨ name = "not" then complain .strayOperator
  else if (← tokenAt ((← state) + 1)).kind = .leftParen then call
  else
    let _ ← step
    return .global name

def operand (inside : Reader Expr) : Reader Expr := do
  let token ← current
  match token.kind with
  | .leftParen => do
      let _ ← step
      let value ← inside
      let _ ← expectInside .rightParen
      return value
  | .integer => do
      let value ← number token.value
      let _ ← step
      return .literal (.integer value)
  | .string => do
      let _ ← step
      return .literal (.text token.value)
  | .identifier => word token.value
  | _ => complain .expectedOperand

/-! ## Levels -/

def prefixed (applies : Token → Bool) (op : UnaryOp) (again tighter : Reader Expr) :
    Reader Expr := do
  if applies (← current) then
    let _ ← step
    let value ← again
    return .unary op value
  else tighter

def compared (tighter : Reader Expr) : Reader Expr := do
  let first ← tighter
  match (← current).binaryOpAt? .comparison with
  | none => return first
  | some op =>
      let _ ← step
      let second ← tighter
      return .binary op first second

def joinRound (level : Level) (tighter : Reader Expr) (value : Expr) :
    Reader (Expr ⊕ Expr) := do
  match (← current).binaryOpAt? level with
  | none => return .inr value
  | some op =>
      let _ ← step
      let right ← tighter
      return .inl (.binary op value right)

def joined (level : Level) (tighter : Reader Expr) : Reader Expr := do
  let first ← tighter
  rounds left (joinRound level tighter) first

mutual

/-- An expression of a level, with room for so many calls, this one included. A call that has
ended leaves its room to the next; what it needs besides other levels is not counted. -/
def read : (room : Nat) → Level → Reader Expr
  | 0, _ => fail .tooDeep
  | room + 1, .operand => operand (whole room)
  | room + 1, .sign =>
      prefixed (·.kind == .minus) .negate (read room .sign) (read room .operand)
  | room + 1, .negation =>
      prefixed (·.isWord "not") .not (read room .negation) (read room .comparison)
  | room + 1, .comparison => compared (read room .sum)
  | room + 1, level => joined level (read room level.tighter)

def whole : (room : Nat) → Reader Expr
  | 0 => fail .tooDeep
  | room + 1 => read room .disjunction

end

def expressionAhead (room : Nat) : Reader Expr := do
  skipNewlines
  whole room

def expression (room : Nat) : Reader Expr :=
  handle (expressionAhead room) fun
    | .complaint what index => do
        moveTo index
        fail (.refused ⟨what, ← current⟩)
    | broken => fail broken

/-! ## Argument lists -/

def token (condition : Token → Bool) (complaint : Complaint) : Reader Token := do
  let token ← current
  if condition token then advance else fail (.refused ⟨complaint, token⟩)

def expect (kind : TokenKind) : Reader Token :=
  token (·.kind == kind) (.expected kind)

def expectWord (word : String) : Reader Token :=
  token (·.isWord word) (.expectedWord word)

def expectEndOfLine : Reader Token :=
  token (·.kind == .newline) .expectedEndOfLine

def openArguments (keyword : String) : Reader Unit := do
  let _ ← expectWord keyword
  skipNewlines
  let _ ← expect .leftParen

def closeArguments : Reader Unit := do
  skipNewlines
  let _ ← expect .rightParen
  let _ ← expectEndOfLine

def argument (kind : TokenKind) : Reader Token := do
  skipNewlines
  expect kind

def name : Reader String := do
  let token ← argument .identifier
  return token.value

def comma : Reader Unit := do
  let _ ← argument .comma

/-! ## Choices -/

def choice : Reader Choice := do
  let _ ← argument .leftParen
  let label ← name
  comma
  let target ← name
  let _ ← argument .rightParen
  return ⟨label, target⟩

def choiceRound (found : List Choice) : Reader (List Choice ⊕ List Choice) := do
  if (← current).kind = .comma then
    let _ ← advance
    let next ← choice
    skipNewlines
    return .inl (found ++ [next])
  else return .inr found

def moreChoices (first : Choice) : Reader (List Choice) := do
  skipNewlines
  rounds left choiceRound [first]

/-! ## Instructions -/

def form (keyword : String) (inside : Reader Instruction) : Reader Instruction := do
  openArguments keyword
  let instruction ← inside
  closeArguments
  return instruction

def ofName (make : String → Instruction) : Reader Instruction := do
  let word ← name
  return make word

def ofNameAndExpression (room : Nat) (make : String → Expr → Instruction) :
    Reader Instruction := do
  let word ← name
  comma
  let value ← expression room
  return make word value

def ofExpression (room : Nat) (make : Expr → Instruction) : Reader Instruction := do
  let value ← expression room
  return make value

def ofChoices : Reader Instruction := do
  let textId ← name
  comma
  let _ ← argument .leftBracket
  let first ← choice
  let choices ← moreChoices first
  let _ ← argument .rightBracket
  return .talk textId choices

def ofSymbol : Reader Instruction := do
  let symbol ← argument .identifier
  match Special.ofSymbol? symbol.value with
  | none => fail (.refused ⟨.unknownSpecial, symbol⟩)
  | some behaviour => return .special behaviour

def instructionForms (room : Nat) : List (Reader Instruction) :=
  [form "jump" (ofName .jump), form "jump_if" (ofNameAndExpression room .jumpIf),
   form "talk" ofChoices, form "talk" (ofName (.talk · [])),
   form "gset" (ofNameAndExpression room .assign),
   form "receive_money" (ofExpression room .receiveMoney),
   form "remove_item" (ofName .removeItem), form "special" ofSymbol]

def sectionHeader : Reader String := do
  let marker ← expect .sectionMarker
  let name ← current
  if name.kind ≠ .identifier then fail (.refused ⟨.expectedSectionName, name⟩)
  else if !Rule.spacedFrom marker name then fail (.refused ⟨.unspacedSectionName, name⟩)
  else
    let _ ← advance
    let _ ← expectEndOfLine
    return name.value

end Reader

end EventScript.Guarded
