import EventScript.Grammar.Rule
import EventScript.Token.Lexer

/-! The grammar of expressions. Levels run from the loosest binding to the tightest;
each level reads the next tighter one and joins what it finds with operators of
its own. Expressions always stand inside parentheses of an instruction, so line
terminators between their tokens do not count. -/

namespace EventScript

/-! ## Levels -/

inductive Level where
  | disjunction
  | conjunction
  | negation
  | comparison
  | sum
  | product
  | sign
  | operand
deriving DecidableEq, Repr

namespace Level

def rank : Level → Nat
  | .disjunction => 7
  | .conjunction => 6
  | .negation => 5
  | .comparison => 4
  | .sum => 3
  | .product => 2
  | .sign => 1
  | .operand => 0

def tighter : Level → Level
  | .disjunction => .conjunction
  | .conjunction => .negation
  | .negation => .comparison
  | .comparison => .sum
  | .sum => .product
  | .product => .sign
  | .sign => .operand
  | .operand => .operand

theorem rank_tighter_lt {level : Level} (notLast : level ≠ .operand) :
    level.tighter.rank < level.rank := by
  cases level <;> simp_all [tighter, rank]

end Level

namespace BinaryOp

def level : BinaryOp → Level
  | .add | .subtract => .sum
  | .multiply | .divide | .remainder => .product
  | .equal | .notEqual | .less | .greater | .lessEqual | .greaterEqual => .comparison
  | .and => .conjunction
  | .or => .disjunction

end BinaryOp

/-! ## Words and signs with a meaning in expressions -/

namespace Token

def binaryOp? (token : Token) : Option BinaryOp :=
  match token.kind with
  | .plus => some .add
  | .minus => some .subtract
  | .star => some .multiply
  | .slash => some .divide
  | .percent => some .remainder
  | .equal => some .equal
  | .notEqual => some .notEqual
  | .less => some .less
  | .greater => some .greater
  | .lessEqual => some .lessEqual
  | .greaterEqual => some .greaterEqual
  | .identifier =>
      if token.value = "and" then some .and else if token.value = "or" then some .or else none
  | _ => none

def binaryOpAt? (token : Token) (level : Level) : Option BinaryOp :=
  token.binaryOp?.filter (·.level == level)

theorem kind_ne_endOfInput_of_binaryOpAt? {token : Token} {level : Level} {op : BinaryOp}
    (found : token.binaryOpAt? level = some op) : token.kind ≠ .endOfInput := by
  intro atEnd
  simp [binaryOpAt?, binaryOp?, atEnd] at found

end Token

namespace TokenStream

/-- The stream after its current token and the line terminators behind it. -/
def step (stream : TokenStream) : TokenStream :=
  stream.advance.skipNewlines

theorem remaining_step_lt {stream : TokenStream} (notEnd : stream.current.kind ≠ .endOfInput) :
    stream.step.remaining < stream.remaining :=
  Nat.lt_of_le_of_lt stream.advance.remaining_skipNewlines_le (remaining_advance_lt notEnd)

end TokenStream

namespace Expr

/-! ## Operands -/

def expect (kind : TokenKind) : Rule Token := do
  let token ← Rule.expect kind
  Rule.skipNewlines
  return token

theorem advances_expect {kind : TokenKind} (notEnd : kind ≠ .endOfInput) :
    (expect kind).Advances :=
  Rule.advances_bind (Rule.consumes_expect notEnd).advances fun _ =>
    Rule.advances_bind Rule.advances_skipNewlines fun _ => Rule.advances_pure _

/-- The question whether the player has an item, after its first word. -/
def itemQuestion : Rule Expr := do
  let _ ← expect .leftParen
  let item ← expect .identifier
  let _ ← expect .rightParen
  return .hasItem item.value

theorem advances_itemQuestion : itemQuestion.Advances :=
  Rule.advances_bind (advances_expect (by decide)) fun _ =>
    Rule.advances_bind (advances_expect (by decide)) fun _ =>
      Rule.advances_bind (advances_expect (by decide)) fun _ => Rule.advances_pure _

def atom? (token : Token) : Option Expr :=
  match token.kind with
  | .integer =>
      if token.value.length ≤ Text.Decimal.maxDigits then
        some (.literal (.integer (Text.Decimal.toNat token.value.toList)))
      else none
  | .string => some (.literal (.text token.value))
  | .identifier =>
      if token.value = "true" then some (.literal (.boolean true))
      else if token.value = "false" then some (.literal (.boolean false))
      else if token.value = "and" ∨ token.value = "or" ∨ token.value = "not" then none
      else some (.global token.value)
  | _ => none

def operandComplaint (token : Token) : Complaint :=
  match token.kind with
  | .integer => .integerTooLong
  | .identifier => .strayOperator
  | _ => .expectedOperand

/-- Whether a stream stands at a name with a parenthesis right behind it. A truth
value or an operator is no name, and a line terminator between the two makes
the name an operand of its own. -/
def atCall (stream : TokenStream) : Bool :=
  match atom? stream.current with
  | some (.global _) => stream.advance.current.kind == .leftParen
  | _ => false

def simpleOperand : Rule Expr := fun stream =>
  if atCall stream then
    if stream.current.value = "has_item" then itemQuestion stream.step
    else .refused ⟨.unknownFunction, stream.current⟩ stream
  else
    match atom? stream.current with
    | some operand => .accepted operand stream.step
    | none => .refused ⟨operandComplaint stream.current, stream.current⟩ stream

theorem kind_ne_endOfInput_of_atom? {token : Token} {operand : Expr}
    (found : atom? token = some operand) : token.kind ≠ .endOfInput := by
  intro atEnd
  simp [atom?, atEnd] at found

theorem consumes_simpleOperand : simpleOperand.Consumes := by
  intro stream value rest accepted
  unfold simpleOperand at accepted
  split at accepted
  · next call =>
      unfold atCall at call
      split at call
      · next found =>
          have stepped := TokenStream.remaining_step_lt (kind_ne_endOfInput_of_atom? found)
          split at accepted
          · exact Nat.lt_of_le_of_lt (advances_itemQuestion _ _ _ accepted) stepped
          · contradiction
      · contradiction
  · split at accepted
    · next found =>
        simp only [Reply.accepted.injEq] at accepted
        exact accepted.2 ▸ TokenStream.remaining_step_lt (kind_ne_endOfInput_of_atom? found)
    · contradiction

/-! ## Levels of operators

A reply that is known to leave fewer than `bound` tokens is what lets the levels
call one another: whatever a level has read is behind it for good. -/

/-- A reply that leaves fewer than `bound` tokens if it accepts. -/
def Bounded (bound : Nat) (α : Type) : Type :=
  { reply : Reply α // ∀ value rest, reply = .accepted value rest → rest.remaining < bound }

namespace Bounded

variable {α : Type} {bound : Nat}

def accept (value : α) (rest : TokenStream) (fewer : rest.remaining < bound) : Bounded bound α :=
  ⟨.accepted value rest, fun _ _ same => by
    simp only [Reply.accepted.injEq] at same
    exact same.2 ▸ fewer⟩

def refuse (fault : Fault) (rest : TokenStream) : Bounded bound α :=
  ⟨.refused fault rest, fun _ _ same => by contradiction⟩

def weaken {larger : Nat} (reply : Bounded bound α) (le : bound ≤ larger) : Bounded larger α :=
  ⟨reply.val, fun value rest same => Nat.lt_of_lt_of_le (reply.property value rest same) le⟩

end Bounded

mutual

def read (level : Level) (stream : TokenStream) : Bounded stream.remaining Expr :=
  if last : level = .operand then
    if opening : stream.current.kind = .leftParen then
      have stepped : stream.step.remaining < stream.remaining :=
        TokenStream.remaining_step_lt (by simp [opening])
      match read .disjunction stream.step with
      | ⟨.accepted inner rest, fewer⟩ =>
          have inside := fewer inner rest rfl
          match closing : expect .rightParen rest with
          | .accepted _ after =>
              .accept inner after <| by
                have closed := advances_expect (by decide) _ _ _ closing
                omega
          | .refused fault rest => .refuse fault rest
      | ⟨.refused fault rest, _⟩ => .refuse fault rest
    else
      ⟨simpleOperand stream, consumes_simpleOperand stream⟩
  else if signed : level = .sign ∧ stream.current.kind = .minus then
    have stepped : stream.step.remaining < stream.remaining :=
      TokenStream.remaining_step_lt (by simp [signed.2])
    match read .sign stream.step with
    | ⟨.accepted operand rest, fewer⟩ =>
        .accept (.unary .negate operand) rest (Nat.lt_trans (fewer operand rest rfl) stepped)
    | ⟨.refused fault rest, _⟩ => .refuse fault rest
  else if negated : level = .negation ∧ stream.current.isWord "not" then
    have stepped : stream.step.remaining < stream.remaining :=
      TokenStream.remaining_step_lt (Token.kind_ne_endOfInput_of_isWord negated.2)
    match read .negation stream.step with
    | ⟨.accepted operand rest, fewer⟩ =>
        .accept (.unary .not operand) rest (Nat.lt_trans (fewer operand rest rfl) stepped)
    | ⟨.refused fault rest, _⟩ => .refuse fault rest
  else
    have := Level.rank_tighter_lt last
    match read level.tighter stream with
    | ⟨.accepted left rest, fewer⟩ =>
        have := fewer left rest rfl
        (readChain level left rest).weaken this
    | ⟨.refused fault rest, _⟩ => .refuse fault rest
termination_by (stream.remaining, level.rank)

/-- Goes on after `left` with the operators of `level`, joining them to the left.
Comparisons do not go on: a level has at most one. -/
def readChain (level : Level) (left : Expr) (stream : TokenStream) :
    Bounded (stream.remaining + 1) Expr :=
  match found : stream.current.binaryOpAt? level with
  | none => .accept left stream (Nat.lt_succ_self _)
  | some op =>
      have stepped :=
        TokenStream.remaining_step_lt (Token.kind_ne_endOfInput_of_binaryOpAt? found)
      match read level.tighter stream.step with
      | ⟨.accepted right rest, fewer⟩ =>
          have passed := fewer right rest rfl
          if level = .comparison then
            .accept (.binary op left right) rest (by omega)
          else
            (readChain level (.binary op left right) rest).weaken (by omega)
      | ⟨.refused fault rest, _⟩ => .refuse fault rest
termination_by (stream.remaining, level.rank)

end

/-! ## Whole expressions -/

def rule : Rule Expr := fun stream =>
  (read .disjunction stream.skipNewlines).val

theorem consumes_rule : rule.Consumes := by
  intro stream value rest accepted
  exact Nat.lt_of_lt_of_le
    ((read .disjunction stream.skipNewlines).property value rest accepted)
    stream.remaining_skipNewlines_le

/-- Why a text is no expression. A fault of the grammar comes with the index of the
token where reading gave up. -/
inductive SourceError where
  | lexical (error : LexicalError)
  | grammatical (fault : Fault) (index : Nat)
deriving DecidableEq, Repr

def ofSource (source : String) : Except SourceError Expr :=
  match Tokens.ofText source with
  | .error error => .error (.lexical error)
  | .ok tokens =>
      match rule tokens.stream with
      | .refused fault rest => .error (.grammatical fault rest.index)
      | .accepted value rest =>
          if rest.current.kind = .endOfInput then .ok value
          else .error (.grammatical ⟨.trailingToken, rest.current⟩ rest.index)

end Expr

end EventScript
