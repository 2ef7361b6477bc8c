import EventScript.Grammar.Expression
import EventScript.Section

/-! The grammar of statements: the eight instruction forms and the section header. A
statement fills its line. Inside the parentheses of an instruction, line
terminators may stand before any token. -/

namespace EventScript

namespace Rule

/-! ## Argument lists -/

def openArguments (keyword : String) : Rule Unit := do
  let _ ← expectWord keyword
  skipNewlines
  let _ ← expect .leftParen

def closeArguments : Rule Unit := do
  skipNewlines
  let _ ← expect .rightParen
  let _ ← expectEndOfLine

def argument (kind : TokenKind) : Rule Token := do
  skipNewlines
  expect kind

def name : Rule String := do
  let token ← argument .identifier
  return token.value

def comma : Rule Unit := do
  let _ ← argument .comma

/-! ## Progress of argument lists -/

theorem advances_expect {kind : TokenKind} (notEnd : kind ≠ .endOfInput) :
    (expect kind).Advances :=
  (consumes_expect notEnd).advances

theorem consumes_openArguments (keyword : String) : (openArguments keyword).Consumes :=
  consumes_bind (consumes_expectWord keyword) fun _ =>
    advances_bind advances_skipNewlines fun _ =>
      advances_bind (advances_expect (by decide)) fun _ => advances_pure _

theorem advances_closeArguments : closeArguments.Advances :=
  advances_bind advances_skipNewlines fun _ =>
    advances_bind (advances_expect (by decide)) fun _ =>
      advances_bind consumes_expectEndOfLine.advances fun _ => advances_pure _

theorem advances_argument {kind : TokenKind} (notEnd : kind ≠ .endOfInput) :
    (argument kind).Advances :=
  advances_bind advances_skipNewlines fun _ => advances_expect notEnd

theorem advances_name : name.Advances :=
  advances_bind (advances_argument (by decide)) fun _ => advances_pure _

theorem advances_comma : comma.Advances :=
  advances_bind (advances_argument (by decide)) fun _ => advances_pure _

theorem advances_expression : Expr.rule.Advances :=
  Expr.consumes_rule.advances

/-! ## Choices -/

def choice : Rule Choice := do
  let _ ← argument .leftParen
  let label ← name
  comma
  let target ← name
  let _ ← argument .rightParen
  return ⟨label, target⟩

theorem advances_choice : choice.Advances :=
  advances_bind (advances_argument (by decide)) fun _ =>
    advances_bind advances_name fun _ =>
      advances_bind advances_comma fun _ =>
        advances_bind advances_name fun _ =>
          advances_bind (advances_argument (by decide)) fun _ => advances_pure _

def moreChoices (stream : TokenStream) : Reply (List Choice) :=
  let start := stream.skipNewlines
  if isComma : start.current.kind = .comma then
    match next : choice start.advance with
    | .refused fault rest => .refused fault rest
    | .accepted first rest =>
        have : rest.remaining < stream.remaining := by
          have advanced := advances_choice _ _ _ next
          have passed : start.advance.remaining < start.remaining :=
            TokenStream.remaining_advance_lt (by simp [isComma])
          have skipped : start.remaining ≤ stream.remaining := stream.remaining_skipNewlines_le
          omega
        match moreChoices rest with
        | .refused fault rest => .refused fault rest
        | .accepted others rest => .accepted (first :: others) rest
  else
    .accepted [] start
termination_by stream.remaining

theorem advances_moreChoices : Rule.Advances moreChoices := by
  intro stream value rest accepted
  fun_induction moreChoices stream generalizing value rest with
  | case1 => contradiction
  | case2 => contradiction
  | case3 stream start isComma first middle next fewer others last reached induction =>
      simp only [Reply.accepted.injEq] at accepted
      have := induction _ _ reached
      have := accepted.2 ▸ this
      omega
  | case4 stream start =>
      simp only [Reply.accepted.injEq] at accepted
      exact accepted.2 ▸ stream.remaining_skipNewlines_le

/-! ## Instruction forms -/

def jump : Rule Instruction := do
  openArguments "jump"
  let target ← name
  closeArguments
  return .jump target

def jumpIf : Rule Instruction := do
  openArguments "jump_if"
  let target ← name
  comma
  let condition ← Expr.rule
  closeArguments
  return .jumpIf target condition

def talkWithChoices : Rule Instruction := do
  openArguments "talk"
  let textId ← name
  comma
  let _ ← argument .leftBracket
  let first ← choice
  let others ← moreChoices
  let _ ← argument .rightBracket
  closeArguments
  return .talk textId (first :: others)

def talk : Rule Instruction := do
  openArguments "talk"
  let textId ← name
  closeArguments
  return .talk textId []

def assign : Rule Instruction := do
  openArguments "gset"
  let target ← name
  comma
  let value ← Expr.rule
  closeArguments
  return .assign target value

def receiveMoney : Rule Instruction := do
  openArguments "receive_money"
  let amount ← Expr.rule
  closeArguments
  return .receiveMoney amount

def removeItem : Rule Instruction := do
  openArguments "remove_item"
  let item ← name
  closeArguments
  return .removeItem item

/-- The argument must be one of the known symbols. The fault is about that argument,
although the rule gives up behind it. -/
def special : Rule Instruction := do
  openArguments "special"
  let symbol ← argument .identifier
  match Special.ofSymbol? symbol.value with
  | none => refuse ⟨.unknownSpecial, symbol⟩
  | some behaviour => do
      closeArguments
      return .special behaviour

def instructionForms : List (Rule Instruction) :=
  [jump, jumpIf, talkWithChoices, talk, assign, receiveMoney, removeItem, special]

theorem consumes_of_mem_instructionForms :
    ∀ form ∈ instructionForms, Rule.Consumes form := by
  have finish : ∀ instruction : Instruction,
      Rule.Advances (do closeArguments; return instruction) := fun _ =>
    advances_bind advances_closeArguments fun _ => advances_pure _
  simp only [instructionForms, List.forall_mem_cons]
  refine ⟨?_, ?_, ?_, ?_, ?_, ?_, ?_, ?_, by simp⟩
  · exact consumes_bind (consumes_openArguments _) fun _ =>
      advances_bind advances_name fun _ => finish _
  · exact consumes_bind (consumes_openArguments _) fun _ =>
      advances_bind advances_name fun _ =>
        advances_bind advances_comma fun _ =>
          advances_bind advances_expression fun _ => finish _
  · exact consumes_bind (consumes_openArguments _) fun _ =>
      advances_bind advances_name fun _ =>
        advances_bind advances_comma fun _ =>
          advances_bind (advances_argument (by decide)) fun _ =>
            advances_bind advances_choice fun _ =>
              advances_bind advances_moreChoices fun _ =>
                advances_bind (advances_argument (by decide)) fun _ => finish _
  · exact consumes_bind (consumes_openArguments _) fun _ =>
      advances_bind advances_name fun _ => finish _
  · exact consumes_bind (consumes_openArguments _) fun _ =>
      advances_bind advances_name fun _ =>
        advances_bind advances_comma fun _ =>
          advances_bind advances_expression fun _ => finish _
  · exact consumes_bind (consumes_openArguments _) fun _ =>
      advances_bind advances_expression fun _ => finish _
  · exact consumes_bind (consumes_openArguments _) fun _ =>
      advances_bind advances_name fun _ => finish _
  · refine consumes_bind (consumes_openArguments _) fun _ =>
      advances_bind (advances_argument (by decide)) fun symbol => ?_
    cases Special.ofSymbol? symbol.value with
    | none => exact advances_refuse _
    | some behaviour => exact finish _

/-! ## Section headers -/

/-- Whether a name stands apart from the marker before it, on the same line. -/
def spacedFrom (marker name : Token) : Bool :=
  name.place.line == marker.place.line && marker.place.column + 3 < name.place.column

def sectionHeader : Rule String := do
  let marker ← expect .sectionMarker
  let name ← current
  if name.kind ≠ .identifier then
    refuse ⟨.expectedSectionName, name⟩
  else if !spacedFrom marker name then
    refuse ⟨.unspacedSectionName, name⟩
  else do
    let _ ← advance
    let _ ← expectEndOfLine
    return name.value

theorem consumes_sectionHeader : sectionHeader.Consumes := by
  refine consumes_bind (consumes_expect (by decide)) fun marker =>
    advances_bind advances_current fun name => ?_
  split
  · exact advances_refuse _
  · split
    · exact advances_refuse _
    · exact advances_bind advances_advance fun _ =>
        advances_bind consumes_expectEndOfLine.advances fun _ => advances_pure _

end Rule

end EventScript
