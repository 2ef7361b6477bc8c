import EventScript.Instruction
import EventScript.Token

/-! What can be wrong at a token. Each complaint has one wording, which may quote the
token it is about. -/

namespace EventScript

inductive Complaint where
  | expected (kind : TokenKind)
  | expectedWord (word : String)
  | expectedEndOfLine
  | expectedSectionName
  | unspacedSectionName
  | expectedStatement
  | unknownSpecial
  | expectedOperand
  | strayOperator
  | unknownFunction
  | integerTooLong
  | trailingToken
deriving DecidableEq, Repr

structure Fault where
  complaint : Complaint
  token : Token
deriving DecidableEq, Repr

namespace Fault

def message (fault : Fault) : String :=
  let found := fault.token.description
  let written := Text.quoted fault.token.value
  match fault.complaint with
  | .expected kind => "Expected " ++ Text.quoted kind.text ++ ", got " ++ found
  | .expectedWord word => "Expected " ++ Text.quoted word ++ ", got " ++ found
  | .expectedEndOfLine => "Expected end of line, got " ++ found
  | .expectedSectionName => "Expected section name, got " ++ found
  | .unspacedSectionName => "Expected whitespace between '---' and the section name"
  | .expectedStatement => "Expected an instruction or section header, got " ++ found
  | .unknownSpecial =>
      "Unknown special instruction " ++ written ++ " (expected one of: "
        ++ ", ".intercalate (Special.all.map Special.symbol) ++ ")"
  | .expectedOperand => "Expected an expression, got " ++ found
  | .strayOperator => "Unexpected operator " ++ written
  | .unknownFunction => "Unknown function " ++ written
  | .integerTooLong => "Integer literal out of range"
  | .trailingToken => "Unexpected token after expression: " ++ found

end Fault

end EventScript
