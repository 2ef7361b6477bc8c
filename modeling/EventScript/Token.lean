import EventScript.Text.Decimal
import EventScript.Text.Position
import EventScript.Text.Quoted

/-! Tokens, the words and signs that scripts are made of. -/

namespace EventScript

inductive TokenKind where
  | identifier
  | integer
  | string
  | sectionMarker
  | leftParen
  | rightParen
  | leftBracket
  | rightBracket
  | comma
  | plus
  | minus
  | star
  | slash
  | percent
  | equal
  | notEqual
  | less
  | greater
  | lessEqual
  | greaterEqual
  | newline
  | endOfInput
deriving DecidableEq, Repr

namespace TokenKind

/-- The kind as messages name it: the sign itself, or a word for a class of tokens. -/
def text : TokenKind → String
  | .identifier => "identifier"
  | .integer => "integer"
  | .string => "string"
  | .sectionMarker => "---"
  | .leftParen => "("
  | .rightParen => ")"
  | .leftBracket => "["
  | .rightBracket => "]"
  | .comma => ","
  | .plus => "+"
  | .minus => "-"
  | .star => "*"
  | .slash => "/"
  | .percent => "%"
  | .equal => "=="
  | .notEqual => "!="
  | .less => "<"
  | .greater => ">"
  | .lessEqual => "<="
  | .greaterEqual => ">="
  | .newline => "end of line"
  | .endOfInput => "end of input"

def label : TokenKind → String
  | .identifier => "IDENTIFIER"
  | .integer => "INTEGER"
  | .string => "STRING"
  | .sectionMarker => "SECTION_MARKER"
  | .leftParen => "LPAREN"
  | .rightParen => "RPAREN"
  | .leftBracket => "LBRACKET"
  | .rightBracket => "RBRACKET"
  | .comma => "COMMA"
  | .plus => "PLUS"
  | .minus => "MINUS"
  | .star => "STAR"
  | .slash => "SLASH"
  | .percent => "PERCENT"
  | .equal => "DOUBLE_EQUALS"
  | .notEqual => "NOT_EQUALS"
  | .less => "LESS_THAN"
  | .greater => "GREATER_THAN"
  | .lessEqual => "LESS_EQUAL"
  | .greaterEqual => "GREATER_EQUAL"
  | .newline => "NEWLINE"
  | .endOfInput => "EOF"

def all : List TokenKind :=
  [.identifier, .integer, .string, .sectionMarker, .leftParen, .rightParen, .leftBracket,
   .rightBracket, .comma, .plus, .minus, .star, .slash, .percent, .equal, .notEqual, .less,
   .greater, .lessEqual, .greaterEqual, .newline, .endOfInput]

def ofLabel? (label : String) : Option TokenKind :=
  all.find? (·.label == label)

end TokenKind

/-- A token and the place of its first character. The value of a string token is the
text it stands for, and that of any other token is how it is written. -/
structure Token where
  kind : TokenKind
  value : String
  place : Position
deriving DecidableEq, Repr

namespace Token

def atEnd (place : Position) : Token :=
  ⟨.endOfInput, "", place⟩

/-- Whether a token is the given word. No word is reserved, so this is asked only
where the grammar has a use for it. -/
def isWord (token : Token) (word : String) : Bool :=
  token.kind == .identifier && token.value == word

theorem kind_ne_endOfInput_of_isWord {token : Token} {word : String}
    (holds : token.isWord word = true) : token.kind ≠ .endOfInput := by
  simp only [isWord, Bool.and_eq_true, beq_iff_eq] at holds
  simp [holds.1]

def description (token : Token) : String :=
  match token.kind with
  | .newline | .endOfInput => token.kind.text
  | _ => Text.quoted token.value

def listing (token : Token) : String :=
  "Token(" ++ token.kind.label ++ ", " ++ Text.quoted token.value ++ ", "
    ++ Text.Decimal.textOfNat token.place.line ++ ":"
    ++ Text.Decimal.textOfNat token.place.column ++ ")"

end Token

end EventScript
