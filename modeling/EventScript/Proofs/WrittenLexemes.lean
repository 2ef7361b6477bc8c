import EventScript.Proofs.Lexing

/-! Lexemes as they are written, and what may stand behind each of them. -/

namespace EventScript

namespace Lexeme

def plain (kind : TokenKind) (text : String) (blanks : List Char) : Lexeme :=
  ⟨blanks, kind, text.toList, text.toList⟩

def name (text : String) (blanks : List Char) : Lexeme :=
  plain .identifier text blanks

def sign (kind : TokenKind) (blanks : List Char) : Lexeme :=
  plain kind kind.text blanks

def quoted (text : String) (blanks : List Char) : Lexeme :=
  ⟨blanks, .string, text.toList, '"' :: text.toList.flatMap Text.escapeChar ++ ['"']⟩

@[simp] theorem kind_plain (kind : TokenKind) (text : String) (blanks : List Char) :
    (plain kind text blanks).kind = kind := rfl

@[simp] theorem kind_name (text : String) (blanks : List Char) :
    (name text blanks).kind = .identifier := rfl

@[simp] theorem kind_sign (kind : TokenKind) (blanks : List Char) :
    (sign kind blanks).kind = kind := rfl

@[simp] theorem kind_quoted (text : String) (blanks : List Char) :
    (quoted text blanks).kind = .string := rfl

@[simp] theorem token_plain (kind : TokenKind) (text : String) (blanks : List Char) :
    (plain kind text blanks).token = ⟨kind, text, .start⟩ := by
  simp [plain, token]

@[simp] theorem token_name (text : String) (blanks : List Char) :
    (name text blanks).token = ⟨.identifier, text, .start⟩ :=
  token_plain ..

@[simp] theorem token_quoted (text : String) (blanks : List Char) :
    (quoted text blanks).token = ⟨.string, text, .start⟩ := by
  simp [quoted, token]

variable {blanks tail : List Char}

theorem standsBefore_name {text : String} (blank : ∀ c ∈ blanks, Text.isBlank c = true)
    (isName : Text.IsName text) (ends : Text.EndsRun Text.isNamePart tail) :
    (name text blanks).StandsBefore tail :=
  ⟨blank, Reading.read_name isName ends⟩

theorem isNamePart_of_isDigit {c : Char} (digit : Text.isDigit c = true) :
    Text.isNamePart c = true := by
  have bounds := Text.toNat_of_isDigit digit
  have ascii : c.toNat < 128 := by omega
  simp [Text.isNamePart, Text.isNumber, ascii, digit]

theorem endsRun_isDigit (ends : Text.EndsRun Text.isNamePart tail) :
    Text.EndsRun Text.isDigit tail := by
  intro c head
  rw [Bool.eq_false_iff]
  intro digit
  have stops := ends c head
  rw [isNamePart_of_isDigit digit] at stops
  contradiction

theorem standsBefore_integer {text : String} (blank : ∀ c ∈ blanks, Text.isBlank c = true)
    (nonempty : text.toList ≠ []) (allDigits : ∀ c ∈ text.toList, Text.isDigit c = true)
    (ends : Text.EndsRun Text.isNamePart tail) :
    (plain .integer text blanks).StandsBefore tail :=
  ⟨blank, Reading.read_digits nonempty allDigits (endsRun_isDigit ends)⟩

theorem standsBefore_quoted (text : String) (blank : ∀ c ∈ blanks, Text.isBlank c = true) :
    (quoted text blanks).StandsBefore tail := by
  refine ⟨blank, '"', text.toList.flatMap Text.escapeChar ++ '"' :: tail, ?_, by decide, ?_⟩
  · simp [quoted]
  · exact Reading.read_literal text.toList tail

theorem standsBefore_plain {kind : TokenKind} {text : String}
    (blank : ∀ c ∈ blanks, Text.isBlank c = true)
    (found : sign? (text.toList ++ tail) = some (kind, text.toList)) :
    (plain kind text blanks).StandsBefore tail := by
  have listed := (Reading.sign?_spec found).1
  cases spelled : text.toList with
  | nil => exact absurd spelled (Reading.signs_nonempty _ listed)
  | cons first rest =>
      have head := signs_head _ listed first (by simp [spelled])
      have source : (plain kind text blanks).source = first :: rest := spelled
      refine ⟨blank, first, rest ++ tail, by rw [source]; rfl, head.2.2.2, ?_⟩
      rw [spelled, List.cons_append] at found
      simp [Reading.read, found, plain, spelled]

/-- The signs that no other sign begins with. -/
def isClosed (kind : TokenKind) : Bool :=
  kind ∈ ([.leftParen, .rightParen, .leftBracket, .rightBracket, .comma, .sectionMarker] :
    List TokenKind)

theorem standsBefore_closed {kind : TokenKind} (blank : ∀ c ∈ blanks, Text.isBlank c = true)
    (closed : isClosed kind = true) : (sign kind blanks).StandsBefore tail := by
  apply standsBefore_plain blank
  cases kind <;> first | contradiction | simp [TokenKind.text, sign?, signs, List.isPrefixOf]

theorem standsBefore_lineEnd (blank : ∀ c ∈ blanks, Text.isBlank c = true) :
    (plain .newline "\n" blanks).StandsBefore tail := by
  apply standsBefore_plain blank
  simp [sign?, signs, List.isPrefixOf]

theorem standsBefore_minus (blank : ∀ c ∈ blanks, Text.isBlank c = true)
    (apart : ∀ rest, tail ≠ '-' :: '-' :: rest) : (sign .minus blanks).StandsBefore tail := by
  apply standsBefore_plain blank
  have noMarker : List.isPrefixOf ['-', '-'] tail = false := by
    rw [Bool.eq_false_iff]
    intro isPrefix
    rcases List.isPrefixOf_iff_prefix.1 isPrefix with ⟨rest, same⟩
    exact apart rest same.symm
  simp [TokenKind.text, sign?, signs, List.isPrefixOf, noMarker]

end Lexeme

end EventScript
