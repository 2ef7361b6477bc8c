import EventScript.Text.Alphabet
import EventScript.Text.Literal
import EventScript.Token

/-! Lexemes, the pieces of source text that tokens are read from. Reading knows
nothing of lines and columns: it cuts a text into blanks and lexemes, so that
putting them together again gives the text back. -/

namespace EventScript

/-! ## Fixed spellings -/

/-- The tokens with one spelling each. A longer spelling stands before those it
begins with, so the first match is the longest. -/
def signs : List (TokenKind × List Char) :=
  [(.newline, ['\n']),
   (.newline, ['\r', '\n']),
   (.sectionMarker, ['-', '-', '-']),
   (.equal, ['=', '=']),
   (.notEqual, ['!', '=']),
   (.lessEqual, ['<', '=']),
   (.greaterEqual, ['>', '=']),
   (.less, ['<']),
   (.greater, ['>']),
   (.leftParen, ['(']),
   (.rightParen, [')']),
   (.leftBracket, ['[']),
   (.rightBracket, [']']),
   (.comma, [',']),
   (.plus, ['+']),
   (.minus, ['-']),
   (.star, ['*']),
   (.slash, ['/']),
   (.percent, ['%'])]

def sign? (text : List Char) : Option (TokenKind × List Char) :=
  signs.find? fun sign => sign.2.isPrefixOf text

/-! ## One lexeme -/

inductive Reading where
  | lexeme (kind : TokenKind) (value source rest : List Char)
  | unterminated (source rest : List Char)
  | unexpected (c : Char)
deriving DecidableEq, Repr

namespace Reading

def literal (rest : List Char) : Reading :=
  let body := Text.LiteralBody.read rest
  if body.closed then
    .lexeme .string body.value ('"' :: body.source ++ ['"']) body.rest.tail
  else
    .unterminated ('"' :: body.source) body.rest

def word (kind : TokenKind) (continues : Char → Bool) (first : Char) (rest : List Char) :
    Reading :=
  let source := first :: rest.takeWhile continues
  .lexeme kind source source (rest.dropWhile continues)

def read (first : Char) (rest : List Char) : Reading :=
  match sign? (first :: rest) with
  | some (kind, source) => .lexeme kind source source ((first :: rest).drop source.length)
  | none =>
      if first = '"' then literal rest
      else if Text.isDigit first then word .integer Text.isDigit first rest
      else if Text.isNameStart first then word .identifier Text.isNamePart first rest
      else .unexpected first

theorem sign?_spec {text : List Char} {kind : TokenKind} {source : List Char}
    (found : sign? text = some (kind, source)) :
    (kind, source) ∈ signs ∧ source.isPrefixOf text = true :=
  ⟨List.mem_of_find?_eq_some found, by simpa using List.find?_some found⟩

theorem signs_nonempty : ∀ sign ∈ signs, sign.2 ≠ [] := by
  decide

theorem source_append_rest {first : Char} {rest : List Char} {kind : TokenKind}
    {value source tail : List Char}
    (read_eq : read first rest = .lexeme kind value source tail) :
    source ++ tail = first :: rest := by
  unfold read at read_eq
  split at read_eq
  · next found =>
      obtain ⟨_, isPrefix⟩ := sign?_spec found
      obtain ⟨more, split⟩ := List.isPrefixOf_iff_prefix.1 isPrefix
      injection read_eq with _ _ sourceEq tailEq
      subst sourceEq tailEq
      rw [← split]
      simp
  · split at read_eq
    · next quote =>
        unfold literal at read_eq
        simp only at read_eq
        split at read_eq
        · next closed =>
            injection read_eq with _ _ sourceEq tailEq
            subst sourceEq tailEq quote
            have split := Text.LiteralBody.source_append_rest rest
            simp only [Text.LiteralBody.closed, beq_iff_eq] at closed
            cases after : (Text.LiteralBody.read rest).rest with
            | nil => simp [after] at closed
            | cons head others =>
                simp only [after, List.head?_cons, Option.some.injEq] at closed
                subst closed
                rw [after] at split
                simp [split]
        · contradiction
    · split at read_eq
      · injection read_eq with _ _ sourceEq tailEq
        subst sourceEq tailEq
        simp
      · split at read_eq
        · injection read_eq with _ _ sourceEq tailEq
          subst sourceEq tailEq
          simp
        · contradiction

theorem source_ne_nil {first : Char} {rest : List Char} {kind : TokenKind}
    {value source tail : List Char}
    (read_eq : read first rest = .lexeme kind value source tail) : source ≠ [] := by
  unfold read at read_eq
  split at read_eq
  · next found =>
      injection read_eq with _ _ sourceEq _
      subst sourceEq
      exact signs_nonempty _ (sign?_spec found).1
  · split at read_eq
    · unfold literal at read_eq
      simp only at read_eq
      split at read_eq
      · injection read_eq with _ _ sourceEq _
        subst sourceEq
        simp
      · contradiction
    · split at read_eq
      · injection read_eq with _ _ sourceEq _
        subst sourceEq
        simp
      · split at read_eq
        · injection read_eq with _ _ sourceEq _
          subst sourceEq
          simp
        · contradiction

theorem rest_length_lt {first : Char} {rest : List Char} {kind : TokenKind}
    {value source tail : List Char}
    (read_eq : read first rest = .lexeme kind value source tail) :
    tail.length < rest.length + 1 := by
  have whole := congrArg List.length (source_append_rest read_eq)
  have nonempty := List.length_pos_iff.2 (source_ne_nil read_eq)
  simp only [List.length_append, List.length_cons] at whole
  omega

end Reading

/-! ## A whole text -/

structure Lexeme where
  blanks : List Char
  kind : TokenKind
  value : List Char
  source : List Char
deriving DecidableEq, Repr

inductive LexicalFault where
  | unexpected (c : Char)
  | unterminated
deriving DecidableEq, Repr

namespace LexicalFault

def message : LexicalFault → String
  | .unexpected c => "Unexpected character: " ++ Text.quoted (String.singleton c)
  | .unterminated => "Unterminated string literal"

end LexicalFault

/-- A text cut into lexemes, as far as they go: the blanks after the last one, and
where reading failed what was read of the faulty piece. -/
structure Scan where
  lexemes : List Lexeme
  blanks : List Char
  faulty : List Char
  fault : Option LexicalFault
deriving DecidableEq, Repr

namespace Scan

def cons (lexeme : Lexeme) (scan : Scan) : Scan :=
  { scan with lexemes := lexeme :: scan.lexemes }

theorem tail_length_lt {text : List Char} {first : Char} {rest : List Char} {kind : TokenKind}
    {value source tail : List Char} (ahead : text.dropWhile Text.isBlank = first :: rest)
    (found : Reading.read first rest = .lexeme kind value source tail) :
    tail.length < text.length := by
  have shorter := Reading.rest_length_lt found
  have whole := congrArg List.length
    (List.takeWhile_append_dropWhile (p := Text.isBlank) (l := text))
  simp only [ahead, List.length_append, List.length_cons] at whole
  omega

def read (text : List Char) : Scan :=
  let blanks := text.takeWhile Text.isBlank
  match ahead : text.dropWhile Text.isBlank with
  | [] => ⟨[], blanks, [], none⟩
  | first :: rest =>
      match found : Reading.read first rest with
      | .lexeme kind value source tail =>
          have := tail_length_lt ahead found
          (read tail).cons ⟨blanks, kind, value, source⟩
      | .unterminated source _ => ⟨[], blanks, source, some .unterminated⟩
      | .unexpected c => ⟨[], blanks, [], some (.unexpected c)⟩
termination_by text.length

def lexemeText (scan : Scan) : List Char :=
  scan.lexemes.flatMap fun lexeme => lexeme.blanks ++ lexeme.source

def source (scan : Scan) : List Char :=
  scan.lexemeText ++ scan.blanks ++ scan.faulty

end Scan

end EventScript
