import EventScript.Proofs.Glyphs
import EventScript.Proofs.ScriptText
import EventScript.Proofs.TokenLayout

/-! Expressions inside of instructions. A text that is an expression is the same expression as the
last argument of an instruction, before the closing parenthesis, whatever blanks and line
terminators it begins and ends with. -/

namespace EventScript

open TokenStream

theorem Expr.Spells.ne_nil {value : Expr} {lines : List Token} (spells : Spells value lines) :
    lines ≠ [] := by
  intro nothing
  rcases head_of_derives spells.derives with ⟨_, _, spoken, _⟩
  rw [nothing] at spoken
  contradiction

theorem Piece.spelledAll_of_plain {spelling spelling' : Expr → List Token → Prop}
    {pieces : List Piece} {tokens : List Token} (plain : ∀ value, .expression value ∉ pieces)
    (spelled : SpelledAll spelling pieces tokens) : SpelledAll spelling' pieces tokens :=
  spelled.mono fun value _ member => absurd member (plain value)

/-! ## The line of an instruction -/

namespace Instruction

/-- The lexemes of an instruction up to its last argument. -/
def opening (instruction : Instruction) (front : List Piece) : List Lexeme :=
  .name instruction.kind [] :: Piece.rowOf [] front

def closing (blanks : List Char) : List Lexeme :=
  [.sign .rightParen blanks, .plain .newline "\n" []]

variable {instruction : Instruction} {front : List Piece} {inside : List Lexeme}
  {value : Expr} {blanks : List Char}

theorem textOf_opening (instruction : Instruction) (front : List Piece) :
    Lexeme.textOf (instruction.opening front) =
      instruction.kind.toList ++ Lexeme.textOf (Piece.rowOf [] front) := by
  simp [opening, Lexeme.name, Lexeme.plain]

theorem locate_opening (plain : ∀ other, .expression other ∉ front) (place : Position)
    (rest : List Lexeme) :
    ∃ (word : Token) (pieces : List Token) (behind : Position),
      Scan.locate place (instruction.opening front ++ rest) =
        word :: (pieces ++ Scan.locate behind rest) ∧
      word.isWord instruction.kind = true ∧ Piece.SpelledAll Expr.Spells front pieces := by
  rw [opening, List.cons_append, Scan.locate_cons, Scan.locate_append]
  refine ⟨_, _, _, rfl, ?_, ?_⟩
  · simp [Token.isWord, Lexeme.name, Lexeme.plain]
  · exact Piece.spelledAll_of_plain plain (Piece.spelledAll_locate _ _ _)

theorem locate_closing (place : Position) (blanks : List Char) :
    ∃ sign lineEnd : Token, Scan.locate place (closing blanks) = [sign, lineEnd] ∧
      sign.kind = .rightParen ∧ lineEnd.kind = .newline :=
  ⟨_, _, rfl, rfl, rfl⟩

theorem written_of_spells
    (pieces : instruction.pieces = front ++ [.expression value, .sign .rightParen])
    (plain : ∀ other, .expression other ∉ front)
    (spells : ∀ place, Expr.Spells value (Scan.locate place inside)) (place : Position) :
    instruction.Written
      (Scan.locate place (instruction.opening front ++ (inside ++ closing blanks))) := by
  rcases locate_opening plain place (inside ++ closing blanks) with
    ⟨word, frontTokens, behind, located, isWord, spelledFront⟩
  rcases locate_closing (behind.after (Lexeme.textOf inside)) blanks with
    ⟨sign, lineEnd, locatedClosing, isSign, isEnd⟩
  have closes : Piece.Spelled Expr.Spells (.sign .rightParen) [sign] :=
    isSign ▸ @Piece.Spelled.sign Expr.Spells [] sign breaks_nil
  have spelledLast : Piece.SpelledAll Expr.Spells [.expression value, .sign .rightParen]
      (Scan.locate behind inside ++ [sign]) :=
    .cons (.expression (spells behind)) (.cons closes .nil)
  refine ⟨word, frontTokens ++ (Scan.locate behind inside ++ [sign]), lineEnd, ?_, isWord, ?_,
    isEnd⟩
  · rw [located, Scan.locate_append, locatedClosing]
    simp
  · rw [pieces]
    exact Piece.spelledAll_append.2 ⟨_, _, rfl, spelledFront, spelledLast⟩

theorem row_of_opening {tail : List Char}
    (rowOpening : ∀ tail, Lexeme.Row (instruction.opening front) tail)
    (row : Lexeme.Row inside blanks) (blank : ∀ c ∈ blanks, Text.isBlank c = true) :
    Lexeme.Row (instruction.opening front ++ (inside ++ closing blanks)) tail := by
  have rowClosing : Lexeme.Row (closing blanks) tail :=
    ⟨Lexeme.standsBefore_closed blank rfl, Lexeme.standsBefore_lineEnd (by simp), trivial⟩
  have textOfClosing : Lexeme.textOf (closing blanks) ++ tail = blanks ++ (')' :: '\n' :: tail) := by
    simp [closing, Lexeme.sign, Lexeme.plain, TokenKind.text]
  have apart : Text.Apart (')' :: '\n' :: tail) := by
    intro c head
    rw [List.head?_cons, Option.mem_some_iff] at head
    subst head
    decide
  rw [← List.append_nil blanks] at row
  refine Lexeme.row_append.2 ⟨rowOpening _, Lexeme.row_append.2 ⟨?_, rowClosing⟩⟩
  rw [textOfClosing]
  exact Lexeme.row_of_apart row apart

end Instruction

/-! ## Whole texts -/

theorem compile_of_written {title : String} {instruction : Instruction} {line : List Lexeme}
    {text : String} (isName : Text.IsName title) (row : Lexeme.Row line [])
    (written : ∀ place, instruction.Written (Scan.locate place line))
    (spelled : text.toList = Lexeme.textOf (Script.headerLexemes title ++ line)) (file : Path) :
    (compile file text).map Compilation.script = .ok ⟨[(title, [instruction])]⟩ := by
  have whole : Lexeme.Row (Script.headerLexemes title ++ line) [] :=
    Lexeme.row_append.2 ⟨Script.row_headerLexemes isName _, row⟩
  have lexed := Tokens.ofText_row whole spelled
  let tokens : Tokens := ⟨Scan.locate .start (Script.headerLexemes title ++ line),
    Position.start.after (Lexeme.textOf (Script.headerLexemes title ++ line))⟩
  rcases Script.locate_headerLexemes .start title with
    ⟨marker, name, lineEnd, located, isMarker, isIdentifier, rfl, apart, isEnd⟩
  have passed := Passed.whole tokens
  have list : tokens.list = [marker, name, lineEnd] ++
      Scan.locate (Position.start.after (Lexeme.textOf (Script.headerLexemes name.value))) line := by
    rw [← located]
    exact Scan.locate_append _ _ _
  rw [list] at passed
  rcases passed.split with ⟨inside, headerPassed, linePassed⟩
  have lines : Instruction.Lines [instruction] inside _ :=
    .cons (Instruction.spans_iff_written.2 ⟨_, linePassed, written _⟩) breaks_nil (.nothing _) .nil
  have spans := Section.Spans.intro isMarker isIdentifier apart isEnd breaks_nil headerPassed lines
  have read := Parser.readSections_of_spanAll (.cons spans .nil) rfl (Parser.start tokens)
    (Parser.genuine_of_ofText lexed) breaks_nil (.nothing _)
  have parsed : parseSections file text = .ok [⟨name.value, [instruction]⟩] :=
    parseSections_eq_ok.2 ⟨tokens, lexed, read⟩
  rw [compile, parsed]
  rfl

theorem compile_of_ofSource {source title : String} {value : Expr}
    (accepted : Expr.ofSource source = .ok value) (isName : Text.IsName title)
    {instruction : Instruction} {front : List Piece} {gap : List Char}
    (pieces : instruction.pieces = front ++ [.expression value, .sign .rightParen])
    (plain : ∀ other, .expression other ∉ front)
    (rowOpening : ∀ tail, Lexeme.Row (instruction.opening front) tail)
    (blankGap : ∀ c ∈ gap, Text.isBlank c = true) {text : String}
    (spelled : text.toList =
      Lexeme.textOf (Script.headerLexemes title ++ instruction.opening front) ++
        (gap ++ (source.toList ++ ")\n".toList))) (file : Path) :
    (compile file text).map Compilation.script = .ok ⟨[(title, [instruction])]⟩ := by
  rcases Expr.spells_of_ofSource accepted with ⟨tokens, lexed, spells⟩
  rcases Tokens.list_of_ofText lexed with ⟨sound, list⟩
  rcases Scan.row_of_read sound with ⟨row, whole, blank⟩
  have nonempty : (Scan.read source.toList).lexemes ≠ [] := by
    intro nothing
    rw [list, nothing, Scan.locate_nil] at spells
    exact spells.ne_nil rfl
  have spellsInside (place : Position) :
      Expr.Spells value (Scan.locate place (Lexeme.indent gap (Scan.read source.toList).lexemes)) := by
    apply spells.of_essence
    rw [list, map_essence_locate, map_essence_locate, Lexeme.map_token_indent]
  refine compile_of_written isName
    (Instruction.row_of_opening rowOpening (Lexeme.row_indent row blankGap) blank)
    (Instruction.written_of_spells pieces plain spellsInside) ?_ file
  rw [spelled]
  conv_lhs => rw [whole]
  simp [Lexeme.textOf_indent nonempty, Instruction.closing, Lexeme.sign, Lexeme.plain,
    TokenKind.text]

section

variable {source name : String} {value : Expr}

namespace Instruction

variable (instruction : Instruction)

theorem row_opening_only (tail : List Char) :
    Lexeme.Row (instruction.opening [.sign .leftParen]) tail :=
  ⟨Lexeme.standsBefore_name (by simp) instruction.isName_kind (.cons (by decide) _),
    Lexeme.standsBefore_closed (by simp) rfl, trivial⟩

theorem textOf_opening_only :
    Lexeme.textOf (instruction.opening [.sign .leftParen]) = (instruction.kind ++ "(").toList := by
  simp [textOf_opening, Piece.textOf_rowOf_cons, Piece.textOf_rowOf_nil, Piece.text, TokenKind.text]

theorem row_opening_behind (isName : Text.IsName name) (tail : List Char) :
    Lexeme.Row (instruction.opening [.sign .leftParen, .name name, .sign .comma]) tail :=
  ⟨Lexeme.standsBefore_name (by simp) instruction.isName_kind (.cons (by decide) _),
    Lexeme.standsBefore_closed (by simp) rfl,
    Lexeme.standsBefore_name (by simp [Piece.gap]) isName (.cons (by decide) _),
    Lexeme.standsBefore_closed (by simp [Piece.gap]) rfl, trivial⟩

theorem textOf_opening_behind :
    Lexeme.textOf (instruction.opening [.sign .leftParen, .name name, .sign .comma]) =
      (instruction.kind ++ "(" ++ name ++ ",").toList := by
  simp [textOf_opening, Piece.textOf_rowOf_cons, Piece.textOf_rowOf_nil, Piece.text, Piece.gap,
    TokenKind.text]

end Instruction

/-- What is an expression by itself is the same expression inside of every instruction that takes
one. -/
theorem compile_embedded_of_ofSource (accepted : Expr.ofSource source = .ok value)
    (isName : Text.IsName name) (file : Path) :
    (compile file ("--- a\nreceive_money(" ++ source ++ ")\n")).map Compilation.script =
        .ok ⟨[("a", [.receiveMoney value])]⟩ ∧
      (compile file ("--- a\ngset(" ++ name ++ ", " ++ source ++ ")\n")).map Compilation.script =
        .ok ⟨[("a", [.assign name value])]⟩ ∧
      (compile file ("--- a\njump_if(" ++ name ++ ", " ++ source ++ ")\n")).map
          Compilation.script =
        .ok ⟨[("a", [.jumpIf name value])]⟩ := by
  have isTitle : Text.IsName "a" := by decide
  have noGap : ∀ c ∈ ([] : List Char), Text.isBlank c = true := by simp
  have payment : (Instruction.receiveMoney value).pieces =
      [.sign .leftParen] ++ [.expression value, .sign .rightParen] := rfl
  have assignment : (Instruction.assign name value).pieces =
      [.sign .leftParen, .name name, .sign .comma] ++ [.expression value, .sign .rightParen] := rfl
  have condition : (Instruction.jumpIf name value).pieces =
      [.sign .leftParen, .name name, .sign .comma] ++ [.expression value, .sign .rightParen] := rfl
  refine ⟨?_, ?_, ?_⟩
  · apply compile_of_ofSource accepted isTitle payment (by simp)
      (Instruction.row_opening_only _) noGap
    simp [Script.textOf_headerLexemes, Instruction.textOf_opening_only, Instruction.kind]
  · apply compile_of_ofSource accepted isTitle assignment (by simp)
      (Instruction.row_opening_behind _ isName) Text.isBlank_of_mem_space
    simp [Script.textOf_headerLexemes, Instruction.textOf_opening_behind, Instruction.kind]
  · apply compile_of_ofSource accepted isTitle condition (by simp)
      (Instruction.row_opening_behind _ isName) Text.isBlank_of_mem_space
    simp [Script.textOf_headerLexemes, Instruction.textOf_opening_behind, Instruction.kind]

end

/-- The line terminators around an expression and inside of it do no harm. -/
theorem compile_embedded_difference :
    Expr.ofSource "\n 3 -\ngold\n\n" =
        .ok (.binary .subtract (.literal (.integer 3)) (.global "gold")) ∧
      Text.IsName "x" ∧
      (compile unnamedFile ("--- a\ngset(" ++ "x" ++ ", " ++ "\n 3 -\ngold\n\n" ++ ")\n")).map
          Compilation.script =
        .ok ⟨[("a", [.assign "x" (.binary .subtract (.literal (.integer 3)) (.global "gold"))])]⟩ := by
  have lexed : Tokens.ofText "\n 3 -\ngold\n\n" = .ok
      ⟨[⟨.newline, "\n", ⟨1, 1⟩⟩, ⟨.integer, "3", ⟨2, 2⟩⟩, ⟨.minus, "-", ⟨2, 4⟩⟩,
        ⟨.newline, "\n", ⟨2, 5⟩⟩, ⟨.identifier, "gold", ⟨3, 1⟩⟩, ⟨.newline, "\n", ⟨3, 5⟩⟩,
        ⟨.newline, "\n", ⟨4, 1⟩⟩], ⟨5, 1⟩⟩ := by decide +kernel
  have accepted : Expr.ofSource "\n 3 -\ngold\n\n" =
      .ok (.binary .subtract (.literal (.integer 3)) (.global "gold")) := by
    rw [Expr.ofSource, lexed]
    cbv
  have isName : Text.IsName "x" := by decide
  exact ⟨accepted, isName, (compile_embedded_of_ofSource accepted isName unnamedFile).2.1⟩

end EventScript
