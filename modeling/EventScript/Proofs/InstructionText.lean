import EventScript.Proofs.PieceBalance

/-! Rendered instructions. The text of an instruction is a row of lexemes, one or more for
each of its pieces; its tokens spell the instruction again if its expressions are
derived from theirs. -/

namespace EventScript

def Instruction.expressions : Instruction → List Expr
  | .jumpIf _ condition => [condition]
  | .assign _ value => [value]
  | .receiveMoney amount => [amount]
  | _ => []

/-! ## Lexemes of pieces -/

namespace Piece

def lexemes (blanks : List Char) : Piece → List Lexeme
  | .sign kind => [.sign kind blanks]
  | .name word => [.name word blanks]
  | .expression value => value.lexemes blanks

def text : Piece → List Char
  | .sign kind => kind.text.toList
  | .name word => word.toList
  | .expression value => value.render.toList

theorem textOf_lexemes (blanks : List Char) (piece : Piece) :
    Lexeme.textOf (piece.lexemes blanks) = blanks ++ piece.text := by
  cases piece with
  | sign kind => simp [lexemes, text, Lexeme.sign, Lexeme.plain]
  | name word => simp [lexemes, text, Lexeme.name, Lexeme.plain]
  | expression value => exact value.textOf_lexemes blanks

def gap : Piece → List Char
  | .sign .comma => [' ']
  | _ => []

theorem isBlank_of_mem_gap (piece : Piece) : ∀ c ∈ piece.gap, Text.isBlank c = true := by
  fun_cases gap piece with
  | case1 => exact Text.isBlank_of_mem_space
  | case2 => simp

def rowOf : List Char → List Piece → List Lexeme
  | _, [] => []
  | blanks, piece :: pieces => piece.lexemes blanks ++ rowOf piece.gap pieces

theorem textOf_rowOf_nil (blanks : List Char) : Lexeme.textOf (rowOf blanks []) = [] := rfl

theorem textOf_rowOf_cons (blanks : List Char) (piece : Piece) (pieces : List Piece) :
    Lexeme.textOf (rowOf blanks (piece :: pieces)) =
      blanks ++ (piece.text ++ Lexeme.textOf (rowOf piece.gap pieces)) := by
  rw [rowOf, Lexeme.textOf_append, textOf_lexemes, List.append_assoc]

theorem textOf_rowOf_choice (blanks : List Char) (choice : Choice) (pieces : List Piece) :
    Lexeme.textOf (rowOf blanks (choice.pieces ++ pieces)) =
      blanks ++ (choice.render.toList ++ Lexeme.textOf (rowOf [] pieces)) := by
  simp [Choice.pieces, Choice.render, textOf_rowOf_cons, gap, text, TokenKind.text]

theorem textOf_rowOf_choices (choices : List Choice) (pieces : List Piece) :
    Lexeme.textOf (rowOf [] (choices.flatMap (fun choice => .sign .comma :: choice.pieces) ++
        pieces)) =
      choices.flatMap (fun choice => ", ".toList ++ choice.render.toList) ++
        Lexeme.textOf (rowOf [] pieces) := by
  induction choices with
  | nil => rfl
  | cons first others induction =>
      rw [List.flatMap_cons, List.append_assoc, List.cons_append, textOf_rowOf_cons,
        textOf_rowOf_choice, induction]
      simp [gap, text, TokenKind.text]

end Piece

namespace Instruction

def lexemes (instruction : Instruction) : List Lexeme :=
  .name instruction.kind [] :: (Piece.rowOf [] instruction.pieces ++ [.plain .newline "\n" []])

theorem textOf_rowOf_pieces (instruction : Instruction) :
    instruction.kind.toList ++ Lexeme.textOf (Piece.rowOf [] instruction.pieces) =
      instruction.render.toList := by
  cases instruction with
  | talk textId choices =>
      cases choices with
      | nil =>
          simp [render, kind, pieces, arguments, Argument.pieces, Piece.separated_cons,
            Piece.textOf_rowOf_cons, Piece.textOf_rowOf_nil, Piece.gap, Piece.text, TokenKind.text]
      | cons first others =>
          have choices : (", ".intercalate ((first :: others).map Choice.render)).toList =
              first.render.toList ++
                others.flatMap (fun choice => ", ".toList ++ choice.render.toList) := by
            rw [String.toList_intercalate, List.map_cons, List.map_cons, intercalate_cons,
              List.map_map, List.flatMap_map]
            rfl
          rw [pieces, Rule.pieces_talkWithChoices, render]
          · simp only [List.cons_append, List.append_assoc, Piece.textOf_rowOf_cons,
              Piece.textOf_rowOf_choice, Piece.gap, Piece.textOf_rowOf_choices,
              String.toList_append, choices]
            simp [kind, Piece.text, TokenKind.text, Piece.textOf_rowOf_cons, Piece.textOf_rowOf_nil]
          · simp
  | _ =>
      simp [render, kind, pieces, arguments, Argument.pieces, Piece.separated_cons,
        Piece.textOf_rowOf_cons, Piece.textOf_rowOf_nil, Piece.gap, Piece.text, TokenKind.text]

theorem textOf_lexemes (instruction : Instruction) :
    Lexeme.textOf instruction.lexemes = instruction.render.toList ++ ['\n'] := by
  rw [← textOf_rowOf_pieces]
  simp [lexemes, Lexeme.name, Lexeme.plain]

end Instruction

/-! ## Neighbours -/

namespace Piece

/-- Pieces that can stand for themselves in a text. -/
def WellFormed : Piece → Prop
  | .sign kind => Lexeme.isClosed kind = true
  | .name word => Text.IsName word
  | .expression value => value.WellFormed

/-- Which pieces can be neighbours: behind a name or an expression stands a sign that ends it. -/
def Before : Piece → Piece → Prop
  | .sign _, _ => True
  | _, .sign kind => kind = .comma ∨ kind = .rightParen ∨ kind = .rightBracket
  | _, _ => False

theorem exists_sign_of_before {piece next : Piece} (before : piece.Before next)
    (notSign : ∀ kind, piece ≠ .sign kind) :
    ∃ kind, next = .sign kind ∧ (kind = .comma ∨ kind = .rightParen ∨ kind = .rightBracket) := by
  cases piece with
  | sign kind => exact absurd rfl (notSign kind)
  | name word => cases next <;> first | exact ⟨_, rfl, before⟩ | exact before.elim
  | expression value => cases next <;> first | exact ⟨_, rfl, before⟩ | exact before.elim

theorem endsRun_rowOf {piece : Piece} {pieces : List Piece}
    (chain : (piece :: pieces).IsChain Before) (notSign : ∀ kind, piece ≠ .sign kind)
    {tail : List Char} (ends : Text.EndsRun Text.isNamePart tail) :
    Text.EndsRun Text.isNamePart (Lexeme.textOf (rowOf [] pieces) ++ tail) := by
  cases pieces with
  | nil => exact ends
  | cons next others =>
      have neighbours := (List.isChain_cons.1 chain).1 next rfl
      rcases exists_sign_of_before neighbours notSign with ⟨kind, rfl, closer⟩
      rw [textOf_rowOf_cons, text]
      rcases closer with rfl | rfl | rfl
      · exact .cons (by decide) _
      · exact .cons (by decide) _
      · exact .cons (by decide) _

theorem row_rowOf {pieces : List Piece} (wellFormed : ∀ piece ∈ pieces, piece.WellFormed)
    (chain : pieces.IsChain Before) {blanks tail : List Char}
    (blank : ∀ c ∈ blanks, Text.isBlank c = true)
    (ends : Text.EndsRun Text.isNamePart tail) : Lexeme.Row (rowOf blanks pieces) tail := by
  induction pieces generalizing blanks with
  | nil => trivial
  | cons piece pieces induction =>
      have first := wellFormed piece (by simp)
      have others := induction (fun other member => wellFormed other (by simp [member]))
        (List.isChain_cons.1 chain).2 piece.isBlank_of_mem_gap
      refine Lexeme.row_append.2 ⟨?_, others⟩
      cases piece with
      | sign kind => exact ⟨Lexeme.standsBefore_closed blank first, trivial⟩
      | name word =>
          exact ⟨Lexeme.standsBefore_name blank first (endsRun_rowOf chain (by simp) ends), trivial⟩
      | expression value =>
          exact Expr.row_lexemes first blank (endsRun_rowOf chain (by simp) ends)

theorem kind_of_mem_rowOf {pieces : List Piece} (wellFormed : ∀ piece ∈ pieces, piece.WellFormed)
    (blanks : List Char) : ∀ lexeme ∈ rowOf blanks pieces, lexeme.kind ≠ .newline := by
  induction pieces generalizing blanks with
  | nil => simp [rowOf]
  | cons piece pieces induction =>
      have first := wellFormed piece (by simp)
      have others := induction (fun other member => wellFormed other (by simp [member])) piece.gap
      refine List.forall_mem_append.2 ⟨?_, others⟩
      cases piece with
      | sign kind =>
          simp only [lexemes, List.forall_mem_singleton, Lexeme.kind_sign]
          intro same
          subst same
          simp [WellFormed, Lexeme.isClosed] at first
      | name word => simp [lexemes]
      | expression value => exact Expr.kind_of_mem_lexemes

/-! ## Tokens of pieces -/

def rendering (value : Expr) (tokens : List Token) : Prop :=
  tokens.map Token.unplaced = value.tokens

theorem balanced_of_rendering {value : Expr} {tokens : List Token}
    (rendered : rendering value tokens) : Balanced (tokens.map Token.kind) := by
  have kinds := congrArg (List.map Token.kind) rendered
  rw [List.map_map] at kinds
  have balanced := balanced_tokens value
  rw [← kinds] at balanced
  exact balanced

theorem spelledAll_locate (place : Position) (blanks : List Char) (pieces : List Piece) :
    SpelledAll rendering pieces (Scan.locate place (rowOf blanks pieces)) := by
  induction pieces generalizing place blanks with
  | nil => exact .nil
  | cons piece pieces induction =>
      rw [rowOf, Scan.locate_append]
      refine .cons ?_ (induction _ _)
      cases piece with
      | sign kind =>
          exact @Spelled.sign rendering []
            ⟨kind, String.ofList kind.text.toList, place.after blanks⟩ TokenStream.breaks_nil
      | name word =>
          have spelled := @Spelled.name rendering []
            ⟨.identifier, String.ofList word.toList, place.after blanks⟩ TokenStream.breaks_nil rfl
          rw [String.ofList_toList] at spelled
          simpa [lexemes, Lexeme.name, Lexeme.plain, Scan.locate] using spelled
      | expression value =>
          apply Spelled.expression
          rw [rendering, lexemes, Scan.map_unplaced_locate, Expr.map_token_lexemes]

theorem SpelledAll.mono {spelling spelling' : Expr → List Token → Prop} {pieces : List Piece}
    {tokens : List Token} (spelled : SpelledAll spelling pieces tokens)
    (weaker : ∀ value tokens, .expression value ∈ pieces → spelling value tokens →
      spelling' value tokens) : SpelledAll spelling' pieces tokens := by
  induction spelled with
  | nil => exact .nil
  | @cons piece pieces tokens others first rest induction =>
      refine .cons ?_ (induction fun value tokens member => weaker value tokens (by simp [member]))
      cases first with
      | sign breaks => exact .sign breaks
      | name breaks isName => exact .name breaks isName
      | expression spelled => exact .expression (weaker _ _ (by simp) spelled)

theorem wellFormed_of_spelledAll {pieces : List Piece} {tokens : List Token}
    (spelled : SpelledAll Expr.Spells pieces tokens)
    (wellFormed : ∀ token ∈ tokens, token.WellFormed)
    (closed : ∀ kind, .sign kind ∈ pieces → Lexeme.isClosed kind = true) :
    ∀ piece ∈ pieces, piece.WellFormed := by
  induction spelled with
  | nil => simp
  | @cons piece pieces tokens others first rest induction =>
      rw [List.forall_mem_append] at wellFormed
      have othersWellFormed :=
        induction wellFormed.2 fun kind member => closed kind (by simp [member])
      refine List.forall_mem_cons.2 ⟨?_, othersWellFormed⟩
      cases first with
      | sign breaks => exact closed _ (by simp)
      | @name _ token _ isName => exact (wellFormed.1 token (by simp)).name isName
      | expression spells =>
          refine Expr.wellFormed_of_derives spells.derives fun token member => ?_
          exact wellFormed.1 token (List.mem_of_mem_filter member)

theorem unbroken_sign {spelling : Expr → List Token → Prop} {kind : TokenKind}
    {tokens : List Token} (spelled : (Piece.sign kind).Spelled spelling tokens)
    (unbroken : ∀ token ∈ tokens, token.kind ≠ .newline) :
    ∃ token, tokens = [token] ∧ token.kind = kind := by
  rcases exists_of_spelled_sign spelled with ⟨run, token, breaks, isSign, rfl⟩
  cases run with
  | nil => exact ⟨token, rfl, isSign⟩
  | cons first others => exact absurd (breaks first (by simp)) (unbroken first (by simp))

theorem spanAll_of_spelledAll {pieces : List Piece} {tokens : List Token}
    (spelled : SpelledAll Expr.Spells pieces tokens) (chain : pieces.IsChain Before)
    (closed : ∀ value, .expression value ∉ pieces.getLast?) {before after : TokenStream}
    (passed : before.Passed tokens after) : SpanAll pieces before after := by
  induction pieces generalizing tokens before with
  | nil =>
      rw [spelledAll_nil.1 spelled] at passed
      exact spanAll_nil.2 ((TokenStream.Passed.nothing before).eq passed)
  | cons piece pieces induction =>
      rcases spelledAll_cons.1 spelled with ⟨first, others, rfl, firstSpelled, rest⟩
      rcases List.isChain_cons.1 chain with ⟨neighbours, othersChain⟩
      rcases passed.split with ⟨middle, firstPassed, othersPassed⟩
      have othersClosed : ∀ value, .expression value ∉ pieces.getLast? := by
        intro value isLast
        cases pieces with
        | nil => simp at isLast
        | cons next more => exact closed value (by rwa [List.getLast?_cons_cons])
      cases firstSpelled with
      | sign breaks =>
          exact .cons (.sign breaks firstPassed) (induction rest othersChain othersClosed othersPassed)
      | name breaks isName =>
          exact .cons (.name breaks isName firstPassed)
            (induction rest othersChain othersClosed othersPassed)
      | @expression value _ spells =>
          cases pieces with
          | nil => exact absurd rfl (closed value)
          | cons next more =>
              rcases exists_sign_of_before (neighbours next rfl) (by simp) with
                ⟨kind, rfl, closer⟩
              rcases spelledAll_cons.1 rest with ⟨sign, behind, rfl, signSpelled, moreSpelled⟩
              rcases exists_of_spelled_sign signSpelled with ⟨run, token, breaks, isSign, rfl⟩
              -- Line terminators behind the expression are read with it.
              rw [List.append_assoc] at othersPassed
              rcases othersPassed.split with ⟨place, runPassed, signPassed⟩
              have alone : (Piece.sign kind).Spelled Expr.Spells [token] :=
                isSign ▸ @Spelled.sign Expr.Spells [] token TokenStream.breaks_nil
              have current := TokenStream.current_eq signPassed.ahead
              refine .cons (.expression (Expr.rule_accepted_of_spells (spells.append_breaks breaks)
                (firstPassed.trans runPassed) ?_ ?_ ?_))
                (induction (.cons alone moreSpelled) othersChain othersClosed signPassed)
              · rw [current, isSign]
                rcases closer with rfl | rfl | rfl <;> decide
              · rw [current, isSign]
                rcases closer with rfl | rfl | rfl <;> decide
              · rw [current, Token.binaryOp?, isSign]
                rcases closer with rfl | rfl | rfl <;> rfl

theorem length_of_spelledAll {spelling : Expr → List Token → Prop} {pieces : List Piece}
    {tokens : List Token} (spelled : SpelledAll spelling pieces tokens)
    (unbroken : ∀ token ∈ tokens, token.kind ≠ .newline)
    (plain : ∀ value, .expression value ∉ pieces) : tokens.length = pieces.length := by
  induction spelled with
  | nil => rfl
  | @cons piece pieces tokens others first rest induction =>
      rw [List.forall_mem_append] at unbroken
      have others := induction unbroken.2 fun value member => plain value (by simp [member])
      have one : tokens.length = 1 := by
        cases first with
        | @sign run token breaks =>
            cases run with
            | nil => rfl
            | cons first _ => exact absurd (breaks first (by simp)) (unbroken.1 first (by simp))
        | @name run token breaks =>
            cases run with
            | nil => rfl
            | cons first _ => exact absurd (breaks first (by simp)) (unbroken.1 first (by simp))
        | expression => exact absurd List.mem_cons_self (plain _)
      rw [List.length_append, List.length_cons, others, one]
      omega

theorem exists_of_spelledAll {spelling spelling' : Expr → List Token → Prop}
    {front : List Piece} {value : Expr} {kind : TokenKind} {tokens : List Token}
    (plain : ∀ value, Piece.expression value ∉ front)
    (unbroken : ∀ token ∈ tokens, token.kind ≠ .newline)
    (spelled : SpelledAll spelling (front ++ [Piece.expression value, .sign kind]) tokens)
    (spelled' : SpelledAll spelling' (front ++ [Piece.expression value, .sign kind]) tokens) :
    ∃ inside, (∀ token ∈ inside, token ∈ tokens) ∧ spelling value inside ∧
      spelling' value inside := by
  rcases spelledAll_append.1 spelled with ⟨first, rest, rfl, firstSpelled, spelled⟩
  rcases spelledAll_append.1 spelled' with ⟨first', rest', same, firstSpelled', spelled'⟩
  rw [List.forall_mem_append] at unbroken
  have unbroken' : ∀ token ∈ first' ++ rest', token.kind ≠ .newline := by
    rw [← same]
    exact List.forall_mem_append.2 unbroken
  rw [List.forall_mem_append] at unbroken'
  have length := length_of_spelledAll firstSpelled unbroken.1 plain
  have length' := length_of_spelledAll firstSpelled' unbroken'.1 plain
  rcases List.append_inj same (length.trans length'.symm) with ⟨rfl, rfl⟩
  simp only [spelledAll_cons, spelledAll_nil] at spelled spelled'
  rcases spelled with ⟨inside, _, rfl, valueSpelled, sign, _, rfl, signSpelled, rfl⟩
  rcases spelled' with ⟨inside', _, same, valueSpelled', sign', _, rfl, signSpelled', rfl⟩
  rw [List.append_nil, List.append_nil] at same
  rw [List.forall_mem_append, List.append_nil] at unbroken
  have unbrokenSign' : ∀ token ∈ sign', token.kind ≠ .newline := by
    have both := unbroken.2
    rw [← List.forall_mem_append, same, List.forall_mem_append] at both
    exact both.2
  rcases unbroken_sign signSpelled unbroken.2.2 with ⟨token, rfl, _⟩
  rcases unbroken_sign signSpelled' unbrokenSign' with ⟨token', rfl, _⟩
  have sameInside := (List.append_inj' same rfl).1
  subst sameInside
  cases valueSpelled with
  | expression spelled =>
      cases valueSpelled' with
      | expression spelled' =>
          refine ⟨inside, fun token member => ?_, spelled, spelled'⟩
          exact List.mem_append_right _ (List.mem_append_left _ member)

end Piece

/-! ## Tokens of instructions -/

namespace Instruction

theorem forall_mem_pieces (property : Piece → Prop) (instruction : Instruction)
    (signs : ∀ kind, Lexeme.isClosed kind = true → kind ≠ .sectionMarker → property (.sign kind))
    (names : ∀ word, property (.name word))
    (values : ∀ value ∈ instruction.expressions, property (.expression value)) :
    ∀ piece ∈ instruction.pieces, property piece := by
  have opening := signs .leftParen rfl (by decide)
  have closing := signs .rightParen rfl (by decide)
  have comma := signs .comma rfl (by decide)
  cases instruction with
  | talk textId choices =>
      cases choices with
      | nil => simp [pieces, arguments, Argument.pieces, Piece.separated_cons, *]
      | cons first others =>
          have choice : ∀ choice : Choice, ∀ piece ∈ choice.pieces, property piece := by
            simp [Choice.pieces, *]
          have more : ∀ piece ∈ others.flatMap fun choice => Piece.sign .comma :: choice.pieces,
              property piece := by
            intro piece member
            rcases List.mem_flatMap.1 member with ⟨other, _, member⟩
            rcases List.mem_cons.1 member with rfl | member
            · exact comma
            · exact choice other piece member
          rw [pieces, Rule.pieces_talkWithChoices]
          simp only [List.forall_mem_cons, List.forall_mem_append]
          exact ⟨opening, ⟨names textId, comma, signs .leftBracket rfl (by decide), choice first, more,
            signs .rightBracket rfl (by decide), by simp⟩, closing, by simp⟩
  | _ =>
      simp_all [pieces, arguments, Argument.pieces, Piece.separated_cons, Instruction.expressions]

theorem isClosed_of_mem_pieces {instruction : Instruction} {kind : TokenKind}
    (member : .sign kind ∈ instruction.pieces) : Lexeme.isClosed kind = true :=
  forall_mem_pieces (fun piece => ∀ kind, piece = .sign kind → Lexeme.isClosed kind = true)
    instruction (by simp +contextual) (by simp) (by simp) _ member kind rfl

theorem marker_not_mem_pieces (instruction : Instruction) :
    Piece.sign .sectionMarker ∉ instruction.pieces := by
  intro member
  exact forall_mem_pieces (fun piece => piece ≠ .sign .sectionMarker) instruction
    (by simp) (by simp) (by simp) _ member rfl

theorem mem_expressions_of_mem_pieces {instruction : Instruction} {value : Expr}
    (member : .expression value ∈ instruction.pieces) : value ∈ instruction.expressions :=
  forall_mem_pieces (fun piece => ∀ value, piece = .expression value →
    value ∈ instruction.expressions) instruction (by simp) (by simp) (by simp) _ member value rfl

/-- Behind every name and every expression of an instruction stands a sign. -/
theorem isChain_pieces (instruction : Instruction) : instruction.pieces.IsChain Piece.Before := by
  cases instruction with
  | talk textId choices =>
      cases choices with
      | nil => simp [pieces, arguments, Argument.pieces, Piece.separated_cons, Piece.Before]
      | cons first others =>
          have more : (others.flatMap (fun choice : Choice => Piece.sign .comma :: choice.pieces) ++
              [Piece.sign .rightBracket, Piece.sign .rightParen]).IsChain Piece.Before := by
            induction others with
            | nil => simp [Piece.Before]
            | cons second others induction =>
                rw [List.flatMap_cons, List.append_assoc]
                simpa [Choice.pieces, List.isChain_cons, Piece.Before] using induction
          rw [pieces, Rule.pieces_talkWithChoices]
          simpa [Choice.pieces, List.isChain_cons, Piece.Before] using more
  | _ => simp [pieces, arguments, Argument.pieces, Piece.separated_cons, Piece.Before]

def WellFormed (instruction : Instruction) : Prop :=
  ∀ piece ∈ instruction.pieces, piece.WellFormed

theorem wellFormed_of_spans {instruction : Instruction} {before after : TokenStream}
    (spans : instruction.Spans before after)
    (wellFormed : ∀ token ∈ before.ahead, token.WellFormed) : instruction.WellFormed := by
  rcases spans with ⟨_, _, opened, closed, _, passed, pieces, _⟩
  rcases pieces.spelled with ⟨tokens, piecesPassed, spelled⟩
  refine Piece.wellFormed_of_spelledAll spelled (fun token member => wellFormed token ?_)
    fun kind member => isClosed_of_mem_pieces member
  rw [passed.ahead, piecesPassed.ahead]
  simp [member]

theorem isName_kind (instruction : Instruction) : Text.IsName instruction.kind := by
  cases instruction <;> simp only [kind] <;> decide

theorem row_lexemes {instruction : Instruction} (wellFormed : instruction.WellFormed)
    (tail : List Char) : Lexeme.Row instruction.lexemes tail := by
  have noBlanks : ∀ c ∈ ([] : List Char), Text.isBlank c = true := by simp
  refine ⟨?_, Lexeme.row_append.2 ⟨?_, Lexeme.standsBefore_lineEnd noBlanks, trivial⟩⟩
  · apply Lexeme.standsBefore_name noBlanks instruction.isName_kind
    rw [pieces, Lexeme.textOf_append, List.append_assoc, Piece.textOf_rowOf_cons]
    exact .cons (by decide) _
  · exact Piece.row_rowOf wellFormed instruction.isChain_pieces noBlanks (.cons (by decide) _)

theorem locate_lexemes (place : Position) (instruction : Instruction) :
    ∃ (word : Token) (pieces : List Token) (lineEnd : Token),
      Scan.locate place instruction.lexemes = word :: (pieces ++ [lineEnd]) ∧
      word.isWord instruction.kind = true ∧ lineEnd.kind = .newline ∧
      Piece.SpelledAll Piece.rendering instruction.pieces pieces ∧
      (instruction.WellFormed → ∀ token ∈ pieces, token.kind ≠ .newline) := by
  rw [lexemes, Scan.locate_cons, Scan.locate_append]
  refine ⟨_, _, _, rfl, ?_, rfl, Piece.spelledAll_locate _ _ _, fun wellFormed token member => ?_⟩
  · simp [Token.isWord, Lexeme.name, Lexeme.plain]
  · rcases Scan.exists_lexeme_of_mem_locate member with ⟨lexeme, inside, kind, _⟩
    exact kind ▸ Piece.kind_of_mem_rowOf wellFormed [] lexeme inside

/-- The tokens of an instruction's line: its keyword, its pieces, and a line terminator. -/
def Written (instruction : Instruction) (tokens : List Token) : Prop :=
  ∃ word pieces lineEnd, tokens = word :: (pieces ++ [lineEnd]) ∧
    word.isWord instruction.kind = true ∧ Piece.SpelledAll Expr.Spells instruction.pieces pieces ∧
    lineEnd.kind = .newline

theorem spans_iff_written {instruction : Instruction} {before after : TokenStream} :
    instruction.Spans before after ↔
      ∃ tokens, before.Passed tokens after ∧ instruction.Written tokens := by
  constructor
  · intro spans
    rcases spans with ⟨word, opened, closed, lineEnd, isWord, wordPassed, pieces, isEnd, endPassed⟩
    rcases pieces.spelled with ⟨tokens, piecesPassed, spelled⟩
    refine ⟨word :: (tokens ++ [lineEnd]), ?_, word, tokens, lineEnd, rfl, isWord, spelled, isEnd⟩
    exact wordPassed.trans (piecesPassed.trans endPassed)
  · intro holds
    rcases holds with ⟨_, passed, word, pieces, lineEnd, rfl, isWord, spelled, isEnd⟩
    have parts : word :: (pieces ++ [lineEnd]) = [word] ++ (pieces ++ [lineEnd]) := rfl
    rw [parts] at passed
    rcases passed.split with ⟨opened, wordPassed, passed⟩
    rcases passed.split with ⟨closed, piecesPassed, endPassed⟩
    have closing : ∀ value, .expression value ∉ instruction.pieces.getLast? := by
      simp [Instruction.pieces, List.getLast?_cons]
    exact ⟨word, opened, closed, lineEnd, isWord, wordPassed,
      Piece.spanAll_of_spelledAll spelled instruction.isChain_pieces closing piecesPassed, isEnd,
      endPassed⟩

theorem spans_of_lexemes {instruction : Instruction}
    (derived : ∀ value ∈ instruction.expressions, Expr.Derives .disjunction value.tokens value)
    {place : Position} {before after : TokenStream}
    (passed : before.Passed (Scan.locate place instruction.lexemes) after) :
    instruction.Spans before after := by
  rcases locate_lexemes place instruction with
    ⟨word, pieces, lineEnd, located, isWord, isEnd, rendered, _⟩
  have spelled : Piece.SpelledAll Expr.Spells instruction.pieces pieces := by
    apply rendered.mono
    intro value tokens member same
    apply Expr.Spells.of_derives
    apply Expr.derives_of_map_unplaced (derived value (mem_expressions_of_mem_pieces member))
    rw [same, ← same, List.map_map]
    rfl
  exact spans_iff_written.2 ⟨_, passed, word, pieces, lineEnd, located, isWord, spelled, isEnd⟩

theorem exists_pieces_eq {instruction : Instruction} {value : Expr}
    (member : value ∈ instruction.expressions) :
    ∃ front, instruction.pieces = front ++ [Piece.expression value, .sign .rightParen] ∧
      ∀ other, .expression other ∉ front := by
  cases instruction with
  | jumpIf target condition =>
      rw [List.mem_singleton.1 member]
      exact ⟨[.sign .leftParen, .name target, .sign .comma], rfl, by simp⟩
  | assign name value =>
      rw [List.mem_singleton.1 member]
      exact ⟨[.sign .leftParen, .name name, .sign .comma], rfl, by simp⟩
  | receiveMoney amount =>
      rw [List.mem_singleton.1 member]
      exact ⟨[.sign .leftParen], rfl, by simp⟩
  | _ => simp [expressions] at member

theorem wellFormed_of_mem_expressions {instruction : Instruction}
    (wellFormed : instruction.WellFormed) {value : Expr}
    (member : value ∈ instruction.expressions) : value.WellFormed := by
  rcases exists_pieces_eq member with ⟨front, pieces, _⟩
  exact wellFormed (.expression value) (by simp [pieces])

theorem derives_of_spelledAll {instruction : Instruction} {tokens : List Token}
    (unbroken : ∀ token ∈ tokens, token.kind ≠ .newline)
    (rendered : Piece.SpelledAll Piece.rendering instruction.pieces tokens)
    (spelled : Piece.SpelledAll Expr.Spells instruction.pieces tokens) :
    ∀ value ∈ instruction.expressions, Expr.Derives .disjunction value.tokens value := by
  intro value member
  rcases exists_pieces_eq member with ⟨front, same, plain⟩
  rw [same] at rendered spelled
  rcases Piece.exists_of_spelledAll plain unbroken rendered spelled with
    ⟨inside, among, rendered, spells⟩
  have derived := spells.derives
  rw [Expr.spoken_eq_self fun token member => unbroken token (among token member)] at derived
  apply Expr.derives_of_map_unplaced derived
  rw [rendered, ← rendered, List.map_map]
  rfl

end Instruction

end EventScript
