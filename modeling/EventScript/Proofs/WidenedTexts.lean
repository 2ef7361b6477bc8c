import EventScript.Proofs.Continuations

/-! Texts with more blanks in them. Blanks that are put in before, between or behind the tokens of a
text change no token; and where the text is a script, they change no section either. -/

namespace EventScript

open TokenStream

/-! ## More blanks -/

namespace Text

structure MoreBlanks (blanks more : List Char) : Prop where
  kept : blanks.Sublist more
  blank : ∀ c ∈ more, isBlank c = true

/-- A text that goes on like another up to a separation, behind which it may differ. -/
def Departs (tail tail' : List Char) : Prop :=
  ∃ common rest rest', tail = common ++ rest ∧ tail' = common ++ rest' ∧ Separated rest'

theorem Departs.behind {tail tail' : List Char} (departs : Departs tail tail')
    (source : List Char) : Departs (source ++ tail) (source ++ tail') := by
  rcases departs with ⟨common, rest, rest', rfl, rfl, separated⟩
  exact ⟨source ++ common, rest, rest', by simp, by simp, separated⟩

theorem MoreBlanks.ne_nil {blanks more : List Char} (moreBlanks : MoreBlanks blanks more)
    (nonempty : blanks ≠ []) : more ≠ [] := by
  intro nothing
  have kept := moreBlanks.kept
  rw [nothing] at kept
  exact nonempty (List.sublist_nil.1 kept)

theorem MoreBlanks.departs {blanks more tail tail' : List Char}
    (moreBlanks : MoreBlanks blanks more) (departs : Departs tail tail') :
    Departs (blanks ++ tail) (more ++ tail') := by
  cases more with
  | nil =>
      rw [List.sublist_nil.1 moreBlanks.kept]
      exact departs
  | cons first others =>
      exact ⟨[], _, _, rfl, rfl, .of_isBlank (moreBlanks.blank first (by simp)) _⟩

end Text

namespace Lexeme

structure Widened (lexeme wider : Lexeme) : Prop where
  kind : wider.kind = lexeme.kind
  value : wider.value = lexeme.value
  source : wider.source = lexeme.source
  blanks : Text.MoreBlanks lexeme.blanks wider.blanks

variable {lexeme wider : Lexeme} {lexemes widers : List Lexeme}

theorem Widened.token (widened : lexeme.Widened wider) : wider.token = lexeme.token := by
  rw [Lexeme.token, Lexeme.token, widened.kind, widened.value]

theorem map_token_widened (widened : List.Forall₂ Widened lexemes widers) :
    widers.map Lexeme.token = lexemes.map Lexeme.token := by
  induction widened with
  | nil => rfl
  | cons first _ induction => rw [List.map_cons, List.map_cons, first.token, induction]

/-! ## Rows of wider lexemes -/

theorem StandsBefore.of_departs {tail tail' : List Char} (stands : lexeme.StandsBefore tail)
    (departs : Text.Departs tail tail') : lexeme.StandsBefore tail' := by
  rcases departs with ⟨common, rest, rest', rfl, rfl, separated⟩
  exact stands.of_separated separated

theorem Widened.standsBefore {tail : List Char} (widened : lexeme.Widened wider)
    (stands : lexeme.StandsBefore tail) : wider.StandsBefore tail := by
  refine ⟨widened.blanks.blank, ?_⟩
  rw [widened.kind, widened.value, widened.source]
  exact stands.reading

theorem departs_textOf {tail tail' : List Char} (widened : List.Forall₂ Widened lexemes widers)
    (departs : Text.Departs tail tail') :
    Text.Departs (textOf lexemes ++ tail) (textOf widers ++ tail') := by
  induction widened with
  | nil => exact departs
  | cons first _ induction =>
      rw [textOf_cons, textOf_cons, first.source]
      simp only [List.append_assoc]
      exact first.blanks.departs (induction.behind _)

theorem row_of_widened {tail tail' : List Char} (widened : List.Forall₂ Widened lexemes widers)
    (row : Row lexemes tail) (departs : Text.Departs tail tail') : Row widers tail' := by
  induction widened with
  | nil => trivial
  | cons first others induction =>
      have stands := row.1.of_departs (departs_textOf others departs)
      exact ⟨first.standsBefore stands, induction row.2⟩

end Lexeme

/-! ## Wider texts -/

/-- Another text with the same lexemes, and with more blanks before them and behind the last. -/
def Text.Widened (text wider : String) : Prop :=
  ∃ lexemes blanks, List.Forall₂ Lexeme.Widened (Scan.read text.toList).lexemes lexemes ∧
    MoreBlanks (Scan.read text.toList).blanks blanks ∧
    wider.toList = Lexeme.textOf lexemes ++ blanks

theorem Lexeme.WellFormed.widened {lexeme : Lexeme} {inserted : List Char}
    (wellFormed : lexeme.WellFormed) (blank : ∀ c ∈ inserted, Text.isBlank c = true) :
    lexeme.Widened { lexeme with blanks := inserted ++ lexeme.blanks } where
  kind := rfl
  value := rfl
  source := rfl
  blanks := ⟨List.sublist_append_right _ _, List.forall_mem_append.2 ⟨blank, wellFormed.blanks⟩⟩

theorem Lexeme.widened_same {lexemes : List Lexeme}
    (wellFormed : ∀ lexeme ∈ lexemes, lexeme.WellFormed) :
    List.Forall₂ Widened lexemes lexemes :=
  List.forall₂_same.2 fun lexeme member =>
    @WellFormed.widened lexeme [] (wellFormed lexeme member) (by simp)

theorem Text.widened_insert {text wider : String} {before behind : List Lexeme}
    {inserted : List Char} (sound : (Scan.read text.toList).fault = none)
    (split : (Scan.read text.toList).lexemes = before ++ behind)
    (blank : ∀ c ∈ inserted, isBlank c = true)
    (spelled : wider.toList = Lexeme.textOf before ++ inserted ++
      (Lexeme.textOf behind ++ (Scan.read text.toList).blanks)) : Widened text wider := by
  rcases Scan.row_of_read sound with ⟨row, _, endBlank⟩
  have wellFormed := Lexeme.wellFormed_of_row row
  rw [split, List.forall_mem_append] at wellFormed
  rw [Widened, split]
  cases behind with
  | nil =>
      refine ⟨before, inserted ++ (Scan.read text.toList).blanks, ?_,
        ⟨List.sublist_append_right _ _, List.forall_mem_append.2 ⟨blank, endBlank⟩⟩, ?_⟩
      · rw [List.append_nil]
        exact Lexeme.widened_same wellFormed.1
      · simpa using spelled
  | cons lexeme others =>
      rw [List.forall_mem_cons] at wellFormed
      refine ⟨before ++ { lexeme with blanks := inserted ++ lexeme.blanks } :: others, _,
        List.rel_append (Lexeme.widened_same wellFormed.1)
          (.cons (wellFormed.2.1.widened blank) (Lexeme.widened_same wellFormed.2.2)),
        ⟨.refl _, endBlank⟩, ?_⟩
      simpa using spelled

theorem Tokens.ofText_of_widened {text wider : String} {tokens : Tokens}
    (lexed : ofText text = .ok tokens) (widened : Text.Widened text wider) :
    ∃ lexemes lexemes' place, List.Forall₂ Lexeme.Widened lexemes lexemes' ∧
      tokens.list = Scan.locate .start lexemes ∧
      (∀ lexeme ∈ lexemes, lexeme.WellFormed) ∧ (∀ lexeme ∈ lexemes', lexeme.WellFormed) ∧
      ofText wider = .ok ⟨Scan.locate .start lexemes', place⟩ := by
  rcases list_of_ofText lexed with ⟨sound, list⟩
  rcases Scan.row_of_read sound with ⟨row, _, blank⟩
  rcases widened with ⟨lexemes', blanks', widers, behind, spelled⟩
  have nothing : Text.Departs [] [] := ⟨[], [], [], rfl, rfl, .nil⟩
  have departs := behind.departs nothing
  rw [List.append_nil, List.append_nil] at departs
  have row' := Lexeme.row_of_widened widers row departs
  exact ⟨_, lexemes', _, widers, list, Lexeme.wellFormed_of_row row, Lexeme.wellFormed_of_row row',
    ofText_of_row row' behind.blank spelled⟩

/-! ## Section markers in scripts -/

theorem Expr.unmarked_of_spells {value : Expr} {lines : List Token} (spells : Spells value lines) :
    ∀ token ∈ lines, token.kind ≠ .sectionMarker := by
  intro token member isMarker
  have speaks : token ∈ spoken lines := by simp [spoken, member, isMarker]
  exact (kind_of_derives spells.derives token speaks).2 isMarker

theorem unmarked_of_breaks {run : List Token} (breaks : Breaks run) :
    ∀ token ∈ run, token.kind ≠ .sectionMarker := by
  intro token member
  simp [breaks token member]

theorem Piece.unmarked_of_spelledAll {pieces : List Piece} {tokens : List Token}
    (spelled : SpelledAll Expr.Spells pieces tokens) (noMarker : .sign .sectionMarker ∉ pieces) :
    ∀ token ∈ tokens, token.kind ≠ .sectionMarker := by
  induction spelled with
  | nil => simp
  | @cons piece pieces tokens others first rest induction =>
      rw [List.mem_cons, not_or] at noMarker
      refine List.forall_mem_append.2 ⟨?_, induction noMarker.2⟩
      cases first with
      | @sign run token breaks =>
          refine List.forall_mem_append.2 ⟨unmarked_of_breaks breaks, ?_⟩
          intro last isToken isMarker
          rw [List.mem_singleton.1 isToken] at isMarker
          exact noMarker.1 (by rw [isMarker])
      | @name run token breaks isName =>
          exact List.forall_mem_append.2 ⟨unmarked_of_breaks breaks, by simp [isName]⟩
      | expression spells => exact Expr.unmarked_of_spells spells

/-- Whole lines, in which every section marker stands apart from the token behind it. -/
structure SpacedLines (tokens : List Token) : Prop where
  apart : tokens.IsChain fun first second =>
    first.kind = .sectionMarker → Rule.spacedFrom first second = true
  ends : ∀ last ∈ tokens.getLast?, last.kind = .newline

theorem isChain_of_unmarked {tokens : List Token}
    (unmarked : ∀ token ∈ tokens, token.kind ≠ .sectionMarker) :
    tokens.IsChain fun first second =>
      first.kind = .sectionMarker → Rule.spacedFrom first second = true := by
  induction tokens with
  | nil => exact .nil
  | cons token others induction =>
      rw [List.forall_mem_cons] at unmarked
      refine List.isChain_cons.2 ⟨?_, induction unmarked.2⟩
      intro _ _ isMarker
      exact absurd isMarker unmarked.1

namespace SpacedLines

theorem of_breaks {run : List Token} (breaks : Breaks run) : SpacedLines run where
  apart := isChain_of_unmarked (unmarked_of_breaks breaks)
  ends := fun last isLast => breaks last (List.mem_of_getLast? isLast)

theorem append {first second : List Token} (spaced : SpacedLines first)
    (spaced' : SpacedLines second) : SpacedLines (first ++ second) where
  apart := by
    refine List.isChain_append.2 ⟨spaced.apart, spaced'.apart, ?_⟩
    intro last isLast _ _ isMarker
    rw [spaced.ends last isLast] at isMarker
    contradiction
  ends := by
    intro last isLast
    rw [List.getLast?_append, Option.mem_def, Option.or_eq_some_iff] at isLast
    rcases isLast with inSecond | ⟨_, inFirst⟩
    · exact spaced'.ends last inSecond
    · exact spaced.ends last inFirst

end SpacedLines

theorem Statement.spacedLines {sections after : List Section} {line : List Token}
    (statement : Statement sections line after) : SpacedLines line := by
  cases statement with
  | header headed =>
      rcases headed with ⟨marker, name, lineEnd, rfl, _, isName, spaced, isEnd, _⟩
      exact ⟨by simp [spaced, isName], by simp [isEnd]⟩
  | @instruction instruction _ written =>
      rcases written with ⟨word, pieces, lineEnd, rfl, isWord, spelled, isEnd⟩
      refine ⟨isChain_of_unmarked ?_, by simp [List.getLast?_cons, isEnd]⟩
      rw [List.forall_mem_cons, List.forall_mem_append]
      refine ⟨by simp [(kind_of_isWord isWord).1], ?_, by simp [isEnd]⟩
      exact Piece.unmarked_of_spelledAll spelled instruction.marker_not_mem_pieces

theorem Stage.Reached.spacedLines {stream : TokenStream} {stage : Stage}
    (reached : Reached stream stage) :
    ∃ tokens, stream.Passed tokens stage.place ∧ SpacedLines tokens := by
  induction reached with
  | refl =>
      rcases passed_skipNewlines stream with ⟨run, breaks, passed⟩
      exact ⟨run, passed, .of_breaks breaks⟩
  | tail _ passes induction =>
      rcases induction with ⟨tokens, passed, spaced⟩
      rcases next_iff_statement.1 passes with ⟨line, rest, linePassed, statement, skips⟩
      rcases passed_skipNewlines rest with ⟨run, breaks, runPassed⟩
      refine ⟨tokens ++ (line ++ run), ?_,
        spaced.append (statement.spacedLines.append (.of_breaks breaks))⟩
      rw [skips]
      exact passed.trans (linePassed.trans runPassed)

theorem Stage.Reached.spacedLines_whole {tokens : Tokens} {last : Stage}
    (reached : Reached tokens.stream last) (whole : last.place.ahead = []) :
    SpacedLines tokens.list := by
  rcases reached.spacedLines with ⟨passedTokens, passed, spaced⟩
  have ahead := passed.ahead
  rw [whole, List.append_nil] at ahead
  exact (show tokens.list = passedTokens from ahead) ▸ spaced

/-! ## Glyphs of wider lexemes -/

theorem isChain_of_locate {place : Position} {lexemes : List Lexeme}
    (wellFormed : ∀ lexeme ∈ lexemes, lexeme.WellFormed)
    (apart : (Scan.locate place lexemes).IsChain fun first second =>
      first.kind = .sectionMarker → Rule.spacedFrom first second = true) :
    lexemes.IsChain fun first second => first.kind = .sectionMarker → second.blanks ≠ [] := by
  induction lexemes generalizing place with
  | nil => exact .nil
  | cons lexeme others induction =>
      rw [List.forall_mem_cons] at wellFormed
      rw [Scan.locate_cons, List.isChain_cons] at apart
      refine List.isChain_cons.2 ⟨?_, induction wellFormed.2 apart.2⟩
      intro next isNext isMarker noBlanks
      cases others with
      | nil => simp at isNext
      | cons second more =>
          rw [List.head?_cons, Option.mem_some_iff] at isNext
          subst isNext
          have spaced := apart.1 _ (by rw [Scan.locate_cons]; rfl) isMarker
          rw [noBlanks] at spaced
          simp [Rule.spacedFrom, wellFormed.1.marker isMarker, Position.next] at spaced

namespace Lexeme

theorem glyphs_behind_of_widened {previous previous' : Lexeme} {lexemes widers : List Lexeme}
    (kind : previous'.kind = previous.kind) (widened : List.Forall₂ Widened lexemes widers)
    (apart : (previous :: lexemes).IsChain fun first second =>
      first.kind = .sectionMarker → second.blanks ≠ []) :
    glyphs (some previous') widers = glyphs (some previous) lexemes := by
  induction widened generalizing previous previous' with
  | nil => rfl
  | @cons lexeme wider lexemes widers first _ induction =>
      rw [List.isChain_cons_cons] at apart
      have behind : (previous.kind == .sectionMarker && !wider.blanks.isEmpty) =
          (previous.kind == .sectionMarker && !lexeme.blanks.isEmpty) := by
        by_cases isMarker : previous.kind = .sectionMarker
        · have blanks := apart.1 isMarker
          rw [List.isEmpty_eq_false_iff.2 blanks,
            List.isEmpty_eq_false_iff.2 (first.blanks.ne_nil blanks)]
        · rw [beq_false_of_ne isMarker, Bool.false_and, Bool.false_and]
      simp only [glyphs, Option.any_some, kind, first.token, behind, induction first.kind apart.2]

theorem glyphs_of_widened {lexemes widers : List Lexeme}
    (widened : List.Forall₂ Widened lexemes widers)
    (apart : lexemes.IsChain fun first second =>
      first.kind = .sectionMarker → second.blanks ≠ []) :
    glyphs none widers = glyphs none lexemes := by
  cases widened with
  | nil => rfl
  | cons first others =>
      simp only [glyphs, Option.any_none, first.token, glyphs_behind_of_widened first.kind others apart]

end Lexeme

/-! ## Wider scripts -/

theorem alike_of_widened {file : Path} {text : String} {tokens : Tokens} {lexemes : List Lexeme}
    {lexemes' : List Lexeme} {sections : List Section} (lexed : Tokens.ofText text = .ok tokens)
    (list : tokens.list = Scan.locate .start lexemes)
    (widened : List.Forall₂ Lexeme.Widened lexemes lexemes')
    (wellFormed : ∀ lexeme ∈ lexemes, lexeme.WellFormed)
    (wellFormed' : ∀ lexeme ∈ lexemes', lexeme.WellFormed)
    (accepted : parseSections file text = .ok sections) :
    Alike tokens.list (Scan.locate .start lexemes') := by
  rcases (parseSections_eq_ok_iff_of_lexed lexed).1 accepted with ⟨last, reached, finished, _⟩
  have spaced := reached.spacedLines_whole (reached.ahead_eq_nil lexed finished)
  rw [list] at spaced
  rw [Alike, list, glyphs_locate _ wellFormed, glyphs_locate _ wellFormed',
    Lexeme.glyphs_of_widened widened (isChain_of_locate wellFormed spaced.apart)]

/-- Blanks carry no meaning: a text with more of them consists of the same tokens, and is the same
script. -/
theorem parseSections_of_widened {text wider : String} {tokens : Tokens}
    (lexed : Tokens.ofText text = .ok tokens) (widened : Text.Widened text wider) :
    ∃ tokens', Tokens.ofText wider = .ok tokens' ∧
      tokens'.toList.map Token.unplaced = tokens.toList.map Token.unplaced ∧
      ∀ file sections, parseSections file text = .ok sections →
        parseSections file wider = .ok sections := by
  rcases Tokens.ofText_of_widened lexed widened with
    ⟨lexemes, lexemes', place, widers, list, wellFormed, wellFormed', lexed'⟩
  refine ⟨_, lexed', ?_, ?_⟩
  · simp [Tokens.toList, list, Lexeme.map_token_widened widers, Token.unplaced, Token.atEnd]
  · intro file sections accepted
    have alike := alike_of_widened lexed list widers wellFormed wellFormed' accepted
    exact parseSections_of_alike lexed lexed' alike accepted

theorem parseSections_of_widened_jump :
    Text.Widened "--- a\njump(b)\n" "--- a\njump \t(b)\n" ∧
      (∃ tokens, Tokens.ofText "--- a\njump \t(b)\n" = .ok tokens ∧ tokens.list.length = 8) ∧
      parseSections unnamedFile "--- a\njump \t(b)\n" = .ok [⟨"a", [.jump "b"]⟩] := by
  have read : ∃ tokens, Tokens.ofText "--- a\njump(b)\n" = .ok tokens ∧ tokens.list.length = 8 ∧
      (Parser.start tokens).readSections.1 = .ok [⟨"a", [.jump "b"]⟩] := by
    have lexed : Tokens.ofText "--- a\njump(b)\n" = .ok
        ⟨[⟨.sectionMarker, "---", ⟨1, 1⟩⟩, ⟨.identifier, "a", ⟨1, 5⟩⟩, ⟨.newline, "\n", ⟨1, 6⟩⟩,
          ⟨.identifier, "jump", ⟨2, 1⟩⟩, ⟨.leftParen, "(", ⟨2, 5⟩⟩, ⟨.identifier, "b", ⟨2, 6⟩⟩,
          ⟨.rightParen, ")", ⟨2, 7⟩⟩, ⟨.newline, "\n", ⟨2, 8⟩⟩], ⟨3, 1⟩⟩ := by decide +kernel
    exact ⟨_, lexed, rfl, by decide +kernel⟩
  rcases read with ⟨tokens, lexed, count, read⟩
  have parsed : parseSections unnamedFile "--- a\njump(b)\n" = .ok [⟨"a", [.jump "b"]⟩] :=
    parseSections_eq_ok.2 ⟨tokens, lexed, read⟩
  let lexemes := (Scan.read "--- a\njump(b)\n".toList).lexemes
  have widened : Text.Widened "--- a\njump(b)\n" "--- a\njump \t(b)\n" :=
    @Text.widened_insert _ _ (lexemes.take 4) (lexemes.drop 4) [' ', '\t'] (by decide +kernel)
      (List.take_append_drop 4 lexemes).symm (by simp [Text.isBlank]) (by decide +kernel)
  rcases parseSections_of_widened lexed widened with ⟨tokens', lexed', same, accepts⟩
  have length := congrArg List.length same
  simp only [Tokens.toList, List.length_map, List.length_append, count] at length
  exact ⟨widened, ⟨tokens', lexed', Nat.add_right_cancel length⟩, accepts unnamedFile _ parsed⟩

end EventScript
