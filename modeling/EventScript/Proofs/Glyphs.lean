import EventScript.Proofs.InstructionText
import EventScript.Proofs.ReachedStatements

/-! What the grammar sees of tokens. Neither their places count nor which line terminators are
used; of the blanks between tokens only those behind a section marker do. Tokens that look
the same are the same statements. -/

namespace EventScript

open TokenStream

/-! ## Essences -/

namespace Token

/-- The kind and the value of a token. All line terminators count as one. -/
def essence (token : Token) : TokenKind × String :=
  (token.kind, if token.kind = .newline then "" else token.value)

theorem kind_of_essence {token other : Token} (same : other.essence = token.essence) :
    other.kind = token.kind :=
  congrArg Prod.fst same

theorem value_of_essence {token other : Token} (same : other.essence = token.essence)
    (notBreak : token.kind ≠ .newline) : other.value = token.value := by
  have kind := kind_of_essence same
  simpa [essence, kind, notBreak] using congrArg Prod.snd same

theorem isWord_of_essence {token other : Token} (same : other.essence = token.essence)
    (word : String) : other.isWord word = token.isWord word := by
  have kind := kind_of_essence same
  by_cases isBreak : token.kind = .newline
  · have noWord : (TokenKind.newline == TokenKind.identifier) = false := rfl
    simp [isWord, kind, isBreak, noWord]
  · rw [isWord, isWord, kind, value_of_essence same isBreak]

theorem unplaced_of_essence {token other : Token} (same : other.essence = token.essence)
    (notBreak : token.kind ≠ .newline) : other.unplaced = token.unplaced := by
  rw [unplaced, unplaced, kind_of_essence same, value_of_essence same notBreak]

end Token

theorem map_unplaced_of_essence {tokens others : List Token}
    (unbroken : ∀ token ∈ tokens, token.kind ≠ .newline)
    (same : others.map Token.essence = tokens.map Token.essence) :
    others.map Token.unplaced = tokens.map Token.unplaced := by
  induction tokens generalizing others with
  | nil => simpa using same
  | cons token tokens induction =>
      rcases List.map_eq_cons_iff.1 same with ⟨other, others, rfl, sameFirst, sameRest⟩
      rw [List.forall_mem_cons] at unbroken
      rw [List.map_cons, List.map_cons, induction unbroken.2 sameRest,
        Token.unplaced_of_essence sameFirst unbroken.1]

theorem map_essence_locate (place : Position) (lexemes : List Lexeme) :
    (Scan.locate place lexemes).map Token.essence =
      (lexemes.map Lexeme.token).map Token.essence := by
  rw [← Scan.map_unplaced_locate place lexemes, List.map_map]
  rfl

theorem breaks_of_essence {run others : List Token} (breaks : Breaks run)
    (same : others.map Token.essence = run.map Token.essence) : Breaks others := by
  induction run generalizing others with
  | nil =>
      rw [List.map_nil, List.map_eq_nil_iff] at same
      exact same ▸ breaks_nil
  | cons token run induction =>
      rcases List.map_eq_cons_iff.1 same with ⟨other, others, rfl, sameFirst, sameRest⟩
      rw [Breaks, List.forall_mem_cons] at breaks ⊢
      exact ⟨(Token.kind_of_essence sameFirst).trans breaks.1, induction breaks.2 sameRest⟩

/-! ## Expressions and instructions -/

namespace Expr

theorem Spread.of_essence {tokens lines others : List Token} (spread : Spread tokens lines)
    (same : others.map Token.essence = lines.map Token.essence) :
    ∃ alike, Spread alike others ∧ alike.map Token.essence = tokens.map Token.essence := by
  induction spread generalizing others with
  | nil =>
      rw [List.map_nil, List.map_eq_nil_iff] at same
      exact ⟨[], same ▸ .nil, rfl⟩
  | @cons token run tokens lines breaks unbroken _ induction =>
      rcases List.map_eq_cons_iff.1 same with ⟨other, rest, rfl, sameFirst, sameRest⟩
      rw [List.map_append] at sameRest
      rcases List.map_eq_append_iff.1 sameRest with ⟨run', lines', rfl, sameRun, sameLines⟩
      rcases induction sameLines with ⟨alike, spread, sameTokens⟩
      refine ⟨other :: alike, .cons (breaks_of_essence breaks sameRun) ?_ spread, ?_⟩
      · intro asks opened
        rcases opened with ⟨opening, head, opens⟩
        cases alike with
        | nil => simp at head
        | cons next more =>
            rcases List.map_eq_cons_iff.1 sameTokens.symm with ⟨next', more', rfl, sameNext, _⟩
            rw [List.head?_cons, Option.mem_some_iff] at head
            subst head
            have nothing := unbroken ((Token.isWord_of_essence sameFirst _).symm.trans asks)
              ⟨next', rfl, (Token.kind_of_essence sameNext).trans opens⟩
            subst nothing
            simpa using sameRun
      · rw [List.map_cons, List.map_cons, sameFirst, sameTokens]

theorem Spells.of_essence {value : Expr} {lines others : List Token} (spells : Spells value lines)
    (same : others.map Token.essence = lines.map Token.essence) : Spells value others := by
  rcases spells with ⟨run, tokens, spread, rfl, breaks, isSpread, derived⟩
  rw [List.map_append] at same
  rcases List.map_eq_append_iff.1 same with ⟨run', spread', rfl, sameRun, sameSpread⟩
  rcases isSpread.of_essence sameSpread with ⟨alike, isSpread', sameTokens⟩
  refine ⟨run', alike, spread', rfl, breaks_of_essence breaks sameRun, isSpread', ?_⟩
  exact derives_of_map_unplaced derived
    (map_unplaced_of_essence (unbroken_of_derives derived) sameTokens)

end Expr

namespace Piece

theorem Spelled.of_essence {piece : Piece} {tokens others : List Token}
    (spelled : piece.Spelled Expr.Spells tokens)
    (same : others.map Token.essence = tokens.map Token.essence) :
    piece.Spelled Expr.Spells others := by
  cases spelled with
  | @sign run token breaks =>
      rw [List.map_append] at same
      rcases List.map_eq_append_iff.1 same with ⟨run', last, rfl, sameRun, sameLast⟩
      rcases List.map_eq_singleton_iff.1 sameLast with ⟨other, rfl, sameToken⟩
      rw [← Token.kind_of_essence sameToken]
      exact .sign (breaks_of_essence breaks sameRun)
  | @name run token breaks isName =>
      rw [List.map_append] at same
      rcases List.map_eq_append_iff.1 same with ⟨run', last, rfl, sameRun, sameLast⟩
      rcases List.map_eq_singleton_iff.1 sameLast with ⟨other, rfl, sameToken⟩
      rw [← Token.value_of_essence sameToken (by simp [isName])]
      exact .name (breaks_of_essence breaks sameRun)
        ((Token.kind_of_essence sameToken).trans isName)
  | expression spells => exact .expression (spells.of_essence same)

theorem SpelledAll.of_essence {pieces : List Piece} {tokens others : List Token}
    (spelled : SpelledAll Expr.Spells pieces tokens)
    (same : others.map Token.essence = tokens.map Token.essence) :
    SpelledAll Expr.Spells pieces others := by
  induction spelled generalizing others with
  | nil =>
      rw [List.map_nil, List.map_eq_nil_iff] at same
      exact same ▸ .nil
  | cons first _ induction =>
      rw [List.map_append] at same
      rcases List.map_eq_append_iff.1 same with ⟨tokens', others', rfl, sameFirst, sameRest⟩
      exact .cons (first.of_essence sameFirst) (induction sameRest)

end Piece

theorem Instruction.Written.of_essence {instruction : Instruction} {tokens others : List Token}
    (written : instruction.Written tokens)
    (same : others.map Token.essence = tokens.map Token.essence) : instruction.Written others := by
  rcases written with ⟨word, pieces, lineEnd, rfl, isWord, spelled, isEnd⟩
  rw [List.map_cons, List.map_append] at same
  rcases List.map_eq_cons_iff.1 same with ⟨word', rest, rfl, sameWord, sameRest⟩
  rcases List.map_eq_append_iff.1 sameRest with ⟨pieces', last, rfl, samePieces, sameLast⟩
  rcases List.map_eq_singleton_iff.1 sameLast with ⟨lineEnd', rfl, sameEnd⟩
  exact ⟨word', pieces', lineEnd', rfl, (Token.isWord_of_essence sameWord _).trans isWord,
    spelled.of_essence samePieces, (Token.kind_of_essence sameEnd).trans isEnd⟩

/-! ## Glyphs -/

/-- A token as the grammar sees it: its essence, and whether it stands apart from a section
marker before it. -/
structure Glyph where
  essence : TokenKind × String
  apart : Bool
deriving DecidableEq, Repr

def glyphs : Option Token → List Token → List Glyph
  | _, [] => []
  | previous, token :: others =>
      ⟨token.essence, previous.any fun marker =>
        marker.kind == .sectionMarker && Rule.spacedFrom marker token⟩ ::
        glyphs (some token) others

@[simp] theorem length_glyphs (previous : Option Token) (tokens : List Token) :
    (glyphs previous tokens).length = tokens.length := by
  induction tokens generalizing previous with
  | nil => rfl
  | cons token tokens induction => simp [glyphs, induction]

theorem map_essence_glyphs (previous : Option Token) (tokens : List Token) :
    (glyphs previous tokens).map Glyph.essence = tokens.map Token.essence := by
  induction tokens generalizing previous with
  | nil => rfl
  | cons token tokens induction => simp [glyphs, induction]

theorem glyphs_append (previous : Option Token) (first second : List Token) :
    glyphs previous (first ++ second) =
      glyphs previous first ++ glyphs (first.getLast?.or previous) second := by
  induction first generalizing previous with
  | nil => rfl
  | cons token tokens induction =>
      rw [List.cons_append, glyphs, induction, glyphs, List.getLast?_cons, List.cons_append]
      cases tokens.getLast? <;> rfl

theorem glyphs_none (previous : Option Token) (tokens : List Token) :
    glyphs none tokens = (glyphs previous tokens).modifyHead ({ · with apart := false }) := by
  cases tokens <;> rfl

/-- Tokens that look the same to the grammar. -/
def Alike (tokens others : List Token) : Prop :=
  glyphs none tokens = glyphs none others

namespace Alike

variable {first second tokens others : List Token}

theorem map_essence (alike : Alike tokens others) :
    others.map Token.essence = tokens.map Token.essence := by
  rw [← map_essence_glyphs none, ← alike, map_essence_glyphs]

theorem split (alike : Alike (first ++ second) others) :
    ∃ front back, others = front ++ back ∧ Alike first front ∧ Alike second back := by
  have length := congrArg List.length alike
  simp only [length_glyphs, List.length_append] at length
  have parts : others = others.take first.length ++ others.drop first.length := by simp
  refine ⟨others.take first.length, others.drop first.length, parts, ?_⟩
  rw [Alike, parts, glyphs_append, glyphs_append] at alike
  rcases List.append_inj alike (by simp; omega) with ⟨front, back⟩
  refine ⟨front, ?_⟩
  rw [Alike, glyphs_none _ second, glyphs_none _ (others.drop first.length), back]

end Alike

/-! ## Glyphs of lexemes -/

namespace Lexeme

def glyphs : Option Lexeme → List Lexeme → List Glyph
  | _, [] => []
  | previous, lexeme :: others =>
      ⟨lexeme.token.essence, previous.any fun marker =>
        marker.kind == .sectionMarker && !lexeme.blanks.isEmpty⟩ :: glyphs (some lexeme) others

end Lexeme

theorem glyphs_locate_behind {lexeme : Lexeme} {others : List Lexeme} (place : Position)
    (wellFormed : ∀ other ∈ lexeme :: others, other.WellFormed) :
    glyphs (some ⟨lexeme.kind, String.ofList lexeme.value, place⟩)
        (Scan.locate (place.after lexeme.source) others) =
      Lexeme.glyphs (some lexeme) others := by
  induction others generalizing lexeme place with
  | nil => rfl
  | cons next others induction =>
      rw [List.forall_mem_cons] at wellFormed
      have apart : (lexeme.kind == TokenKind.sectionMarker &&
          Rule.spacedFrom ⟨lexeme.kind, String.ofList lexeme.value, place⟩
            ⟨next.kind, String.ofList next.value,
              (place.after lexeme.source).after next.blanks⟩) =
          (lexeme.kind == TokenKind.sectionMarker && !next.blanks.isEmpty) := by
        by_cases isMarker : lexeme.kind = .sectionMarker
        · have source := wellFormed.1.marker isMarker
          have noFeed : ∀ c ∈ lexeme.source ++ next.blanks, c ≠ '\n' := by
            intro c member feed
            subst feed
            rcases List.mem_append.1 member with inside | inside
            · simp [source] at inside
            · exact absurd ((wellFormed.2 next (by simp)).blanks _ inside) (by decide)
          rw [← Position.after_append, Position.after_eq noFeed, source]
          cases next.blanks <;> simp [Rule.spacedFrom, isMarker]
        · have noMarker : (lexeme.kind == TokenKind.sectionMarker) = false := by simpa using isMarker
          rw [noMarker, Bool.false_and, Bool.false_and]
      have behind := induction ((place.after lexeme.source).after next.blanks) wellFormed.2
      rw [Scan.locate]
      simp only [glyphs, Lexeme.glyphs, Option.any_some, apart, behind]
      rfl

theorem glyphs_locate {lexemes : List Lexeme} (place : Position)
    (wellFormed : ∀ lexeme ∈ lexemes, lexeme.WellFormed) :
    glyphs none (Scan.locate place lexemes) = Lexeme.glyphs none lexemes := by
  cases lexemes with
  | nil => rfl
  | cons lexeme others =>
      have behind := glyphs_locate_behind (place.after lexeme.blanks) wellFormed
      rw [Scan.locate]
      simp only [glyphs, Lexeme.glyphs, behind]
      rfl

/-! ## Statements that look the same -/

def Section.Headed (title : String) (tokens : List Token) : Prop :=
  ∃ marker name lineEnd, tokens = [marker, name, lineEnd] ∧ marker.kind = .sectionMarker ∧
    name.kind = .identifier ∧ Rule.spacedFrom marker name = true ∧ lineEnd.kind = .newline ∧
    name.value = title

theorem sectionHeader_accepted_iff_headed {stream rest : TokenStream} {title : String} :
    Rule.sectionHeader stream = .accepted title rest ↔
      ∃ tokens, stream.Passed tokens rest ∧ Section.Headed title tokens := by
  rw [Parser.sectionHeader_accepted_iff_passed]
  constructor
  · intro holds
    rcases holds with ⟨marker, name, lineEnd, isMarker, isName, spaced, isEnd, passed, same⟩
    exact ⟨_, passed, marker, name, lineEnd, rfl, isMarker, isName, spaced, isEnd, same⟩
  · intro holds
    rcases holds with
      ⟨_, passed, marker, name, lineEnd, rfl, isMarker, isName, spaced, isEnd, same⟩
    exact ⟨marker, name, lineEnd, isMarker, isName, spaced, isEnd, passed, same⟩

theorem Section.Headed.of_alike {title : String} {tokens others : List Token}
    (headed : Headed title tokens) (alike : Alike tokens others) : Headed title others := by
  rcases headed with ⟨marker, name, lineEnd, rfl, isMarker, isName, spaced, isEnd, same⟩
  have essences := alike.map_essence
  simp only [List.map_cons, List.map_nil, List.map_eq_cons_iff, List.map_eq_nil_iff] at essences
  rcases essences with
    ⟨marker', _, rfl, sameMarker, name', _, rfl, sameName, lineEnd', _, rfl, sameEnd, rfl⟩
  have isMarker' := (Token.kind_of_essence sameMarker).trans isMarker
  have second : (glyphs none [marker, name, lineEnd])[1]? =
      (glyphs none [marker', name', lineEnd'])[1]? := by
    rw [show glyphs none _ = glyphs none _ from alike]
  have apart : Rule.spacedFrom marker name = Rule.spacedFrom marker' name' := by
    simpa [glyphs, isMarker, isMarker', sameName] using second
  exact ⟨marker', name', lineEnd', rfl, isMarker', (Token.kind_of_essence sameName).trans isName,
    apart ▸ spaced, (Token.kind_of_essence sameEnd).trans isEnd,
    (Token.value_of_essence sameName (by simp [isName])).trans same⟩

/-- The tokens of one statement, up to the end of its line, and the sections that it makes of those
before it. Instructions stand in sections only. -/
inductive Statement (sections : List Section) (line : List Token) : List Section → Prop
  | header {title : String} (headed : Section.Headed title line) :
      Statement sections line (sections ++ [⟨title, []⟩])
  | instruction {instruction : Instruction} (inSection : sections ≠ [])
      (written : instruction.Written line) :
      Statement sections line (Section.addInstruction instruction sections)

namespace Statement

variable {sections after : List Section} {line others : List Token}

theorem of_alike (statement : Statement sections line after) (alike : Alike line others) :
    Statement sections others after := by
  cases statement with
  | header headed => exact .header (headed.of_alike alike)
  | instruction inSection written =>
      exact .instruction inSection (written.of_essence alike.map_essence)

theorem exists_ends (statement : Statement sections line after) :
    ∃ first inside lineEnd, line = first :: (inside ++ [lineEnd]) ∧
      (first.kind = .sectionMarker ∨ first.kind = .identifier) ∧ lineEnd.kind = .newline := by
  cases statement with
  | header headed =>
      rcases headed with ⟨marker, name, lineEnd, rfl, isMarker, _, _, isEnd, _⟩
      exact ⟨marker, [name], lineEnd, rfl, .inl isMarker, isEnd⟩
  | instruction _ written =>
      rcases written with ⟨word, pieces, lineEnd, rfl, isWord, _, isEnd⟩
      exact ⟨word, pieces, lineEnd, rfl, .inr (kind_of_isWord isWord).1, isEnd⟩

end Statement

namespace Stage

theorem next_iff_statement {stage next : Stage} :
    stage.Next next ↔ ∃ line rest, stage.place.Passed line rest ∧
      Statement stage.sections line next.sections ∧ next.place = rest.skipNewlines := by
  constructor
  · intro passes
    cases passes with
    | header accepted =>
        rcases sectionHeader_accepted_iff_headed.1 accepted with ⟨line, passed, headed⟩
        exact ⟨line, _, passed, .header headed, rfl⟩
    | instruction inSection spans =>
        rcases Instruction.spans_iff_written.1 spans with ⟨line, passed, written⟩
        exact ⟨line, _, passed, .instruction inSection written, rfl⟩
  · intro holds
    rcases holds with ⟨line, rest, passed, statement, place⟩
    rcases next with ⟨after, behind⟩
    simp only at statement place
    subst place
    cases statement with
    | header headed => exact .header (sectionHeader_accepted_iff_headed.2 ⟨line, passed, headed⟩)
    | instruction inSection written =>
        exact .instruction inSection (Instruction.spans_iff_written.2 ⟨line, passed, written⟩)

/-- What is read between two stages depends on how the tokens between them look, and on nothing
else. -/
theorem exists_passed_of_leads {first last : Stage} (leads : Relation.ReflTransGen Next first last) :
    ∃ tokens, first.place.Passed tokens last.place ∧
      ∀ start tokens' place', start.Passed tokens' place' → Alike tokens tokens' →
        place'.current.kind ≠ .newline →
        Relation.ReflTransGen Next ⟨first.sections, start⟩ ⟨last.sections, place'⟩ := by
  induction leads with
  | refl =>
      refine ⟨[], .nothing _, fun start tokens' place' passed' alike _ => ?_⟩
      have nothing := alike.map_essence
      rw [List.map_nil, List.map_eq_nil_iff] at nothing
      subst nothing
      rw [(Passed.nothing start).eq passed']
  | @tail stage next _ passes induction =>
      rcases induction with ⟨before, beforePassed, leads⟩
      rcases next_iff_statement.1 passes with ⟨line, rest, passed, statement, skips⟩
      rcases statement.exists_ends with ⟨first, inside, lineEnd, rfl, begins, _⟩
      rcases passed_skipNewlines rest with ⟨run, breaks, runPassed⟩
      rw [← skips] at runPassed
      refine ⟨before ++ (first :: (inside ++ [lineEnd]) ++ run),
        beforePassed.trans (passed.trans runPassed), ?_⟩
      intro start whole place' wholePassed alike stops
      rcases alike.split with ⟨before', others, rfl, alikeBefore, alikeOthers⟩
      rcases alikeOthers.split with ⟨statement', run', rfl, alikeStatement, alikeRun⟩
      rcases wholePassed.split with ⟨middle, beforePassed', othersPassed⟩
      rcases othersPassed.split with ⟨rest', passed', runPassed'⟩
      have starts : middle.current.kind ≠ .newline := by
        rcases List.map_eq_cons_iff.1 alikeStatement.map_essence with ⟨token', _, rfl, same, _⟩
        rw [current_eq passed'.ahead, Token.kind_of_essence same]
        rcases begins with isMarker | isName
        · simp [isMarker]
        · simp [isName]
      have skipped :=
        skipNewlines_eq (breaks_of_essence breaks alikeRun.map_essence) runPassed' stops
      have moved : Next ⟨stage.sections, middle⟩ ⟨next.sections, place'⟩ := next_iff_statement.2
        ⟨statement', rest', passed', statement.of_alike alikeStatement, skipped.symm⟩
      exact (leads start before' middle beforePassed' alikeBefore starts).tail moved

theorem exists_passed_of_skipped {sections : List Section} {rest : TokenStream} {last : Stage}
    (leads : Relation.ReflTransGen Next ⟨sections, rest.skipNewlines⟩ last) :
    ∃ tokens, rest.Passed tokens last.place ∧
      ∀ (rest' : TokenStream) tokens' place', rest'.Passed tokens' place' → Alike tokens tokens' →
        place'.current.kind ≠ .newline →
        Relation.ReflTransGen Next ⟨sections, rest'.skipNewlines⟩ ⟨last.sections, place'⟩ := by
  rcases passed_skipNewlines rest with ⟨run, breaks, runPassed⟩
  rcases exists_passed_of_leads leads with ⟨tokens, passed, leads⟩
  refine ⟨run ++ tokens, runPassed.trans passed, ?_⟩
  intro rest' whole place' wholePassed alike stops
  rcases alike.split with ⟨run', tokens', rfl, alikeRun, alikeTokens⟩
  rcases wholePassed.split with ⟨middle, runPassed', passed'⟩
  have starts : middle.current.kind ≠ .newline := by
    have notBreak := current_skipNewlines rest
    have essences := alikeTokens.map_essence
    cases tokens with
    | nil =>
        rw [List.map_nil, List.map_eq_nil_iff] at essences
        subst essences
        rwa [(Passed.nothing middle).eq passed']
    | cons token others =>
        rcases List.map_eq_cons_iff.1 essences with ⟨token', _, rfl, same, _⟩
        rw [show rest.skipNewlines.current = token from current_eq passed.ahead] at notBreak
        rw [current_eq passed'.ahead, Token.kind_of_essence same]
        exact notBreak
  have begins := skipNewlines_eq (breaks_of_essence breaks alikeRun.map_essence) runPassed' starts
  rw [begins]
  exact leads middle tokens' place' passed' alikeTokens stops

theorem Reached.exists_passed {stream : TokenStream} {stage : Stage}
    (reached : Reached stream stage) :
    ∃ tokens, stream.Passed tokens stage.place ∧
      ∀ (stream' : TokenStream) tokens' place', stream'.Passed tokens' place' → Alike tokens tokens' →
        place'.current.kind ≠ .newline → Reached stream' ⟨stage.sections, place'⟩ :=
  exists_passed_of_skipped reached

end Stage

end EventScript
