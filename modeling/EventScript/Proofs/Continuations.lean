import EventScript.Proofs.LineBreaks

/-! Texts that go on behind a line terminator. Every statement ends its line, and nothing behind a
line terminator changes what stands before it; so what has been read of a text up to the end
of a line is read of every text that begins like it. -/

namespace EventScript

open TokenStream

/-! ## Line terminators -/

theorem mem_lineBreaks_of_sign : ∀ sign ∈ signs, sign.1 = .newline → sign.2 ∈ lineBreaks := by
  decide

theorem Reading.lineBreak_of_read {first : Char} {rest value source tail : List Char}
    (found : read first rest = .lexeme .newline value source tail) :
    value = source ∧ source ∈ lineBreaks := by
  unfold read at found
  split at found
  · next signFound =>
      injection found with sameKind sameValue sameSource _
      subst sameKind sameValue sameSource
      exact ⟨rfl, mem_lineBreaks_of_sign _ (sign?_spec signFound).1 rfl⟩
  · split at found
    · unfold literal at found
      simp only at found
      split at found
      · injection found with sameKind
        contradiction
      · contradiction
    · split at found
      · injection found with sameKind
        contradiction
      · split at found
        · injection found with sameKind
          contradiction
        · contradiction

theorem feed_not_mem_sign : ∀ sign ∈ signs, sign.1 ≠ .newline → '\n' ∉ sign.2 := by
  decide

theorem Text.LiteralBody.feed_not_mem (text : List Char) : '\n' ∉ (read text).source := by
  fun_induction read text with
  | case1 => simp
  | case2 => simp
  | case3 => simp
  | case4 => simp
  | case5 escaped rest notFeed body _ induction =>
      simp only [List.mem_cons, not_or]
      exact ⟨by decide, Ne.symm notFeed, induction⟩
  | case6 c rest plain notEscape body induction =>
      simp only [List.mem_cons, not_or]
      exact ⟨fun feed => plain (.inr feed.symm), induction⟩

namespace Reading

theorem feed_not_mem_word {kind kind' : TokenKind} {continues : Char → Bool} {first : Char}
    {rest value source tail : List Char}
    (found : word kind continues first rest = .lexeme kind' value source tail)
    (begins : first ≠ '\n') (stops : continues '\n' = false) : '\n' ∉ source := by
  injection found with _ _ sameSource
  subst sameSource
  simp only [List.mem_cons, not_or]
  refine ⟨begins.symm, fun member => ?_⟩
  rw [List.mem_takeWhile_imp member] at stops
  contradiction

theorem feed_not_mem {first : Char} {rest value source tail : List Char} {kind : TokenKind}
    (found : read first rest = .lexeme kind value source tail) (notEnd : kind ≠ .newline) :
    '\n' ∉ source := by
  unfold read at found
  split at found
  · next signFound =>
      injection found with sameKind _ sameSource _
      subst sameKind sameSource
      exact feed_not_mem_sign _ (sign?_spec signFound).1 notEnd
  · split at found
    · unfold literal at found
      simp only at found
      split at found
      · injection found with _ _ sameSource _
        subst sameSource
        simp [Text.LiteralBody.feed_not_mem rest]
      · contradiction
    · split at found
      · next digit =>
          refine feed_not_mem_word found ?_ (by decide)
          intro feed
          subst feed
          exact absurd digit (by decide)
      · split at found
        · next start =>
            refine feed_not_mem_word found ?_ (by decide)
            intro feed
            subst feed
            exact absurd start (by decide)
        · contradiction

end Reading

namespace Lexeme

theorem StandsBefore.feed_not_mem {lexeme : Lexeme} {tail : List Char}
    (stands : lexeme.StandsBefore tail) (notEnd : lexeme.kind ≠ .newline) :
    '\n' ∉ lexeme.source := by
  rcases stands.reading with ⟨_, _, _, _, found⟩
  exact Reading.feed_not_mem found notEnd

theorem StandsBefore.eq_lineBreak {lexeme : Lexeme} {tail : List Char}
    (stands : lexeme.StandsBefore tail) (isEnd : lexeme.kind = .newline) :
    ∃ lineBreak ∈ lineBreaks, lexeme = ⟨lexeme.blanks, .newline, lineBreak, lineBreak⟩ := by
  rcases stands.reading with ⟨_, _, _, _, found⟩
  rw [isEnd] at found
  rcases Reading.lineBreak_of_read found with ⟨sameValue, isBreak⟩
  refine ⟨lexeme.source, isBreak, ?_⟩
  cases lexeme
  simp_all

theorem row_of_lineEnd {lexemes : List Lexeme} {tail : List Char} (row : Row lexemes tail)
    (ends : ∀ last ∈ lexemes.getLast?, last.kind = .newline) (tail' : List Char) :
    Row lexemes tail' := by
  rcases List.eq_nil_or_concat' lexemes with rfl | ⟨front, last, rfl⟩
  · trivial
  · rcases row_append.1 row with ⟨frontRow, stands, _⟩
    rcases stands.eq_lineBreak (ends last (by simp)) with ⟨lineBreak, isBreak, same⟩
    have separated : Text.Separated (lineBreak ++ tail') := by
      simp only [lineBreaks, List.mem_cons, List.not_mem_nil, or_false] at isBreak
      rcases isBreak with rfl | rfl
      · exact .cons (by decide) _
      · exact .cons (by decide) _
    have common : Row front (last.blanks ++ (last.source ++ tail)) := by simpa using frontRow
    have again := row_of_separated common separated
    rw [same]
    exact row_append.2
      ⟨by simpa using again, standsBefore_lineBreak stands.blanks isBreak _, trivial⟩

end Lexeme

/-! ## Whole lines -/

theorem Scan.kind_of_getLast_locate {place : Position} {lexemes : List Lexeme}
    (ends : ∀ token ∈ (locate place lexemes).getLast?, token.kind = .newline) :
    ∀ lexeme ∈ lexemes.getLast?, lexeme.kind = .newline := by
  rcases List.eq_nil_or_concat' lexemes with rfl | ⟨front, last, rfl⟩
  · simp
  · rw [locate_append, locate_cons, locate_nil, List.getLast?_concat] at ends
    simpa using ends

theorem TokenStream.skipNewlines_of_passed {before after : TokenStream} {run : List Token}
    (breaks : Breaks run) (passed : before.Passed run after) :
    before.skipNewlines = after.skipNewlines := by
  rcases passed_skipNewlines after with ⟨others, othersBreak, othersPassed⟩
  have whole : Breaks (run ++ others) := List.forall_mem_append.2 ⟨breaks, othersBreak⟩
  exact skipNewlines_eq whole (passed.trans othersPassed) (current_skipNewlines after)

namespace Stage

/-- Up to a stage only whole lines have been passed, and where tokens look like them, the same
sections have been read. -/
theorem Reached.exists_lines {stream : TokenStream} {stage : Stage}
    (reached : Reached stream stage) :
    ∃ lines rest, stream.Passed lines rest ∧ rest.skipNewlines = stage.place ∧
      (∀ last ∈ lines.getLast?, last.kind = .newline) ∧
      ∀ (stream' : TokenStream) lines' rest', stream'.Passed lines' rest' → Alike lines lines' →
        Reached stream' ⟨stage.sections, rest'.skipNewlines⟩ := by
  rcases Relation.ReflTransGen.cases_tail reached with same | ⟨before, beforeReached, passes⟩
  · subst same
    refine ⟨[], stream, .nothing stream, rfl, by simp, ?_⟩
    intro stream' lines' rest' passed' alike
    have nothing := alike.map_essence
    rw [List.map_nil, List.map_eq_nil_iff] at nothing
    subst nothing
    rw [← (Passed.nothing stream').eq passed']
    exact .refl
  · rcases Reached.exists_passed beforeReached with ⟨front, frontPassed, leads⟩
    rcases next_iff_statement.1 passes with ⟨line, rest, passed, statement, skips⟩
    rcases statement.exists_ends with ⟨first, inside, lineEnd, rfl, begins, isEnd⟩
    refine ⟨front ++ first :: (inside ++ [lineEnd]), rest, frontPassed.trans passed, skips.symm,
      ?_, ?_⟩
    · rw [← List.cons_append, ← List.append_assoc, List.getLast?_concat]
      simpa using isEnd
    · intro stream' lines' rest' passed' alike
      rcases alike.split with ⟨front', line', rfl, alikeFront, alikeLine⟩
      rcases passed'.split with ⟨middle, frontPassed', linePassed'⟩
      have starts : middle.current.kind ≠ .newline := by
        rcases List.map_eq_cons_iff.1 alikeLine.map_essence with ⟨first', _, rfl, same, _⟩
        rw [current_eq linePassed'.ahead, Token.kind_of_essence same]
        rcases begins with isMarker | isName
        · simp [isMarker]
        · simp [isName]
      exact (leads stream' front' middle frontPassed' alikeFront starts).tail
        (next_iff_statement.2 ⟨line', rest', linePassed', statement.of_alike alikeLine, rfl⟩)

/-- A text that has been read to its end consists of whole lines, and is read the same where other
tokens follow. -/
theorem Reached.continues {tokens : Tokens} {last : Stage} (reached : Reached tokens.stream last)
    (whole : last.place.ahead = []) :
    (∀ token ∈ tokens.list.getLast?, token.kind = .newline) ∧
      ∀ (stream' : TokenStream) tokens' rest', stream'.Passed tokens' rest' →
        Alike tokens.list tokens' → Reached stream' ⟨last.sections, rest'.skipNewlines⟩ := by
  rcases reached.exists_lines with ⟨lines, rest, passed, skips, ends, leads⟩
  rcases passed_skipNewlines rest with ⟨run, breaks, runPassed⟩
  rw [skips] at runPassed
  have list : tokens.list = lines ++ run := by
    have ahead := (passed.trans runPassed).ahead
    rwa [whole, List.append_nil] at ahead
  rw [list]
  refine ⟨?_, ?_⟩
  · intro token isLast
    rw [List.getLast?_append, Option.mem_def, Option.or_eq_some_iff] at isLast
    rcases isLast with inRun | ⟨_, inLines⟩
    · exact breaks token (List.mem_of_getLast? inRun)
    · exact ends token inLines
  · intro stream' tokens' rest' passed' alike
    rcases alike.split with ⟨lines', run', rfl, alikeLines, alikeRun⟩
    rcases passed'.split with ⟨middle, linesPassed', runPassed'⟩
    have breaks' := breaks_of_essence breaks alikeRun.map_essence
    rw [← skipNewlines_of_passed breaks' runPassed']
    exact leads stream' lines' middle linesPassed' alikeLines

theorem Reached.leads {stream : TokenStream} {stage last : Stage} (reached : Reached stream stage)
    (lastReached : Reached stream last) (final : last.Final) :
    Relation.ReflTransGen Next stage last := by
  rcases Relation.ReflTransGen.total_of_right_unique rightUnique_next reached lastReached
    with forth | back
  · exact forth
  · rcases Relation.ReflTransGen.cases_head back with same | ⟨next, passes, _⟩
    · exact same ▸ .refl
    · exact absurd passes (final next)

theorem Reached.ahead_eq_nil {text : String} {tokens : Tokens}
    (lexed : Tokens.ofText text = .ok tokens) {last : Stage}
    (reached : Reached tokens.stream last) (finished : last.Finished) :
    last.place.ahead = [] := by
  rcases reached.exists_passed with ⟨_, passed, _⟩
  exact Parser.ahead_eq_nil ((Parser.genuine_of_ofText lexed).of_passed passed) finished

end Stage

theorem parseSections_eq_ok_iff_reached {file : Path} {text : String} {sections : List Section} :
    parseSections file text = .ok sections ↔ ∃ tokens last, Tokens.ofText text = .ok tokens ∧
      Stage.Reached tokens.stream last ∧ last.Finished ∧ last.sections = sections := by
  simp only [parseSections_eq_ok, Parser.readSections_eq_ok_iff_reached, exists_and_left]

theorem parseSections_eq_ok_iff_of_lexed {file : Path} {text : String} {tokens : Tokens}
    (lexed : Tokens.ofText text = .ok tokens) {sections : List Section} :
    parseSections file text = .ok sections ↔ ∃ last, Stage.Reached tokens.stream last ∧
      last.Finished ∧ last.sections = sections := by
  simp [parseSections_eq_ok_iff_reached, lexed]

theorem parseSections_of_alike {file file' : Path} {text other : String} {tokens tokens' : Tokens}
    (lexed : Tokens.ofText text = .ok tokens) (lexed' : Tokens.ofText other = .ok tokens')
    (alike : Alike tokens.list tokens'.list) {sections : List Section}
    (accepted : parseSections file text = .ok sections) :
    parseSections file' other = .ok sections := by
  rcases (parseSections_eq_ok_iff_of_lexed lexed).1 accepted with ⟨last, reached, finished, rfl⟩
  have reached' := (reached.continues (reached.ahead_eq_nil lexed finished)).2
    tokens'.stream tokens'.list _ (.whole tokens') alike
  refine (parseSections_eq_ok_iff_of_lexed lexed').2 ⟨_, reached', ?_, rfl⟩
  simp [Stage.Finished, skipNewlines, current, Token.atEnd]

end EventScript
