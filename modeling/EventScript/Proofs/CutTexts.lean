import EventScript.Proofs.Continuations

/-! Texts that break off. What is left of a script is no script if it ends within a statement, and
otherwise has the sections of the whole one up to some instruction, if it is a script at all. -/

namespace EventScript

open TokenStream

/-! ## Sections that break off -/

/-- The first of some sections, the last of them with the first of its instructions only. -/
inductive Section.CutOff (sections : List Section) : List Section → Prop
  | nothing : CutOff sections []
  | within {before behind : List Section} {last : Section} {kept : List Instruction}
      (whole : sections = before ++ last :: behind) (isPrefix : kept <+: last.instructions) :
      CutOff sections (before ++ [{ last with instructions := kept }])

namespace Section.CutOff

variable {sections found : List Section}

theorem self (sections : List Section) : CutOff sections sections := by
  rcases List.eq_nil_or_concat' sections with rfl | ⟨front, last, rfl⟩
  · exact .nothing
  · exact .within rfl (List.prefix_refl last.instructions)

theorem append_singleton (cutOff : CutOff sections found) (new : Section) :
    CutOff (sections ++ [new]) found := by
  cases cutOff with
  | nothing => exact .nothing
  | @within before behind last kept whole isPrefix =>
      refine @within _ before (behind ++ [new]) last kept ?_ isPrefix
      rw [whole, List.append_assoc, List.cons_append]

theorem addInstruction (cutOff : CutOff sections found) (instruction : Instruction) :
    CutOff (Section.addInstruction instruction sections) found := by
  cases cutOff with
  | nothing => exact .nothing
  | @within before behind last kept whole isPrefix =>
      subst whole
      rcases List.eq_nil_or_concat' behind with rfl | ⟨more, final, rfl⟩
      · rw [addInstruction_append_singleton]
        exact @within _ before []
          { last with instructions := last.instructions ++ [instruction] } kept rfl
          (isPrefix.trans (List.prefix_append last.instructions [instruction]))
      · rw [← List.cons_append, ← List.append_assoc, addInstruction_append_singleton,
          List.append_assoc, List.cons_append]
        exact .within rfl isPrefix

end Section.CutOff

theorem Stage.cutOff_of_leads {first last : Stage} (leads : Relation.ReflTransGen Next first last) :
    Section.CutOff last.sections first.sections := by
  induction leads with
  | refl => exact .self first.sections
  | tail _ passes induction =>
      cases passes with
      | header => exact induction.append_singleton _
      | instruction => exact induction.addInstruction _

/-! ## Lexemes that break off -/

namespace Lexeme

theorem StandsBefore.feed_not_mem_part {lexeme : Lexeme} {tail part : List Char}
    (stands : lexeme.StandsBefore tail) (isPrefix : part <+: lexeme.source)
    (proper : part ≠ lexeme.source) : '\n' ∉ part := by
  by_cases isEnd : lexeme.kind = .newline
  · rcases stands.eq_lineBreak isEnd with ⟨lineBreak, isBreak, same⟩
    have outside : '\n' ∉ lexeme.source.dropLast := by
      simp only [lineBreaks, List.mem_cons, List.not_mem_nil, or_false] at isBreak
      rw [same]
      rcases isBreak with rfl | rfl
      · simp
      · simp
    rcases isPrefix with ⟨more, whole⟩
    have nonempty : more ≠ [] := by
      intro nothing
      rw [nothing, List.append_nil] at whole
      exact proper whole
    rw [← whole, List.dropLast_append_of_ne_nil nonempty] at outside
    exact fun member => outside (List.mem_append_left _ member)
  · exact fun member => stands.feed_not_mem isEnd (isPrefix.subset member)

/-- Where a text of lexemes breaks off: in the blanks between two of them, or within one. -/
inductive BreaksOff (lexemes : List Lexeme) (cut : List Char) : Prop
  | between {front back : List Lexeme} {blanks : List Char} (whole : lexemes = front ++ back)
      (blank : ∀ c ∈ blanks, Text.isBlank c = true) (left : cut = textOf front ++ blanks)
  | inside {front back : List Lexeme} {lexeme : Lexeme} {part : List Char}
      (whole : lexemes = front ++ lexeme :: back)
      (left : cut = textOf front ++ (lexeme.blanks ++ part))
      (nonempty : part ≠ []) (isPrefix : part <+: lexeme.source) (proper : part ≠ lexeme.source)

theorem BreaksOff.cons {lexemes : List Lexeme} {cut : List Char} (breaksOff : BreaksOff lexemes cut)
    (lexeme : Lexeme) :
    BreaksOff (lexeme :: lexemes) (lexeme.blanks ++ (lexeme.source ++ cut)) := by
  cases breaksOff with
  | @between front back blanks whole blank left =>
      exact @between _ _ (lexeme :: front) back blanks (by rw [whole]; rfl) blank (by simp [left])
  | @inside front back broken part whole left nonempty isPrefix proper =>
      exact @inside _ _ (lexeme :: front) back broken part (by rw [whole]; rfl) (by simp [left])
        nonempty isPrefix proper

theorem breaksOff_of_isPrefix {lexemes : List Lexeme} {blanks cut : List Char}
    (blank : ∀ c ∈ blanks, Text.isBlank c = true)
    (blankBefore : ∀ lexeme ∈ lexemes, ∀ c ∈ lexeme.blanks, Text.isBlank c = true)
    (isPrefix : cut <+: textOf lexemes ++ blanks) : BreaksOff lexemes cut := by
  induction lexemes generalizing cut with
  | nil =>
      have cutBlank : ∀ c ∈ cut, Text.isBlank c = true :=
        fun c member => blank c (isPrefix.subset member)
      exact @BreaksOff.between _ _ [] [] cut rfl cutBlank rfl
  | cons lexeme others induction =>
      rw [List.forall_mem_cons] at blankBefore
      rw [textOf_cons, List.append_assoc, List.append_assoc] at isPrefix
      rcases List.prefix_or_prefix_of_prefix isPrefix (List.prefix_append lexeme.blanks _) with
        short | ⟨behind, rfl⟩
      · exact @BreaksOff.between _ _ [] (lexeme :: others) cut rfl
          (fun c member => blankBefore.1 c (short.subset member)) rfl
      rw [List.prefix_append_right_inj] at isPrefix
      rcases List.prefix_or_prefix_of_prefix isPrefix (List.prefix_append lexeme.source _) with
        short | ⟨further, rfl⟩
      · by_cases nothing : behind = []
        · subst nothing
          exact @BreaksOff.between _ _ [] (lexeme :: others) lexeme.blanks rfl blankBefore.1
            (by simp)
        by_cases all : behind = lexeme.source
        · have next : BreaksOff others [] := @BreaksOff.between _ _ [] others [] rfl (by simp) rfl
          simpa [all] using next.cons lexeme
        · exact @BreaksOff.inside _ _ [] others lexeme behind rfl rfl nothing short all
      · rw [List.prefix_append_right_inj] at isPrefix
        exact (induction blankBefore.2 isPrefix).cons lexeme

theorem row_of_isPrefix {lexemes : List Lexeme} {left tail : List Char} (row : Row lexemes tail)
    (isPrefix : left <+: tail) : Row lexemes left := by
  rcases isPrefix with ⟨more, rfl⟩
  have cut := row_of_separated row Text.Separated.nil
  rwa [List.append_nil] at cut

theorem exists_last_of_part {lexeme : Lexeme} {tail part : List Char}
    (stands : lexeme.StandsBefore tail) (nonempty : part ≠ []) (isPrefix : part <+: lexeme.source)
    (proper : part ≠ lexeme.source) (sound : (Scan.read (lexeme.blanks ++ part)).fault = none) :
    ∃ last ∈ (Scan.read (lexeme.blanks ++ part)).lexemes.getLast?, last.kind ≠ .newline := by
  rcases Scan.row_of_read sound with ⟨row, whole, blank⟩
  have noFeed : '\n' ∉ lexeme.blanks ++ part := by
    rw [List.mem_append, not_or]
    refine ⟨fun member => ?_, stands.feed_not_mem_part isPrefix proper⟩
    exact absurd (stands.blanks _ member) (by decide)
  rcases List.eq_nil_or_concat' (Scan.read (lexeme.blanks ++ part)).lexemes with
    nothing | ⟨front, last, same⟩
  · -- The first character of the lexeme is no blank, so something is read.
    rcases stands.reading with ⟨first, rest, spelled, notBlank, _⟩
    rcases List.exists_cons_of_ne_nil nonempty with ⟨c, others, rfl⟩
    rcases isPrefix with ⟨more, source⟩
    rw [← source, List.cons_append, List.cons_append, List.cons.injEq] at spelled
    rw [nothing, textOf_nil, List.nil_append] at whole
    have isBlank : Text.isBlank c = true := blank c (whole ▸ by simp)
    rw [spelled.1, notBlank] at isBlank
    contradiction
  · refine ⟨last, by simp [same], fun isEnd => ?_⟩
    rw [same] at row whole
    rcases (row_append.1 row).2.1.eq_lineBreak isEnd with ⟨lineBreak, isBreak, lastSame⟩
    have feed : '\n' ∈ lineBreak := by
      simp only [lineBreaks, List.mem_cons, List.not_mem_nil, or_false] at isBreak
      rcases isBreak with rfl | rfl <;> simp
    rw [whole, lastSame] at noFeed
    simp [feed] at noFeed

end Lexeme

theorem Scan.lexemes_isPrefix {lexemes : List Lexeme} {blanks cut : List Char}
    (row : Lexeme.Row lexemes blanks) (blank : ∀ c ∈ blanks, Text.isBlank c = true)
    (isPrefix : cut <+: Lexeme.textOf lexemes ++ blanks) (sound : (read cut).fault = none)
    (ends : ∀ last ∈ (read cut).lexemes.getLast?, last.kind = .newline) :
    (read cut).lexemes <+: lexemes := by
  have blankBefore := fun lexeme member => (Lexeme.wellFormed_of_row row lexeme member).blanks
  cases Lexeme.breaksOff_of_isPrefix blank blankBefore isPrefix with
  | @between front back blanks' whole blank' left =>
      subst whole left
      rw [Lexeme.textOf_append, List.append_assoc, List.prefix_append_right_inj] at isPrefix
      have frontRow := Lexeme.row_of_isPrefix (Lexeme.row_append.1 row).1 isPrefix
      rw [read_row frontRow, read_blanks blank']
      simp [prepend]
  | @inside front back lexeme part whole left nonempty partPrefix proper =>
      subst whole left
      rcases Lexeme.row_append.1 row with ⟨frontRow, stands, _⟩
      rw [Lexeme.textOf_append, List.append_assoc, List.prefix_append_right_inj] at isPrefix
      rw [read_row (Lexeme.row_of_isPrefix frontRow isPrefix)] at sound ends
      rcases Lexeme.exists_last_of_part stands nonempty partPrefix proper sound with
        ⟨last, isLast, notEnd⟩
      refine absurd (ends last ?_) notEnd
      rw [prepend, List.getLast?_append, Option.mem_def.1 isLast]
      rfl

/-! ## Statements that break off -/

theorem TokenStream.Passed.tokens_eq {first second : TokenStream} {tokens others : List Token}
    (passed : first.Passed tokens second) (passed' : first.Passed others second) :
    tokens = others :=
  List.append_cancel_right (passed.ahead.symm.trans passed'.ahead)

theorem Statement.line_eq {place rest rest' : TokenStream} {line line' : List Token}
    {sections sections' after after' : List Section} (statement : Statement sections line after)
    (passed : place.Passed line rest) (statement' : Statement sections' line' after')
    (passed' : place.Passed line' rest') : line = line' := by
  have same : rest = rest' := by
    cases statement with
    | header headed =>
        have accepted := sectionHeader_accepted_iff_headed.2 ⟨line, passed, headed⟩
        cases statement' with
        | header headed' =>
            have accepted' := sectionHeader_accepted_iff_headed.2 ⟨line', passed', headed'⟩
            rw [accepted] at accepted'
            injection accepted'
        | instruction _ written' =>
            have spans' := Instruction.spans_iff_written.2 ⟨line', passed', written'⟩
            exact (Stage.not_spans_of_header accepted spans').elim
    | instruction _ written =>
        have spans := Instruction.spans_iff_written.2 ⟨line, passed, written⟩
        cases statement' with
        | header headed' =>
            have accepted' := sectionHeader_accepted_iff_headed.2 ⟨line', passed', headed'⟩
            exact (Stage.not_spans_of_header accepted' spans).elim
        | instruction _ written' =>
            have spans' := Instruction.spans_iff_written.2 ⟨line', passed', written'⟩
            exact (spans.eq spans').2
  exact passed.tokens_eq (same ▸ passed')

theorem Statement.kind_of_part {place : TokenStream} {sections after : List Section}
    {line missing : List Token} (statement : Statement sections line after)
    (whole : place.ahead ++ missing = line) (begun : place.ahead ≠ []) :
    place.current.kind = .sectionMarker ∨ place.current.kind = .identifier := by
  rcases statement.exists_ends with ⟨first, inside, lineEnd, isLine, begins, _⟩
  rcases List.exists_cons_of_ne_nil begun with ⟨token, others, ahead⟩
  rw [ahead, isLine, List.cons_append, List.cons.injEq] at whole
  rwa [current_eq ahead, whole.1]

/-- Nothing leads to the end of input from a place with only the first tokens of a statement ahead:
what stands there is the beginning of a statement, and no other statement begins so. -/
theorem Statement.not_finished_of_part {stage last : Stage} {origin rest : TokenStream}
    {sections after : List Section} {line missing : List Token}
    (statement : Statement sections line after) (passed : origin.Passed line rest)
    (whole : stage.place.ahead ++ missing = line) (begun : stage.place.ahead ≠ [])
    (proper : missing ≠ []) (leads : Relation.ReflTransGen Stage.Next stage last) :
    ¬last.Finished := by
  intro finished
  rcases Relation.ReflTransGen.cases_head leads with same | ⟨next, passes, _⟩
  · subst same
    rcases statement.kind_of_part whole begun with isMarker | isName
    · simp [Stage.Finished, isMarker] at finished
    · simp [Stage.Finished, isName] at finished
  · -- A statement there would be the whole one, which is longer than what is left of it.
    rcases Stage.next_iff_statement.1 passes with ⟨line', rest', passed', statement', _⟩
    have aheadWhole : origin.ahead = line' ++ (rest'.ahead ++ (missing ++ rest.ahead)) := by
      rw [passed.ahead, ← whole, passed'.ahead]
      simp
    have sameLine := statement.line_eq passed statement' (.mk_of_ahead aheadWhole)
    rw [passed'.ahead, sameLine, List.append_assoc, List.append_right_eq_self] at whole
    exact proper (List.append_eq_nil_iff.1 whole).2

theorem Stage.Reached.not_finished_of_cut {tokens cut : Tokens} {stage : Stage}
    (reached : Reached tokens.stream stage) (isPrefix : cut.list <+: tokens.list)
    {line : List Token} {rest : TokenStream} {after : List Section}
    (passed : stage.place.Passed line rest) (statement : Statement stage.sections line after)
    (starts : stage.place.index < cut.list.length)
    (ends : cut.list.length < stage.place.index + line.length) {last : Stage}
    (lastReached : Reached cut.stream last) : ¬last.Finished := by
  intro finished
  rcases reached.exists_passed with ⟨before, passedBefore, leads⟩
  have index := passedBefore.index_eq
  have list : tokens.list = before ++ (line ++ rest.ahead) := by
    rw [← passed.ahead]
    exact passedBefore.ahead
  rw [list] at isPrefix
  -- The cut text has all tokens before the statement, and some of its line.
  rcases List.prefix_of_prefix_length_le (List.prefix_append before _) isPrefix (by omega) with
    ⟨begun, cutList⟩
  have length := congrArg List.length cutList
  rw [List.length_append] at length
  rw [← cutList, List.prefix_append_right_inj] at isPrefix
  rcases List.prefix_of_prefix_length_le isPrefix (List.prefix_append line rest.ahead)
    (by omega) with ⟨missing, whole⟩
  rcases Passed.exists_of_ahead (show cut.stream.ahead = before ++ begun from cutList.symm) with
    ⟨place, cutPassed, ahead⟩
  have lengths := congrArg List.length whole
  rw [List.length_append] at lengths
  have nonempty : place.ahead ≠ [] := by
    rw [ahead]
    exact List.length_pos_iff.1 (by omega)
  have proper : missing ≠ [] := List.length_pos_iff.1 (by omega)
  have notBreak : place.current.kind ≠ .newline := by
    rcases statement.kind_of_part (ahead ▸ whole) nonempty with isMarker | isName
    · simp [isMarker]
    · simp [isName]
  have placeReached := leads cut.stream before place cutPassed rfl notBreak
  exact statement.not_finished_of_part passed (ahead ▸ whole) nonempty proper
    (placeReached.leads lastReached finished.final) finished

/-! ## Texts that break off -/

/-- A statement of a text: the characters before it, and its own, from the first one of the marker
or the keyword to the last one of the line terminator. -/
inductive Statement.StandsIn (text : String) (before own : List Char) : Prop
  | intro {tokens : Tokens} {stage : Stage} {line : List Token} {rest : TokenStream}
      {after : List Section} {front others behind : List Lexeme} {first : Lexeme}
      (lexed : Tokens.ofText text = .ok tokens) (reached : Stage.Reached tokens.stream stage)
      (passed : stage.place.Passed line rest) (statement : Statement stage.sections line after)
      (lexemes : (Scan.read text.toList).lexemes = front ++ (first :: others) ++ behind)
      (starts : front.length = stage.place.index) (ends : (first :: others).length = line.length)
      (textBefore : before = Lexeme.textOf front ++ first.blanks)
      (ownText : own = first.source ++ Lexeme.textOf others)

theorem Scan.exists_append_of_locate {place : Position} {lexemes : List Lexeme}
    {first second : List Token} (located : locate place lexemes = first ++ second) :
    ∃ front back, lexemes = front ++ back ∧ locate place front = first ∧
      locate (place.after (Lexeme.textOf front)) back = second := by
  have parts := List.take_append_drop first.length lexemes
  rw [← parts, locate_append] at located
  have length := congrArg List.length (map_unplaced_locate place lexemes)
  rcases List.append_inj located (by
    have whole := congrArg List.length located
    simp only [List.length_append, length_locate, List.length_take, List.length_drop] at whole ⊢
    omega) with ⟨sameFirst, sameSecond⟩
  exact ⟨_, _, parts.symm, sameFirst, sameSecond⟩

namespace Statement

variable {text : String} {tokens : Tokens}

theorem exists_lexemes {stage : Stage} (lexed : Tokens.ofText text = .ok tokens)
    (reached : Stage.Reached tokens.stream stage) {line : List Token} {rest : TokenStream}
    (passed : stage.place.Passed line rest) : ∃ front own behind place,
      (Scan.read text.toList).lexemes = front ++ own ++ behind ∧
      front.length = stage.place.index ∧ Scan.locate place own = line := by
  rcases reached.exists_passed with ⟨before, passedBefore, _⟩
  have list : tokens.list = before ++ (line ++ rest.ahead) := by
    rw [← passed.ahead]
    exact passedBefore.ahead
  rw [(Tokens.list_of_ofText lexed).2] at list
  rcases Scan.exists_append_of_locate list with ⟨front, back, lexemes, frontLocated, backLocated⟩
  rcases Scan.exists_append_of_locate backLocated with ⟨own, behind, rfl, ownLocated, _⟩
  refine ⟨front, own, behind, _, by rw [lexemes, List.append_assoc], ?_, ownLocated⟩
  rw [passedBefore.index_eq, ← frontLocated, Scan.length_locate]

theorem exists_standsIn {stage next : Stage} (lexed : Tokens.ofText text = .ok tokens)
    (reached : Stage.Reached tokens.stream stage) (passes : stage.Next next) :
    ∃ before own, StandsIn text before own := by
  rcases Stage.next_iff_statement.1 passes with ⟨line, rest, passed, statement, _⟩
  rcases statement.exists_ends with ⟨_, _, _, isLine, _, _⟩
  rcases exists_lexemes lexed reached passed with
    ⟨front, own, behind, place, lexemes, starts, located⟩
  cases own with
  | nil => simp [isLine] at located
  | cons first others =>
      refine ⟨_, _, .intro lexed reached passed statement lexemes starts ?_ rfl rfl⟩
      rw [← located, Scan.length_locate]

theorem StandsIn.spelled {before own : List Char} (standsIn : StandsIn text before own) :
    before ++ own <+: text.toList ∧ ∃ lineBreak ∈ lineBreaks, lineBreak <:+ own := by
  cases standsIn with
  | @intro tokens stage line rest after front others behind first lexed reached passed statement
      lexemes starts ends textBefore ownText =>
      rcases Scan.row_of_read (Tokens.list_of_ofText lexed).1 with ⟨row, spelled, _⟩
      rcases exists_lexemes lexed reached passed with
        ⟨front', own', behind', place, lexemes', starts', located⟩
      have ownLength := congrArg List.length located
      rw [Scan.length_locate] at ownLength
      rw [lexemes] at row spelled
      rw [lexemes, List.append_assoc, List.append_assoc] at lexemes'
      rcases List.append_inj lexemes' (by omega) with ⟨_, sameBack⟩
      rcases List.append_inj sameBack (by omega) with ⟨sameOwn, _⟩
      subst sameOwn textBefore ownText
      refine ⟨⟨Lexeme.textOf behind ++ (Scan.read text.toList).blanks, ?_⟩, ?_⟩
      · refine Eq.trans ?_ spelled.symm
        simp only [Lexeme.textOf_append, Lexeme.textOf_cons, List.append_assoc]
      · -- Behind its first token a statement has at least the one that ends the line.
        rcases statement.exists_ends with ⟨_, inside, lineEnd, isLine, _, isEnd⟩
        rcases List.eq_nil_or_concat' others with rfl | ⟨inner, last, rfl⟩
        · simp [isLine] at ends
        have lastEnds : last.kind = .newline := by
          refine @Scan.kind_of_getLast_locate place (first :: (inner ++ [last])) ?_ last ?_
          · rw [located, isLine, ← List.cons_append, List.getLast?_concat]
            simpa using isEnd
          · rw [← List.cons_append, List.getLast?_concat]
            rfl
        have stands := (Lexeme.row_append.1 (Lexeme.row_append.1 row).1).2.2
        rcases (Lexeme.row_append.1 stands).2.1.eq_lineBreak lastEnds with
          ⟨lineBreak, isBreak, same⟩
        refine ⟨lineBreak, isBreak, first.source ++ (Lexeme.textOf inner ++ last.blanks), ?_⟩
        rw [same]
        simp

end Statement

namespace Lexeme

theorem length_lt_of_isPrefix {front others left : List Lexeme} {first : Lexeme}
    {tail tail' blanks cut : List Char} (stands : first.StandsBefore tail)
    (leftPrefix : left <+: front ++ first :: others) (blank : ∀ c ∈ blanks, Text.isBlank c = true)
    (spelled : cut = textOf left ++ blanks)
    (isPrefix : cut <+: textOf (front ++ first :: others) ++ tail')
    (beyond : (textOf front ++ first.blanks).length < cut.length) : front.length < left.length := by
  by_contra notLess
  rcases List.prefix_of_prefix_length_le leftPrefix (List.prefix_append front _) (by omega) with
    ⟨more, rfl⟩
  rcases stands.reading with ⟨c, rest, source, notBlank, _⟩
  rcases List.exists_cons_of_ne_nil stands.source_ne_nil with ⟨c', sourceRest, sourceSame⟩
  rw [sourceSame, List.cons_append, List.cons.injEq] at source
  have upTo : textOf (left ++ more) ++ (first.blanks ++ [c]) <+:
      textOf ((left ++ more) ++ first :: others) ++ tail' := by
    refine ⟨sourceRest ++ (textOf others ++ tail'), ?_⟩
    rw [textOf_append _ (first :: others), textOf_cons, sourceSame, source.1]
    simp
  have inCut := List.prefix_of_prefix_length_le upTo isPrefix (by
    simp only [List.length_append, List.length_singleton] at beyond ⊢
    omega)
  rw [spelled, textOf_append, List.append_assoc, List.prefix_append_right_inj] at inCut
  have isBlank := blank c (inCut.subset (by simp))
  rw [notBlank] at isBlank
  contradiction

theorem length_lt_of_length_lt {whole left : List Lexeme} {behind : List Lexeme}
    (leftPrefix : left <+: whole ++ behind)
    (less : (textOf left).length < (textOf whole).length) : left.length < whole.length := by
  by_contra notLess
  rcases List.prefix_of_prefix_length_le (List.prefix_append whole behind) leftPrefix
    (by omega) with
    ⟨more, rfl⟩
  rw [textOf_append, List.length_append] at less
  omega

end Lexeme

section

variable {file again : Path} {text cut : String} {sections found : List Section}

/-- What is left of a script has its first tokens, if it is a script at all. -/
theorem exists_reached_of_isPrefix (parsed : parseSections file text = .ok sections)
    (isPrefix : cut.toList <+: text.toList) (cutParsed : parseSections again cut = .ok found) :
    ∃ tokens cutTokens last cutLast, Tokens.ofText text = .ok tokens ∧
      Tokens.ofText cut = .ok cutTokens ∧ cutTokens.list <+: tokens.list ∧
      (Scan.read cut.toList).lexemes <+: (Scan.read text.toList).lexemes ∧
      Stage.Reached tokens.stream last ∧ last.Finished ∧ last.sections = sections ∧
      Stage.Reached cutTokens.stream cutLast ∧ cutLast.Finished ∧ cutLast.sections = found := by
  rcases parseSections_eq_ok_iff_reached.1 parsed with
    ⟨tokens, last, lexed, reached, finished, same⟩
  rcases parseSections_eq_ok_iff_reached.1 cutParsed with
    ⟨cutTokens, cutLast, cutLexed, cutReached, cutFinished, cutSame⟩
  rcases Tokens.list_of_ofText lexed with ⟨sound, list⟩
  rcases Tokens.list_of_ofText cutLexed with ⟨cutSound, cutList⟩
  rcases Scan.row_of_read sound with ⟨row, spelled, blank⟩
  have ends := (cutReached.continues (cutReached.ahead_eq_nil cutLexed cutFinished)).1
  rw [cutList] at ends
  have lexemes := Scan.lexemes_isPrefix row blank (spelled ▸ isPrefix) cutSound
    (Scan.kind_of_getLast_locate ends)
  refine ⟨tokens, cutTokens, last, cutLast, lexed, cutLexed, ?_, lexemes, reached, finished, same,
    cutReached, cutFinished, cutSame⟩
  rcases lexemes with ⟨more, whole⟩
  rw [list, cutList, ← whole, Scan.locate_append]
  exact List.prefix_append _ _

theorem cutOff_of_isPrefix (parsed : parseSections file text = .ok sections)
    (isPrefix : cut.toList <+: text.toList) (cutParsed : parseSections again cut = .ok found) :
    Section.CutOff sections found := by
  rcases exists_reached_of_isPrefix parsed isPrefix cutParsed with
    ⟨tokens, cutTokens, last, cutLast, lexed, cutLexed, ⟨more, list⟩, _, reached, finished, rfl,
      cutReached, cutFinished, rfl⟩
  have continues := (cutReached.continues (cutReached.ahead_eq_nil cutLexed cutFinished)).2
  rcases Passed.exists_of_ahead (show tokens.stream.ahead = cutTokens.list ++ more from list.symm)
    with ⟨rest, passed, _⟩
  have stands := continues tokens.stream cutTokens.list rest passed rfl
  have cutOff := Stage.cutOff_of_leads (stands.leads reached finished.final)
  exact cutOff

theorem parseSections_ne_ok_within (parsed : parseSections file text = .ok sections)
    (isPrefix : cut.toList <+: text.toList) {before own : List Char}
    (standsIn : Statement.StandsIn text before own) (begun : before.length < cut.toList.length)
    (unfinished : cut.toList.length < before.length + own.length) :
    parseSections again cut ≠ .ok found := by
  intro cutParsed
  rcases exists_reached_of_isPrefix parsed isPrefix cutParsed with
    ⟨tokens, cutTokens, _, cutLast, lexed, cutLexed, listPrefix, lexemesPrefix, _, _, _,
      cutReached, cutFinished, _⟩
  cases standsIn with
  | @intro tokens' stage line rest after front others behind first lexed' reached passed statement
      lexemes starts ends textBefore ownText =>
      have sameTokens := lexed.symm.trans lexed'
      injection sameTokens with sameTokens
      subst sameTokens
      rcases Scan.row_of_read (Tokens.list_of_ofText lexed).1 with ⟨row, spelled, _⟩
      rcases Tokens.list_of_ofText cutLexed with ⟨cutSound, cutList⟩
      rcases Scan.row_of_read cutSound with ⟨_, cutSpelled, cutBlank⟩
      have cutLength : cutTokens.list.length = (Scan.read cut.toList).lexemes.length := by
        rw [cutList, Scan.length_locate]
      rw [lexemes] at row spelled lexemesPrefix
      have firstStands := (Lexeme.row_append.1 (Lexeme.row_append.1 row).1).2.1
      have starts' : front.length < (Scan.read cut.toList).lexemes.length := by
        rw [List.append_assoc, List.cons_append] at lexemesPrefix spelled
        refine Lexeme.length_lt_of_isPrefix firstStands lexemesPrefix cutBlank cutSpelled
          (spelled ▸ isPrefix) ?_
        rwa [← textBefore]
      have ends' : (Scan.read cut.toList).lexemes.length < (front ++ first :: others).length := by
        refine Lexeme.length_lt_of_length_lt lexemesPrefix ?_
        have cutText := congrArg List.length cutSpelled
        rw [textBefore, ownText] at unfinished
        simp only [List.length_append, Lexeme.textOf_append, Lexeme.textOf_cons]
          at cutText unfinished ⊢
        omega
      rw [List.length_append] at ends'
      exact reached.not_finished_of_cut listPrefix passed statement (by omega) (by omega) cutReached
        cutFinished

/-- A script that breaks off never turns into another one. What is left of it has its sections up
to some instruction, or is refused; and it is refused if it ends within a statement, behind the
first character of that and before the last one of its line terminator. -/
theorem parseSections_of_isPrefix (parsed : parseSections file text = .ok sections)
    (isPrefix : cut.toList <+: text.toList) :
    (∀ found, parseSections again cut = .ok found → Section.CutOff sections found) ∧
      ∀ before own, Statement.StandsIn text before own → before.length < cut.toList.length →
        cut.toList.length < before.length + own.length →
        ∃ diagnostic, parseSections again cut = .error diagnostic := by
  refine ⟨fun found cutParsed => cutOff_of_isPrefix parsed isPrefix cutParsed, ?_⟩
  intro before own standsIn begun unfinished
  cases result : parseSections again cut with
  | ok found =>
      exact absurd result (parseSections_ne_ok_within parsed isPrefix standsIn begun unfinished)
  | error diagnostic => exact ⟨diagnostic, rfl⟩

end

/-- Cut behind its parenthesis the jump is refused, and cut before it the section is empty. -/
theorem parseSections_of_cut_jump :
    parseSections unnamedFile "--- a\njump(b)\n--- c\n" = .ok [⟨"a", [.jump "b"]⟩, ⟨"c", []⟩] ∧
      Statement.StandsIn "--- a\njump(b)\n--- c\n" "--- a\n".toList "jump(b)\n".toList ∧
      "--- a\njump(b)".toList <+: "--- a\njump(b)\n--- c\n".toList ∧
      (∃ diagnostic, parseSections unnamedFile "--- a\njump(b)" = .error diagnostic) ∧
      parseSections unnamedFile "--- a\n" = .ok [⟨"a", []⟩] ∧
      "--- a\n".toList <+: "--- a\njump(b)\n--- c\n".toList ∧
      Section.CutOff [⟨"a", [.jump "b"]⟩, ⟨"c", []⟩] [⟨"a", []⟩] := by
  have lexed : Tokens.ofText "--- a\njump(b)\n--- c\n" = .ok
      ⟨[⟨.sectionMarker, "---", ⟨1, 1⟩⟩, ⟨.identifier, "a", ⟨1, 5⟩⟩, ⟨.newline, "\n", ⟨1, 6⟩⟩,
        ⟨.identifier, "jump", ⟨2, 1⟩⟩, ⟨.leftParen, "(", ⟨2, 5⟩⟩, ⟨.identifier, "b", ⟨2, 6⟩⟩,
        ⟨.rightParen, ")", ⟨2, 7⟩⟩, ⟨.newline, "\n", ⟨2, 8⟩⟩, ⟨.sectionMarker, "---", ⟨3, 1⟩⟩,
        ⟨.identifier, "c", ⟨3, 5⟩⟩, ⟨.newline, "\n", ⟨3, 6⟩⟩], ⟨4, 1⟩⟩ := by decide +kernel
  have parsed : parseSections unnamedFile "--- a\njump(b)\n--- c\n" =
      .ok [⟨"a", [.jump "b"]⟩, ⟨"c", []⟩] := parseSections_eq_ok.2 ⟨_, lexed, by decide +kernel⟩
  have cutParsed : parseSections unnamedFile "--- a\n" = .ok [⟨"a", []⟩] :=
    parseSections_eq_ok.2 ⟨⟨[⟨.sectionMarker, "---", ⟨1, 1⟩⟩, ⟨.identifier, "a", ⟨1, 5⟩⟩,
      ⟨.newline, "\n", ⟨1, 6⟩⟩], ⟨2, 1⟩⟩, by decide +kernel, by decide +kernel⟩
  have standsIn : Statement.StandsIn "--- a\njump(b)\n--- c\n" "--- a\n".toList
      "jump(b)\n".toList := by
    have spans : (Instruction.jump "b").Spans ⟨3,
        [⟨.identifier, "jump", ⟨2, 1⟩⟩, ⟨.leftParen, "(", ⟨2, 5⟩⟩, ⟨.identifier, "b", ⟨2, 6⟩⟩,
          ⟨.rightParen, ")", ⟨2, 7⟩⟩, ⟨.newline, "\n", ⟨2, 8⟩⟩, ⟨.sectionMarker, "---", ⟨3, 1⟩⟩,
          ⟨.identifier, "c", ⟨3, 5⟩⟩, ⟨.newline, "\n", ⟨3, 6⟩⟩], ⟨4, 1⟩⟩
        ⟨8, [⟨.sectionMarker, "---", ⟨3, 1⟩⟩, ⟨.identifier, "c", ⟨3, 5⟩⟩,
          ⟨.newline, "\n", ⟨3, 6⟩⟩], ⟨4, 1⟩⟩ := Rule.formOf_accepted.1 (by cbv)
    rcases Instruction.spans_iff_written.1 spans with ⟨line, passed, written⟩
    have length : 8 = 3 + line.length := passed.index
    let lexemes := (Scan.read "--- a\njump(b)\n--- c\n".toList).lexemes
    have own : (Lexeme.name "jump" [] :: (lexemes.drop 4).take 4).length = 5 := by decide +kernel
    exact @Statement.StandsIn.intro _ _ _ _ ⟨[⟨"a", []⟩], _⟩ line _ _ (lexemes.take 3)
      ((lexemes.drop 4).take 4) (lexemes.drop 8) (.name "jump" []) lexed (.single (.header rfl))
      passed (.instruction (by simp) written) (by decide +kernel) (by decide +kernel) (by omega)
      (by decide +kernel) (by decide +kernel)
  have refused : "--- a\njump(b)".toList <+: "--- a\njump(b)\n--- c\n".toList := by decide
  have kept : "--- a\n".toList <+: "--- a\njump(b)\n--- c\n".toList := by decide
  exact ⟨parsed, standsIn, refused,
    (parseSections_of_isPrefix parsed refused).2 _ _ standsIn (by decide) (by decide), cutParsed,
    kept, (parseSections_of_isPrefix parsed kept).1 _ cutParsed⟩

end EventScript
