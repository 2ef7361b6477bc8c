import EventScript.Compile
import EventScript.Proofs.Lexing
import EventScript.Proofs.StatementGrammar

/-! The grammar of scripts. A parser reads sections exactly if the tokens of the text
spell them, and then it reads those and no others. -/

namespace EventScript

open TokenStream

/-! ## Where sections stand -/

inductive Instruction.Lines : List Instruction → TokenStream → TokenStream → Prop
  | nil {place : TokenStream} : Lines [] place place
  | cons {first : Instruction} {others : List Instruction} {run : List Token}
      {before behind next after : TokenStream} (spans : first.Spans before behind)
      (breaks : Breaks run) (passed : behind.Passed run next) (lines : Lines others next after) :
      Lines (first :: others) before after

/-- A section stands between two places of a text: its header fills a line, with the name
apart from the marker, and its instructions follow. -/
inductive Section.Spans : Section → TokenStream → TokenStream → Prop
  | intro {marker name lineEnd : Token} {run : List Token} {instructions : List Instruction}
      {before inside after : TokenStream} (isMarker : marker.kind = .sectionMarker)
      (isName : name.kind = .identifier)
      (apart : marker.place.column + 3 < name.place.column) (isEnd : lineEnd.kind = .newline)
      (breaks : Breaks run)
      (passed : before.Passed ([marker, name, lineEnd] ++ run) inside)
      (lines : Instruction.Lines instructions inside after) :
      Spans ⟨name.value, instructions⟩ before after

theorem Instruction.Lines.passed {instructions : List Instruction} {before after : TokenStream}
    (lines : Lines instructions before after) : ∃ tokens, before.Passed tokens after := by
  induction lines with
  | nil => exact ⟨[], .nothing _⟩
  | cons spans _ blankLines _ induction =>
      rcases spans.passed with ⟨tokens, passed⟩
      rcases induction with ⟨others, othersPassed⟩
      exact ⟨_, (passed.trans blankLines).trans othersPassed⟩

theorem Section.Spans.passed {found : Section} {before after : TokenStream}
    (spans : found.Spans before after) : ∃ tokens, before.Passed tokens after := by
  cases spans with
  | intro _ _ _ _ _ header lines =>
      rcases lines.passed with ⟨tokens, passed⟩
      exact ⟨_, header.trans passed⟩

theorem Section.Spans.current_kind {found : Section} {before after : TokenStream}
    (spans : found.Spans before after) : before.current.kind = .sectionMarker := by
  cases spans with
  | intro isMarker _ _ _ _ passed => rwa [current_eq passed.ahead]

inductive Section.SpanAll : List Section → TokenStream → TokenStream → Prop
  | nil {place : TokenStream} : SpanAll [] place place
  | cons {first : Section} {others : List Section} {before between after : TokenStream}
      (spans : first.Spans before between) (rest : SpanAll others between after) :
      SpanAll (first :: others) before after

/-- The tokens of a text are sections in a row, with line terminators before them. -/
def Tokens.Spell (tokens : Tokens) (sections : List Section) : Prop :=
  ∃ run first last, Breaks run ∧ tokens.stream.Passed run first ∧
    Section.SpanAll sections first last ∧ last.ahead = []

/-! ## One instruction -/

namespace Instruction

theorem Spans.isWord {instruction : Instruction} {before after : TokenStream}
    (spans : instruction.Spans before after) : before.current.isWord instruction.kind = true := by
  rcases spans with ⟨word, _, _, _, isWord, passed, _⟩
  rwa [current_eq passed.ahead]

/-- A talk with choices has a comma where a talk without has its closing parenthesis. -/
theorem not_spans_talk {textId textId' : String} {first : Choice} {others : List Choice}
    {before after after' : TokenStream} (plain : (talk textId []).Spans before after)
    (offering : (talk textId' (first :: others)).Spans before after') : False := by
  rcases plain with ⟨_, _, _, _, _, passed, plain, _⟩
  rcases offering with ⟨_, _, _, _, _, passed', offering, _⟩
  have sameWord := (current_eq passed.ahead).symm.trans (current_eq passed'.ahead)
  subst sameWord
  have sameOpened := passed.eq passed'
  subst sameOpened
  have plainPieces : (talk textId []).pieces =
      [.sign .leftParen, .name textId, .sign .rightParen] := rfl
  rw [Instruction.pieces, Rule.pieces_talkWithChoices] at offering
  rw [plainPieces] at plain
  simp only [List.cons_append, Piece.spanAll_cons, ← Rule.name_accepted,
    Rule.spans_sign_iff .leftParen (by decide) (by decide),
    Rule.spans_sign_iff .rightParen (by decide) (by decide),
    Rule.spans_sign_iff .comma (by decide) (by decide)] at plain offering
  rcases plain with ⟨_, ⟨_, rfl⟩, _, name, _, ⟨closing, _⟩, _⟩
  rcases offering with ⟨_, ⟨_, rfl⟩, _, name', _, ⟨comma, _⟩, _⟩
  rw [name] at name'
  injection name' with _ sameMiddle
  subst sameMiddle
  rw [closing] at comma
  contradiction

theorem formOf_eq_of_kind {instruction other : Instruction} (same : instruction.kind = other.kind)
    (noTalk : ∀ textId choices, instruction ≠ talk textId choices) :
    Rule.formOf instruction = Rule.formOf other := by
  cases instruction <;> cases other <;> first
    | rfl
    | exact absurd rfl (noTalk _ _)
    | simp [Instruction.kind] at same

theorem Spans.eq {instruction other : Instruction} {before after after' : TokenStream}
    (spans : instruction.Spans before after) (spans' : other.Spans before after') :
    instruction = other ∧ after = after' := by
  have word := (kind_of_isWord spans.isWord).2
  have word' := (kind_of_isWord spans'.isWord).2
  have sameForm : Rule.formOf instruction = Rule.formOf other := by
    have sameKind : instruction.kind = other.kind := word.symm.trans word'
    cases instruction with
    | talk textId choices =>
        cases other with
        | talk textId' choices' =>
            cases choices <;> cases choices'
            · rfl
            · exact (not_spans_talk spans spans').elim
            · exact (not_spans_talk spans' spans).elim
            · rfl
        | _ => simp [Instruction.kind] at sameKind
    | _ => exact formOf_eq_of_kind sameKind (by simp)
  have accepted := Rule.formOf_accepted.2 spans
  rw [sameForm, Rule.formOf_accepted.2 spans'] at accepted
  injection accepted with same sameAfter
  exact ⟨same.symm, sameAfter.symm⟩

end Instruction

/-! ## Attempts -/

namespace Parser

variable {α : Type}

theorem attempt_run_accepted {rule : Rule α} {parser : Parser} {value : α} {rest : TokenStream}
    (accepted : rule parser.stream = .accepted value rest) :
    parser.attempt (run rule) = (some value, { parser with stream := rest }) := by
  simp [attempt, run, accepted]

theorem attempt_run_refused {rule : Rule α} {parser : Parser}
    (refused : ∀ value rest, rule parser.stream ≠ .accepted value rest) :
    ∃ after, parser.attempt (run rule) = (none, after) ∧ after.stream = parser.stream := by
  cases tried : parser.attempt (run rule) with
  | mk found after =>
      cases found with
      | none => exact ⟨after, rfl, attempt_none tried⟩
      | some value => exact absurd (attempt_run_some tried) (refused _ _)

theorem exists_of_attemptAny {rules : List (Rule α)} {parser after : Parser} {value : α}
    (tried : attemptAny rules parser = (some value, after)) :
    ∃ rule ∈ rules, rule parser.stream = .accepted value after.stream := by
  induction rules generalizing parser with
  | nil => simp [attemptAny] at tried
  | cons rule others induction =>
      unfold attemptAny at tried
      split at tried
      · next found =>
          injection tried with sameValue sameAfter
          injection sameValue with sameValue
          subst sameValue sameAfter
          exact ⟨rule, by simp, attempt_run_some found⟩
      · next found =>
          rcases induction tried with ⟨other, listed, accepted⟩
          rw [attempt_none found] at accepted
          exact ⟨other, by simp [listed], accepted⟩

theorem attemptAny_accepted {rules : List (Rule α)} {parser : Parser} {value : α}
    {rest : TokenStream} {rule : Rule α} (listed : rule ∈ rules)
    (accepted : rule parser.stream = .accepted value rest)
    (unique : ∀ other ∈ rules, ∀ found after, other parser.stream = .accepted found after →
      found = value ∧ after = rest) :
    ∃ after, attemptAny rules parser = (some value, after) ∧ after.stream = rest := by
  induction rules generalizing parser with
  | nil => contradiction
  | cons first others induction =>
      by_cases accepts : ∃ found after, first parser.stream = .accepted found after
      · rcases accepts with ⟨found, after, firstAccepted⟩
        rcases unique first (by simp) found after firstAccepted with ⟨rfl, rfl⟩
        refine ⟨{ parser with stream := after }, ?_, rfl⟩
        rw [attemptAny, attempt_run_accepted firstAccepted]
      · have refused : ∀ found after, first parser.stream ≠ .accepted found after :=
          fun found after firstAccepted => accepts ⟨found, after, firstAccepted⟩
        rcases attempt_run_refused refused with ⟨back, tried, sameStream⟩
        have behind : rule ∈ others := by
          rcases List.mem_cons.1 listed with rfl | behind
          · exact absurd accepted (refused _ _)
          · exact behind
        rw [attemptAny, tried]
        apply induction behind
        · rw [sameStream, accepted]
        · intro other inside found after otherAccepted
          rw [sameStream] at otherAccepted
          exact unique other (by simp [inside]) found after otherAccepted

theorem attemptAny_refused {rules : List (Rule α)} {parser : Parser}
    (refused : ∀ rule ∈ rules, ∀ value rest, rule parser.stream ≠ .accepted value rest) :
    ∃ after, attemptAny rules parser = (none, after) ∧ after.stream = parser.stream := by
  cases tried : attemptAny rules parser with
  | mk found after =>
      cases found with
      | none => exact ⟨after, rfl, attemptAny_none tried⟩
      | some value =>
          rcases exists_of_attemptAny tried with ⟨rule, listed, accepted⟩
          exact absurd accepted (refused rule listed _ _)

/-! ## Instructions in their lines -/

theorem spans_of_readInstruction {parser after : Parser} {instruction : Instruction}
    (read : parser.readInstruction = (some instruction, after)) :
    instruction.Spans parser.stream after.stream := by
  rcases exists_of_attemptAny read with ⟨rule, listed, accepted⟩
  exact Rule.spans_of_accepted listed accepted

theorem readInstruction_of_spans {parser : Parser} {instruction : Instruction}
    {rest : TokenStream} (spans : instruction.Spans parser.stream rest) :
    ∃ after, parser.readInstruction = (some instruction, after) ∧ after.stream = rest := by
  apply attemptAny_accepted (Rule.formOf_mem instruction) (Rule.formOf_accepted.2 spans)
  intro other listed found after accepted
  exact (Rule.spans_of_accepted listed accepted).eq spans

theorem readInstruction_refused {parser : Parser}
    (notName : parser.stream.current.kind ≠ .identifier) :
    ∃ after, parser.readInstruction = (none, after) ∧ after.stream = parser.stream := by
  apply attemptAny_refused
  intro rule listed instruction rest accepted
  have spans := Rule.spans_of_accepted listed accepted
  exact notName (kind_of_isWord spans.isWord).1

theorem readInstructions_none {parser after : Parser}
    (read : parser.skipNewlines.readInstruction = (none, after)) :
    parser.readInstructions = ([], after) := by
  rw [readInstructions.eq_def]
  split
  · next found =>
      rw [read] at found
      injection found with _ same
      rw [same]
  · next found =>
      rw [read] at found
      injection found with isFalse _
      contradiction

theorem readInstructions_some {parser after : Parser} {first : Instruction}
    (read : parser.skipNewlines.readInstruction = (some first, after)) :
    parser.readInstructions = (first :: after.readInstructions.1, after.readInstructions.2) := by
  rw [readInstructions.eq_def]
  split
  · next found =>
      rw [read] at found
      injection found with isFalse _
      contradiction
  · next found =>
      rw [read] at found
      injection found with sameFirst sameAfter
      injection sameFirst with sameFirst
      rw [sameFirst, sameAfter]

theorem lines_of_readInstructions (parser : Parser) :
    ∃ run next, Breaks run ∧ parser.stream.Passed run next ∧
      Instruction.Lines parser.readInstructions.1 next parser.readInstructions.2.stream ∧
      parser.readInstructions.2.stream.current.kind ≠ .newline := by
  rcases passed_skipNewlines parser.stream with ⟨run, breaks, skipped⟩
  refine ⟨run, parser.skipNewlines.stream, breaks, skipped, ?_⟩
  cases read : parser.skipNewlines.readInstruction with
  | mk found after =>
      cases found with
      | none =>
          rw [readInstructions_none read, attemptAny_none read]
          exact ⟨.nil, current_skipNewlines parser.stream⟩
      | some first =>
          have fewer : after.stream.remaining < parser.stream.remaining :=
            Nat.lt_of_lt_of_le
              (remaining_attemptAny_lt Rule.consumes_of_mem_instructionForms read)
              parser.stream.remaining_skipNewlines_le
          rcases lines_of_readInstructions after with ⟨run, next, breaks, passed, lines, stops⟩
          rw [readInstructions_some read]
          exact ⟨.cons (spans_of_readInstruction read) breaks passed lines, stops⟩
termination_by parser.stream.remaining

theorem readInstructions_of_lines {instructions : List Instruction} {next last : TokenStream}
    (lines : Instruction.Lines instructions next last) (parser : Parser) {run : List Token}
    (breaks : Breaks run) (passed : parser.stream.Passed run next)
    (notName : last.current.kind ≠ .identifier) (notBreak : last.current.kind ≠ .newline) :
    ∃ after, parser.readInstructions = (instructions, after) ∧ after.stream = last := by
  induction lines generalizing parser run with
  | nil =>
      have skipped : parser.skipNewlines.stream = _ := skipNewlines_eq breaks passed notBreak
      rw [← skipped] at notName
      rcases readInstruction_refused notName with ⟨after, read, sameStream⟩
      exact ⟨after, readInstructions_none read, sameStream.trans skipped⟩
  | cons spans breaks' passed' _ induction =>
      have starts := (kind_of_isWord spans.isWord).1
      have skipped : parser.skipNewlines.stream = _ :=
        skipNewlines_eq breaks passed (by simp [starts])
      rw [← skipped] at spans
      rcases readInstruction_of_spans spans with ⟨behind, read, rfl⟩
      rcases induction behind breaks' passed' notName notBreak with ⟨after, others, sameStream⟩
      refine ⟨after, ?_, sameStream⟩
      rw [readInstructions_some read, others]

/-! ## Sections -/

/-- The facts about tokens that hold of every part of a text. -/
structure Genuine (tokens : List Token) : Prop where
  notEnd : ∀ token ∈ tokens, token.kind ≠ .endOfInput
  markers : tokens.IsChain fun first second =>
    first.kind = .sectionMarker → second.place.line = first.place.line

theorem Genuine.of_passed {before after : TokenStream} {tokens : List Token}
    (genuine : Genuine before.ahead) (passed : before.Passed tokens after) :
    Genuine after.ahead where
  notEnd token member := genuine.notEnd token (by simp [passed.ahead, member])
  markers := by
    have markers := genuine.markers
    rw [passed.ahead] at markers
    exact (List.isChain_append.1 markers).2.1

theorem genuine_of_ofText {text : String} {tokens : Tokens}
    (read : Tokens.ofText text = .ok tokens) : Genuine tokens.list where
  notEnd token member := (Tokens.wellFormed_of_ofText read token member).notEnd
  markers := Tokens.marker_line_of_ofText read

theorem ahead_eq_nil {stream : TokenStream} (genuine : Genuine stream.ahead)
    (atEnd : stream.current.kind = .endOfInput) : stream.ahead = [] := by
  cases ahead : stream.ahead with
  | nil => rfl
  | cons token rest =>
      rw [current_eq ahead] at atEnd
      exact absurd atEnd (genuine.notEnd token (by simp [ahead]))

theorem sectionHeader_accepted_iff_passed {stream rest : TokenStream} {title : String} :
    Rule.sectionHeader stream = .accepted title rest ↔
      ∃ marker name lineEnd, marker.kind = .sectionMarker ∧ name.kind = .identifier ∧
        Rule.spacedFrom marker name = true ∧ lineEnd.kind = .newline ∧
        stream.Passed [marker, name, lineEnd] rest ∧ name.value = title := by
  constructor
  · intro accepted
    rcases (Rule.bind_accepted _).1 accepted with ⟨marker, behind, markerRead, accepted⟩
    rcases (Rule.expect_accepted (by decide)).1 markerRead with ⟨isMarker, markerPassed⟩
    rcases (Rule.bind_accepted _).1 accepted with ⟨name, _, looked, accepted⟩
    injection looked with sameName sameStream
    subst sameName sameStream
    split at accepted
    · contradiction
    · next isName =>
        split at accepted
        · contradiction
        · next spaced =>
            rw [not_not] at isName
            rcases (Rule.bind_accepted _).1 accepted with ⟨_, _, advanced, accepted⟩
            injection advanced with _ sameStream
            subst sameStream
            rcases (Rule.bind_accepted _).1 accepted with ⟨lineEnd, _, ended, accepted⟩
            rcases Rule.expectEndOfLine_accepted.1 ended with ⟨isEnd, endPassed⟩
            rcases Rule.pure_accepted.1 accepted with ⟨same, rfl⟩
            have notEnd : behind.current.kind ≠ .endOfInput := by simp [isName]
            exact ⟨marker, behind.current, lineEnd, isMarker, isName, by simpa using spaced, isEnd,
              (markerPassed.trans (passed_current notEnd)).trans endPassed, same⟩
  · intro holds
    rcases holds with ⟨marker, name, lineEnd, isMarker, isName, spaced, isEnd, passed, rfl⟩
    have split : [marker, name, lineEnd] = [marker] ++ ([name] ++ [lineEnd]) := rfl
    rw [split] at passed
    rcases passed.split with ⟨behind, markerPassed, passed⟩
    rcases passed.split with ⟨ending, namePassed, endPassed⟩
    have current := current_eq namePassed.ahead
    have advanced := (passed_advance namePassed.ahead).eq namePassed
    refine (Rule.bind_accepted _).2
      ⟨marker, behind, (Rule.expect_accepted (by decide)).2 ⟨isMarker, markerPassed⟩, ?_⟩
    refine (Rule.bind_accepted _).2 ⟨name, behind, by rw [Rule.current, current], ?_⟩
    rw [if_neg (by simp [isName]), if_neg (by simp [spaced])]
    refine (Rule.bind_accepted _).2 ⟨name, ending, by rw [Rule.advance, current, advanced], ?_⟩
    exact (Rule.bind_accepted _).2
      ⟨lineEnd, rest, Rule.expectEndOfLine_accepted.2 ⟨isEnd, endPassed⟩, rfl⟩

theorem sectionHeader_accepted {stream rest : TokenStream} (genuine : Genuine stream.ahead)
    {title : String} :
    Rule.sectionHeader stream = .accepted title rest ↔
      ∃ marker name lineEnd, marker.kind = .sectionMarker ∧ name.kind = .identifier ∧
        marker.place.column + 3 < name.place.column ∧ lineEnd.kind = .newline ∧
        stream.Passed [marker, name, lineEnd] rest ∧ name.value = title := by
  rw [sectionHeader_accepted_iff_passed]
  constructor
  · intro holds
    rcases holds with ⟨marker, name, lineEnd, isMarker, isName, spaced, isEnd, passed, same⟩
    simp only [Rule.spacedFrom, Bool.and_eq_true, decide_eq_true_eq] at spaced
    exact ⟨marker, name, lineEnd, isMarker, isName, spaced.2, isEnd, passed, same⟩
  · intro holds
    rcases holds with ⟨marker, name, lineEnd, isMarker, isName, apart, isEnd, passed, same⟩
    have sameLine : name.place.line = marker.place.line := by
      have markers := genuine.markers
      rw [passed.ahead] at markers
      exact (List.isChain_cons.1 markers).1 name rfl isMarker
    exact ⟨marker, name, lineEnd, isMarker, isName, by simp [Rule.spacedFrom, sameLine, apart],
      isEnd, passed, same⟩

theorem spans_of_readSection {parser after : Parser} (genuine : Genuine parser.stream.ahead)
    {found : Section} (read : readSection parser = (.ok found, after)) :
    found.Spans parser.stream after.stream ∧ after.stream.current.kind ≠ .newline := by
  unfold readSection run at read
  cases header : Rule.sectionHeader parser.stream with
  | refused fault rest => simp [header] at read
  | accepted title rest =>
      simp only [header, Prod.mk.injEq, Except.ok.injEq] at read
      rcases read with ⟨rfl, rfl⟩
      rcases (sectionHeader_accepted genuine).1 header with
        ⟨marker, name, lineEnd, isMarker, isName, apart, isEnd, passed, rfl⟩
      rcases lines_of_readInstructions { parser with stream := rest } with
        ⟨run, next, breaks, runPassed, lines, stops⟩
      exact ⟨.intro isMarker isName apart isEnd breaks (passed.trans runPassed) lines, stops⟩

theorem readSection_of_spans {parser : Parser} (genuine : Genuine parser.stream.ahead)
    {found : Section} {rest : TokenStream} (spans : found.Spans parser.stream rest)
    (notName : rest.current.kind ≠ .identifier) (notBreak : rest.current.kind ≠ .newline) :
    ∃ after, readSection parser = (.ok found, after) ∧ after.stream = rest := by
  cases spans with
  | @intro marker name lineEnd blankLines instructions _ inside _ isMarker isName apart isEnd
      breaks passed lines =>
      rcases passed.split with ⟨behind, headerPassed, runPassed⟩
      have header := (sectionHeader_accepted genuine).2
        ⟨marker, name, lineEnd, isMarker, isName, apart, isEnd, headerPassed, rfl⟩
      rcases readInstructions_of_lines lines { parser with stream := behind } breaks runPassed
        notName notBreak with ⟨after, read, sameStream⟩
      refine ⟨after, ?_, sameStream⟩
      simp only [readSection, run, header, read]

/-! ## Whole scripts -/

theorem attempt_readSection {parser after : Parser} {found : Section} :
    parser.attempt readSection = (some found, after) ↔
      readSection parser = (.ok found, after) := by
  unfold attempt
  split
  · next value reached read => simp [read]
  · next read => simp [read]

theorem readSections_nil {parser : Parser}
    (atEnd : parser.skipNewlines.stream.current.kind = .endOfInput) :
    parser.readSections = (.ok [], parser.skipNewlines) := by
  rw [readSections.eq_def]
  simp [atEnd]

theorem readSections_failed {parser after : Parser}
    (notEnd : parser.skipNewlines.stream.current.kind ≠ .endOfInput)
    (failed : parser.skipNewlines.attempt readSection = (none, after)) :
    parser.readSections = (.error after.stoppingFault, after) := by
  rw [readSections.eq_def]
  simp only [notEnd, if_false]
  split
  · next found =>
      rw [failed] at found
      injection found with _ same
      rw [same]
  · next found =>
      rw [failed] at found
      injection found with isFalse _
      contradiction

theorem readSections_eq_of_readSection {parser after : Parser} {first : Section}
    (notEnd : parser.skipNewlines.stream.current.kind ≠ .endOfInput)
    (read : readSection parser.skipNewlines = (.ok first, after)) :
    parser.readSections = (after.readSections.1.map (first :: ·), after.readSections.2) := by
  rw [readSections.eq_def]
  simp only [notEnd, if_false]
  split
  · next found =>
      rw [attempt_readSection.2 read] at found
      injection found with isFalse _
      contradiction
  · next found =>
      rw [attempt_readSection.2 read] at found
      injection found with sameFirst sameAfter
      injection sameFirst with sameFirst
      subst sameFirst sameAfter
      split
      · next others => simp [others, Except.map]
      · next fault => simp [fault, Except.map]

theorem readSections_cons {parser after : Parser} {first : Section}
    (notEnd : parser.skipNewlines.stream.current.kind ≠ .endOfInput)
    (read : readSection parser.skipNewlines = (.ok first, after)) :
    parser.readSections.1 = after.readSections.1.map (first :: ·) := by
  rw [readSections_eq_of_readSection notEnd read]

theorem spanAll_of_readSections (parser : Parser) (genuine : Genuine parser.stream.ahead)
    {sections : List Section} (read : parser.readSections.1 = .ok sections) :
    ∃ run first last, Breaks run ∧ parser.stream.Passed run first ∧
      Section.SpanAll sections first last ∧ last.ahead = [] := by
  rcases passed_skipNewlines parser.stream with ⟨run, breaks, skipped⟩
  have genuineStart := genuine.of_passed skipped
  refine ⟨run, parser.skipNewlines.stream, ?_⟩
  by_cases atEnd : parser.skipNewlines.stream.current.kind = .endOfInput
  · rw [readSections_nil atEnd] at read
    injection read with same
    subst same
    exact ⟨_, breaks, skipped, .nil, ahead_eq_nil genuineStart atEnd⟩
  · cases header : parser.skipNewlines.attempt readSection with
    | mk found after =>
        cases found with
        | none => simp [readSections_failed atEnd header] at read
        | some first =>
            have firstRead := attempt_readSection.1 header
            rw [readSections_cons atEnd firstRead] at read
            cases others : after.readSections.1 with
            | error fault => simp [others, Except.map] at read
            | ok rest =>
                simp only [others, Except.map, Except.ok.injEq] at read
                subst read
                rcases spans_of_readSection genuineStart firstRead with ⟨spans, stops⟩
                rcases spans.passed with ⟨tokens, passed⟩
                have fewer := remaining_readSection_lt firstRead
                have skippedFewer := parser.stream.remaining_skipNewlines_le
                rcases spanAll_of_readSections after (genuineStart.of_passed passed) others with
                  ⟨blankLines, next, last, blank, blankPassed, spanAll, whole⟩
                have same := eq_of_breaks blank blankPassed stops
                exact ⟨last, breaks, skipped, .cons spans (same ▸ spanAll), whole⟩
termination_by parser.stream.remaining
decreasing_by
  exact Nat.lt_of_lt_of_le fewer skippedFewer

theorem readSections_of_spanAll {sections : List Section} {first last : TokenStream}
    (spans : Section.SpanAll sections first last) (whole : last.ahead = []) (parser : Parser)
    (genuine : Genuine parser.stream.ahead) {run : List Token} (breaks : Breaks run)
    (passed : parser.stream.Passed run first) : parser.readSections.1 = .ok sections := by
  have atLast : last.current = .atEnd last.finish := by rw [current, whole, List.headD_nil]
  induction spans generalizing parser run with
  | nil =>
      have skipped : parser.skipNewlines.stream = _ :=
        skipNewlines_eq breaks passed (by simp [atLast, Token.atEnd])
      rw [readSections_nil]
      rw [skipped, atLast]
      rfl
  | @cons found others before between last spans rest induction =>
      have starts := spans.current_kind
      have skipped : parser.skipNewlines.stream = before :=
        skipNewlines_eq breaks passed (by simp [starts])
      have genuineStart := genuine.of_passed passed
      rw [← skipped] at spans starts genuineStart
      have ends : between.current.kind ≠ .identifier ∧ between.current.kind ≠ .newline := by
        cases rest with
        | nil => simp [atLast, Token.atEnd]
        | cons next _ => simp [next.current_kind]
      rcases readSection_of_spans genuineStart spans ends.1 ends.2 with ⟨after, read, rfl⟩
      rcases spans.passed with ⟨tokens, spansPassed⟩
      rw [readSections_cons (by simp [starts]) read, induction whole after
        (genuineStart.of_passed spansPassed) breaks_nil (.nothing _) atLast]
      rfl

/-- A text parses to the sections that its tokens spell, and to no others. -/
theorem readSections_eq_ok_iff {text : String} {tokens : Tokens}
    (read : Tokens.ofText text = .ok tokens) (sections : List Section) :
    (start tokens).readSections.1 = .ok sections ↔ tokens.Spell sections := by
  have genuine : Genuine (start tokens).stream.ahead := genuine_of_ofText read
  constructor
  · exact spanAll_of_readSections (start tokens) genuine
  · intro holds
    rcases holds with ⟨run, first, last, breaks, passed, spans, whole⟩
    exact readSections_of_spanAll spans whole (start tokens) genuine breaks passed

theorem spell_jump : ∃ tokens, Tokens.ofText "--- a\njump(\nb)\n" = .ok tokens ∧
    tokens.Spell [⟨"a", [.jump "b"]⟩] := by
  have lexed : Tokens.ofText "--- a\njump(\nb)\n" = .ok
      ⟨[⟨.sectionMarker, "---", ⟨1, 1⟩⟩, ⟨.identifier, "a", ⟨1, 5⟩⟩, ⟨.newline, "\n", ⟨1, 6⟩⟩,
        ⟨.identifier, "jump", ⟨2, 1⟩⟩, ⟨.leftParen, "(", ⟨2, 5⟩⟩, ⟨.newline, "\n", ⟨2, 6⟩⟩,
        ⟨.identifier, "b", ⟨3, 1⟩⟩, ⟨.rightParen, ")", ⟨3, 2⟩⟩, ⟨.newline, "\n", ⟨3, 3⟩⟩],
        ⟨4, 1⟩⟩ := by decide +kernel
  exact ⟨_, lexed, (readSections_eq_ok_iff lexed _).1 (by decide +kernel)⟩

end Parser

/-! ## Texts -/

theorem parseSections_of_ofText {text : String} {tokens : Tokens}
    (lexed : Tokens.ofText text = .ok tokens) (file : Path) :
    parseSections file text =
      (Parser.start tokens).readSections.1.mapError (·.diagnostic file text) := by
  rw [parseSections, lexed]
  dsimp only
  split
  · next failed => rw [failed]; rfl
  · next read => rw [read]; rfl

theorem parseSections_eq_ok {file : Path} {text : String} {sections : List Section} :
    parseSections file text = .ok sections ↔
      ∃ tokens, Tokens.ofText text = .ok tokens ∧
        (Parser.start tokens).readSections.1 = .ok sections := by
  cases lexed : Tokens.ofText text with
  | error error => simp [parseSections, lexed]
  | ok tokens =>
      rw [parseSections_of_ofText lexed]
      cases read : (Parser.start tokens).readSections.1 with
      | ok found => simp [read, Except.mapError]
      | error fault => simp [read, Except.mapError]

theorem parseSections_eq_error {file : Path} {text : String} {tokens : Tokens}
    (lexed : Tokens.ofText text = .ok tokens) {diagnostic : Diagnostic} :
    parseSections file text = .error diagnostic ↔
      ∃ fault, (Parser.start tokens).readSections.1 = .error fault ∧
        fault.diagnostic file text = diagnostic := by
  rw [parseSections_of_ofText lexed]
  cases (Parser.start tokens).readSections.1 with
  | ok found => simp [Except.mapError]
  | error fault => simp [Except.mapError]

end EventScript
