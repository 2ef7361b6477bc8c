import EventScript.Guarded.Compile
import EventScript.Proofs.FurthestRefusal
import EventScript.Proofs.GuardedLexing
import EventScript.Proofs.GuardedStatements

/-! Guarded compilation. Attempts are made by index into the tokens of a text, section by section to
the end of input. Where there is room for the calls of its expressions, it comes to the same as
compilation, and no other of its guards is ever in the way. -/

namespace EventScript.Guarded

open Run

namespace Tracker

variable {α β : Type}

/-! ## Attempts -/

variable {tokens : Tokens} {room : Nat} {progress : Progress}

def parserAt (tokens : Tokens) (progress : Progress) : Parser :=
  ⟨tokens.streamAt progress.index, progress.furthest⟩

/-- A tracker that breaks off where an action fails, with the same fault, or that ends with the
same value, and in either case with the same progress. -/
structure Mirrors (tokens : Tokens) (ended : Except (Break Fault) α × Progress)
    (reply : Except Fault α × Parser) : Prop where
  outcome : ended.1 = reply.1.mapError Break.refused
  within : ended.2.index ≤ tokens.list.length
  parser : reply.2 = parserAt tokens ended.2

theorem mirrors_run {reader : Reader α} {rule : Rule α}
    (follows : Reader.Follows Reader.Plainly tokens reader rule)
    (within : progress.index ≤ tokens.list.length) :
    Mirrors tokens (run reader tokens.toArray progress)
      (Parser.run rule (parserAt tokens progress)) := by
  have read := follows progress.index within
  unfold run Parser.run
  dsimp only [parserAt]
  generalize reader tokens.toArray progress.index = result at read
  generalize rule (tokens.streamAt progress.index) = reply at read
  cases read with
  | accepted value inside => exact ⟨rfl, inside, rfl⟩
  | refused shows =>
      rcases shows with ⟨rfl, inside, rfl⟩
      exact ⟨rfl, inside, rfl⟩

/-- An attempt breaks off for no other reason than its action does. -/
theorem attempt_eq {action : Tracker α} {step : Action α}
    (within : progress.index ≤ tokens.list.length)
    (mirrors : Mirrors tokens (action tokens.toArray progress)
      (step (parserAt tokens progress))) :
    ∃ found after, attempt action tokens.toArray progress = (.ok found, after) ∧
      (parserAt tokens progress).attempt step = (found, parserAt tokens after) ∧
      after.index ≤ tokens.list.length := by
  rcases mirrors with ⟨outcome, inside, parser⟩
  unfold Parser.attempt
  cases ended : action tokens.toArray progress with
  | mk result stopped =>
      cases replied : step (parserAt tokens progress) with
      | mk reply last =>
          rw [ended, replied] at outcome parser
          rw [ended] at inside
          dsimp only at outcome inside parser
          subst parser
          cases reply with
          | ok value =>
              refine ⟨some value, stopped, ?_, rfl, inside⟩
              rw [attempt, bind_state]
              exact handle_ok (bind_ok (ended.trans (by rw [outcome]; rfl)))
          | error fault =>
              refine ⟨none, ⟨progress.index,
                Refusal.further stopped.furthest ⟨stopped.index, fault⟩⟩, ?_, ?_, within⟩
              · rw [attempt, bind_state]
                exact handle_error (bind_error (ended.trans (by rw [outcome]; rfl)))
              · dsimp only
                rw [Parser.remember_eq]
                rfl

theorem attemptAny_eq {readers : List (Reader α)} {rules : List (Rule α)}
    (follow : List.Forall₂ (Reader.Follows Reader.Plainly tokens) readers rules)
    (within : progress.index ≤ tokens.list.length) :
    ∃ found after, attemptAny readers tokens.toArray progress = (.ok found, after) ∧
      Parser.attemptAny rules (parserAt tokens progress) = (found, parserAt tokens after) ∧
      after.index ≤ tokens.list.length := by
  induction follow generalizing progress with
  | nil => exact ⟨none, progress, rfl, rfl, within⟩
  | cons first _ induction =>
      rcases attempt_eq within (mirrors_run first within) with
        ⟨found, after, tried, attempted, inside⟩
      rw [attemptAny, Parser.attemptAny, bind_ok tried, attempted]
      cases found with
      | some value => exact ⟨some value, after, rfl, rfl, inside⟩
      | none => exact induction inside

/-! ## Sections -/

theorem index_lt_of_remaining {first last : Progress}
    (fewer : (parserAt tokens last).stream.remaining < (parserAt tokens first).stream.remaining) :
    first.index < last.index := by
  simp only [parserAt, TokenStream.remaining, Tokens.streamAt, List.length_drop] at fewer
  omega

theorem skipNewlines_eq (within : progress.index ≤ tokens.list.length) :
    ∃ after, run Reader.skipNewlines tokens.toArray progress = (.ok (), after) ∧
      (parserAt tokens progress).skipNewlines = parserAt tokens after ∧
      progress.index ≤ after.index ∧ after.index ≤ tokens.list.length := by
  rcases Reader.skipNewlines_eq within with ⟨next, further, inside, skipped, same⟩
  refine ⟨⟨next, progress.furthest⟩, ?_, ?_, further, inside⟩
  · rw [run, skipped]
  · rw [Parser.skipNewlines, parserAt, same]
    rfl

theorem instructions_eq (ample : Reader.Ample tokens room) (found : List Instruction)
    {progress : Progress} (within : progress.index ≤ tokens.list.length) :
    ∃ after, rounds left (instructionRound room) found tokens.toArray progress =
        (.ok (found ++ (parserAt tokens progress).readInstructions.1), after) ∧
      (parserAt tokens progress).readInstructions.2 = parserAt tokens after ∧
      after.index ≤ tokens.list.length := by
  rcases skipNewlines_eq within with ⟨start, skipped, same, onward, inside⟩
  rcases attemptAny_eq (Reader.follows_instructionForms ample) inside with
    ⟨tried, last, attempted, read, within'⟩
  rw [← same] at read
  cases tried with
  | none =>
      have done : instructionRound room found tokens.toArray progress =
          (.ok (.inr found), last) := by
        rw [instructionRound, bind_ok skipped, bind_ok attempted]
        rfl
      refine ⟨last, ?_, ?_, within'⟩
      · rw [rounds_done done, Parser.readInstructions_none read, List.append_nil]
      · rw [Parser.readInstructions_none read]
  | some next =>
      have round : instructionRound room found tokens.toArray progress =
          (.ok (.inl (found ++ [next])), last) := by
        rw [instructionRound, bind_ok skipped, bind_ok attempted]
        rfl
      have fewer := Parser.remaining_attemptAny_lt Rule.consumes_of_mem_instructionForms read
      rw [same] at fewer
      have passed := index_lt_of_remaining fewer
      rcases instructions_eq ample (found ++ [next]) within' with ⟨after, others, ends, inside'⟩
      refine ⟨after, ?_, ?_, inside'⟩
      · rw [rounds_again round (Reader.left_lt (by omega) within), others,
          Parser.readInstructions_some read]
        simp
      · rw [Parser.readInstructions_some read]
        exact ends
termination_by tokens.list.length - progress.index

theorem mirrors_readSection (ample : Reader.Ample tokens room)
    (within : progress.index ≤ tokens.list.length) :
    Mirrors tokens (readSection room tokens.toArray progress)
      (Parser.readSection (parserAt tokens progress)) := by
  rcases mirrors_run Reader.follows_sectionHeader within with ⟨outcome, inside, parser⟩
  unfold Parser.readSection
  cases ended : run Reader.sectionHeader tokens.toArray progress with
  | mk result start =>
      cases replied : Parser.run Rule.sectionHeader (parserAt tokens progress) with
      | mk reply last =>
          rw [ended, replied] at outcome parser
          rw [ended] at inside
          dsimp only at outcome inside parser
          subst parser outcome
          cases reply with
          | error fault =>
              rw [readSection, bind_error ended]
              exact ⟨rfl, inside, rfl⟩
          | ok name =>
              rcases instructions_eq ample [] inside with ⟨after, read, ends, within'⟩
              rw [readSection, bind_ok ended, bind_ok read]
              exact ⟨rfl, within', ends⟩

theorem current_eq (within : progress.index ≤ tokens.list.length) :
    run Reader.current tokens.toArray progress =
      (.ok (tokens.streamAt progress.index).current, progress) := by
  have found : Reader.current tokens.toArray progress.index = _ := Reader.tokenAt_eq within _
  rw [run, found]

theorem stop_eq (within : progress.index ≤ tokens.list.length) :
    ((stop : Tracker α) tokens.toArray progress).1 =
      .error (.refused (parserAt tokens progress).stoppingFault) := by
  have beyond : (parserAt tokens progress).furthestBeyond =
      (progress.furthest.filter (progress.index < ·.index)).map Refusal.fault :=
    Parser.furthestBeyond_eq_filter _
  rw [stop, bind_state, Parser.stoppingFault, beyond]
  cases progress.furthest.filter (progress.index < ·.index) with
  | some refusal => rfl
  | none =>
      dsimp only
      rw [bind_ok (current_eq within)]
      rfl

theorem sections_stuck (found : List Section) {last : Progress}
    (within : progress.index ≤ tokens.list.length) (inside : last.index ≤ tokens.list.length)
    (notEnd : (tokens.streamAt progress.index).current.kind ≠ .endOfInput)
    (attempted : attempt (readSection room) tokens.toArray progress = (.ok none, last)) :
    (rounds left (sectionRound room) found tokens.toArray progress).1 =
      .error (.refused (parserAt tokens last).stoppingFault) := by
  have stopped := stop_eq (α := List Section ⊕ List Section) inside
  have round : sectionRound room found tokens.toArray progress = stop tokens.toArray last := by
    rw [sectionRound, bind_ok (current_eq within), if_neg notEnd, bind_ok attempted]
  cases ended : (stop : Tracker (List Section ⊕ List Section)) tokens.toArray last with
  | mk result after =>
      rw [ended] at stopped round
      subst stopped
      rw [rounds_error round]

theorem sections_eq (ample : Reader.Ample tokens room) (found : List Section)
    {progress : Progress} {parser : Parser} (within : progress.index ≤ tokens.list.length)
    (skipped : parser.skipNewlines = parserAt tokens progress) :
    (rounds left (sectionRound room) found tokens.toArray progress).1 =
      (parser.readSections.1.map (found ++ ·)).mapError Break.refused := by
  have stream : parser.skipNewlines.stream = tokens.streamAt progress.index := by
    rw [skipped]
    rfl
  by_cases atEnd : (tokens.streamAt progress.index).current.kind = .endOfInput
  · have done : sectionRound room found tokens.toArray progress = (.ok (.inr found), progress) := by
      rw [sectionRound, bind_ok (current_eq within), if_pos atEnd]
      rfl
    rw [rounds_done done, Parser.readSections_nil (stream ▸ atEnd)]
    simp [Except.map, Except.mapError]
  rcases attempt_eq within (mirrors_readSection ample within) with
    ⟨tried, last, attempted, read, within'⟩
  rw [← skipped] at read
  cases tried with
  | none =>
      rw [sections_stuck found within within' atEnd attempted,
        Parser.readSections_failed (stream ▸ atEnd) read]
      rfl
  | some next =>
      rcases skipNewlines_eq within' with ⟨start, passed, same, onward, inside⟩
      have round : sectionRound room found tokens.toArray progress =
          (.ok (.inl (found ++ [next])), start) := by
        rw [sectionRound, bind_ok (current_eq within), if_neg atEnd, bind_ok attempted]
        exact bind_ok passed
      have accepted := Parser.attempt_readSection.1 read
      have fewer := Parser.remaining_readSection_lt accepted
      rw [skipped] at fewer
      have further := index_lt_of_remaining fewer
      rw [rounds_again round (Reader.left_lt (by omega) within),
        sections_eq ample (found ++ [next]) inside same,
        Parser.readSections_cons (stream ▸ atEnd) accepted]
      cases (parserAt tokens last).readSections.1 with
      | ok others => simp [Except.map, Except.mapError]
      | error fault => rfl
termination_by tokens.list.length - progress.index

theorem readSections_eq (ample : Reader.Ample tokens room) :
    (readSections room tokens.toArray ⟨0, none⟩).1 =
      (Parser.start tokens).readSections.1.mapError Break.refused := by
  have first : (⟨0, none⟩ : Progress).index ≤ tokens.list.length := Nat.zero_le _
  rcases skipNewlines_eq first with ⟨start, skipped, same, _, within⟩
  have read : readSections room tokens.toArray ⟨0, none⟩ =
      rounds left (sectionRound room) [] tokens.toArray start := bind_ok skipped
  rw [read, sections_eq ample [] within same]
  change _ = (parserAt tokens ⟨0, none⟩).readSections.1.mapError Break.refused
  cases (parserAt tokens ⟨0, none⟩).readSections.1 <;> rfl

end Tracker

theorem readTokens_eq {tokens : Tokens} {room : Nat} (ample : Reader.Ample tokens room) :
    readTokens room tokens.toList =
      (Parser.start tokens).readSections.1.mapError Break.refused :=
  Tracker.readSections_eq ample

/-! ## Texts -/

variable {text : String} {tokens : Tokens}

theorem compile_of_refused {error : LexicalError} (refused : Tokens.ofText text = .error error)
    (room : Nat) (file : Path) :
    compile room file text = .error (.refused (error.diagnostic file text)) := by
  have tokenized : (Scanner.tokenize text.toList ⟨0, .start⟩).1 = .error (.refused error) :=
    (Scanner.tokenize_eq text).trans (by rw [refused])
  simp only [compile, tokenized, Break.map]

theorem compile_of_lexed (lexed : Tokens.ofText text = .ok tokens) (room : Nat) (file : Path) :
    compile room file text =
      ((readTokens room tokens.toList).map (assemble file)).mapError
        (·.map (·.diagnostic file text)) := by
  have tokenized : (Scanner.tokenize text.toList ⟨0, .start⟩).1 = .ok tokens.toList :=
    (Scanner.tokenize_eq text).trans (by rw [lexed])
  cases read : readTokens room tokens.toList with
  | ok sections => simp only [compile, tokenized, read, Except.map, Except.mapError]
  | error broken => simp only [compile, tokenized, read, Except.map, Except.mapError]

end EventScript.Guarded
