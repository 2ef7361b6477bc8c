import EventScript.Proofs.ReachedStatements

/-! Which refusal is reported. A parser never forgets a refusal, but those of statements that
were accepted after all lie behind it; so where it stops, the furthest refusal beyond
that place is one of the statement that stands there. -/

namespace EventScript

open TokenStream

/-! ## Furthest refusals -/

namespace Refusal

/-- The first of those that got furthest. -/
def IsFurthest (refusals : List Refusal) (furthest : Refusal) : Prop :=
  ∃ before after, refusals = before ++ furthest :: after ∧
    (∀ refusal ∈ before, refusal.index < furthest.index) ∧
    ∀ refusal ∈ after, refusal.index ≤ furthest.index

namespace IsFurthest

variable {refusals : List Refusal} {furthest first second : Refusal}

theorem mem (isFurthest : IsFurthest refusals furthest) : furthest ∈ refusals := by
  rcases isFurthest with ⟨before, after, rfl, _, _⟩
  simp

theorem le (isFurthest : IsFurthest refusals furthest) :
    ∀ refusal ∈ refusals, refusal.index ≤ furthest.index := by
  rcases isFurthest with ⟨before, after, rfl, less, atMost⟩
  simp only [List.forall_mem_append, List.forall_mem_cons]
  exact ⟨fun refusal member => Nat.le_of_lt (less refusal member), Nat.le_refl _, atMost⟩

theorem cons (less : first.index < furthest.index) (isFurthest : IsFurthest refusals furthest) :
    IsFurthest (first :: refusals) furthest := by
  rcases isFurthest with ⟨before, after, rfl, beforeLess, atMost⟩
  exact ⟨first :: before, after, rfl, List.forall_mem_cons.2 ⟨less, beforeLess⟩, atMost⟩

theorem insert (notFurther : second.index ≤ first.index)
    (isFurthest : IsFurthest (first :: refusals) furthest) :
    IsFurthest (first :: second :: refusals) furthest := by
  rcases isFurthest with ⟨before, after, same, less, atMost⟩
  cases before with
  | nil =>
      injection same with sameFirst sameOthers
      subst sameFirst sameOthers
      exact ⟨[], second :: refusals, rfl, by simp, List.forall_mem_cons.2 ⟨notFurther, atMost⟩⟩
  | cons head others =>
      injection same with sameFirst sameOthers
      subst sameFirst sameOthers
      have firstLess := less first (by simp)
      refine ⟨first :: second :: others, after, rfl, ?_, atMost⟩
      simp only [List.forall_mem_cons] at less ⊢
      exact ⟨firstLess, Nat.lt_of_le_of_lt notFurther firstLess, less.2⟩

end IsFurthest

theorem mem_further {earlier : Option Refusal} {second refusal : Refusal}
    (member : refusal ∈ further earlier second) : refusal ∈ earlier ∨ refusal = second := by
  unfold further at member
  split at member
  · exact .inr (Option.mem_some_iff.1 member).symm
  · split at member
    · exact .inr (Option.mem_some_iff.1 member).symm
    · exact .inl member

theorem mem_foldl_further {earlier : Option Refusal} {refusals : List Refusal} {refusal : Refusal}
    (member : refusal ∈ refusals.foldl further earlier) : refusal ∈ earlier ∨ refusal ∈ refusals := by
  induction refusals generalizing earlier with
  | nil => exact .inl member
  | cons first others induction =>
      rcases induction member with remembered | later
      · rcases mem_further remembered with old | rfl
        · exact .inl old
        · exact .inr (by simp)
      · exact .inr (by simp [later])

theorem isFurthest_foldl (first : Refusal) (refusals : List Refusal) :
    ∃ furthest, refusals.foldl further (some first) = some furthest ∧
      IsFurthest (first :: refusals) furthest := by
  induction refusals generalizing first with
  | nil => exact ⟨first, rfl, [], [], rfl, by simp, by simp⟩
  | cons second others induction =>
      rw [List.foldl_cons]
      by_cases less : first.index < second.index
      · rcases induction second with ⟨furthest, folded, isFurthest⟩
        refine ⟨furthest, ?_, isFurthest.cons (Nat.lt_of_lt_of_le less (isFurthest.le _ (by simp)))⟩
        rw [further, if_pos less, folded]
      · rcases induction first with ⟨furthest, folded, isFurthest⟩
        refine ⟨furthest, ?_, isFurthest.insert (Nat.le_of_not_lt less)⟩
        rw [further, if_neg less, folded]

/-- What was remembered before counts for nothing if it does not lie beyond a place and only
refusals beyond it are asked for. -/
theorem filter_foldl_further {earlier : Option Refusal} {index : Nat}
    (stale : ∀ refusal ∈ earlier, refusal.index ≤ index) {refusals : List Refusal}
    (nonempty : refusals ≠ []) :
    ∃ furthest, IsFurthest refusals furthest ∧
      (refusals.foldl further earlier).filter (index < ·.index) =
        (some furthest).filter (index < ·.index) := by
  rcases List.exists_cons_of_ne_nil nonempty with ⟨first, others, rfl⟩
  rcases isFurthest_foldl first others with ⟨own, ownFolded, ownFurthest⟩
  cases earlier with
  | none => exact ⟨own, ownFurthest, congrArg (Option.filter _) ownFolded⟩
  | some old =>
      have oldStale := stale old rfl
      rcases isFurthest_foldl old (first :: others) with ⟨furthest, folded, isFurthest⟩
      rw [folded]
      rcases isFurthest with ⟨before, after, same, less, atMost⟩
      cases before with
      | nil =>
          injection same with sameOld sameOthers
          subst sameOld sameOthers
          have ownStale := Nat.le_trans (atMost own ownFurthest.mem) oldStale
          refine ⟨own, ownFurthest, ?_⟩
          rw [Option.filter_some_neg (by simpa using oldStale),
            Option.filter_some_neg (by simpa using ownStale)]
      | cons head before =>
          injection same with sameOld sameOthers
          rw [sameOthers]
          exact ⟨furthest, ⟨before, after, rfl, fun refusal member => less refusal (by simp [member]),
            atMost⟩, rfl⟩

end Refusal

/-! ## Attempts -/

namespace Rule

variable {α : Type}

def refusal? (place : TokenStream) (rule : Rule α) : Option Refusal :=
  match rule place with
  | .accepted _ _ => none
  | .refused fault rest => some ⟨rest.index, fault⟩

theorem refusal?_eq_some {rule : Rule α} {place : TokenStream} {refusal : Refusal} :
    rule.refusal? place = some refusal ↔
      ∃ rest, rule place = .refused refusal.fault rest ∧ refusal.index = rest.index := by
  unfold refusal?
  cases reply : rule place with
  | accepted value rest => simp
  | refused fault rest =>
      cases refusal with
      | mk index fault' =>
          simp only [Option.some.injEq, Refusal.mk.injEq, Reply.refused.injEq]
          constructor
          · intro same
            exact ⟨rest, ⟨same.2, rfl⟩, same.1.symm⟩
          · intro holds
            rcases holds with ⟨_, ⟨rfl, rfl⟩, rfl⟩
            exact ⟨rfl, rfl⟩

theorem exists_refusal? {rule : Rule α} {place : TokenStream}
    (refuses : ∀ value rest, rule place ≠ .accepted value rest) :
    ∃ refusal, rule.refusal? place = some refusal := by
  unfold refusal?
  cases reply : rule place with
  | accepted value rest => exact absurd reply (refuses value rest)
  | refused fault rest => exact ⟨_, rfl⟩

end Rule

namespace Parser

variable {α : Type}

theorem remember_eq (refusal : Refusal) (parser : Parser) :
    parser.remember refusal =
      { parser with furthest := Refusal.further parser.furthest refusal } := by
  unfold remember Refusal.further
  cases parser with
  | mk stream furthest =>
      cases furthest with
      | none => rfl
      | some earlier =>
          dsimp only
          split <;> rfl

theorem attempt_run_none {rule : Rule α} {parser after : Parser}
    (tried : parser.attempt (run rule) = (none, after)) :
    ∃ refusal, rule.refusal? parser.stream = some refusal ∧
      after = { parser with furthest := Refusal.further parser.furthest refusal } := by
  unfold attempt run at tried
  cases replied : rule parser.stream with
  | accepted value rest => simp [replied] at tried
  | refused fault rest =>
      simp only [replied, remember_eq, Prod.mk.injEq, true_and] at tried
      exact ⟨⟨rest.index, fault⟩, by simp [Rule.refusal?, replied], tried.symm⟩

theorem furthest_attempt_run_some {rule : Rule α} {parser after : Parser} {value : α}
    (tried : parser.attempt (run rule) = (some value, after)) :
    after.furthest = parser.furthest := by
  unfold attempt run at tried
  cases replied : rule parser.stream with
  | accepted result rest =>
      simp only [replied, Prod.mk.injEq] at tried
      exact tried.2 ▸ rfl
  | refused fault rest => simp [replied] at tried

theorem furthest_attemptAny_none {rules : List (Rule α)} {parser after : Parser}
    (failed : attemptAny rules parser = (none, after)) :
    after.furthest =
        (rules.filterMap (Rule.refusal? parser.stream)).foldl Refusal.further parser.furthest ∧
      ∀ rule ∈ rules, ∀ value rest, rule parser.stream ≠ .accepted value rest := by
  induction rules generalizing parser with
  | nil =>
      simp only [attemptAny, Prod.mk.injEq, true_and] at failed
      simp [failed]
  | cons rule others induction =>
      unfold attemptAny at failed
      split at failed
      · simp at failed
      · next back tried =>
          rcases attempt_run_none tried with ⟨refusal, refused, rfl⟩
          rcases induction failed with ⟨folded, othersRefused⟩
          refine ⟨?_, List.forall_mem_cons.2 ⟨fun value rest accepted => ?_, othersRefused⟩⟩
          · rw [folded, List.filterMap_cons_some refused, List.foldl_cons]
          · simp [Rule.refusal?, accepted] at refused

theorem furthest_attemptAny_some {rules : List (Rule α)} {parser after : Parser} {value : α}
    (tried : attemptAny rules parser = (some value, after)) :
    ∀ refusal ∈ after.furthest, refusal ∈ parser.furthest ∨
      ∃ rule ∈ rules, rule.refusal? parser.stream = some refusal := by
  induction rules generalizing parser with
  | nil => simp [attemptAny] at tried
  | cons rule others induction =>
      unfold attemptAny at tried
      split at tried
      · next found =>
          injection tried with _ sameAfter
          subst sameAfter
          rw [furthest_attempt_run_some found]
          exact fun refusal member => .inl member
      · next back found =>
          rcases attempt_run_none found with ⟨own, refused, rfl⟩
          intro refusal member
          rcases induction tried refusal member with remembered | ⟨other, listed, refusedLater⟩
          · rcases Refusal.mem_further remembered with old | rfl
            · exact .inl old
            · exact .inr ⟨rule, by simp, refused⟩
          · exact .inr ⟨other, by simp [listed], refusedLater⟩

end Parser

/-! ## Refusals of accepted statements -/

namespace Instruction

/-- The sign behind the first argument of a talk tells whether it offers choices. -/
def signBehindText : List Choice → TokenKind
  | [] => .rightParen
  | _ :: _ => .comma

theorem Spans.talk_opened {textId : String} {choices : List Choice} {before after : TokenStream}
    (spans : (talk textId choices).Spans before after) :
    ∃ opened middle, Rule.openArguments "talk" before = .accepted () opened ∧
      Rule.name opened = .accepted textId middle ∧
      middle.skipNewlines.current.kind = signBehindText choices ∧
      middle.skipNewlines.index ≤ after.index := by
  rcases spans with ⟨word, behindWord, closed, lineEnd, isWord, wordPassed, pieces, _, endPassed⟩
  have split : ∃ others, (talk textId choices).pieces =
      .sign .leftParen :: .name textId :: .sign (signBehindText choices) :: others := by
    cases choices with
    | nil => exact ⟨_, rfl⟩
    | cons first others =>
        rw [Instruction.pieces, Rule.pieces_talkWithChoices]
        exact ⟨_, rfl⟩
  have plain : signBehindText choices ≠ .endOfInput ∧ signBehindText choices ≠ .newline := by
    cases choices <;> simp [signBehindText]
  rcases split with ⟨others, same⟩
  simp only [same, Piece.spanAll_cons] at pieces
  rcases pieces with ⟨opened, opening, middle, name, _, sign, rest⟩
  rcases (Rule.spans_sign_iff _ plain.1 plain.2).1 sign with ⟨isSign, rfl⟩
  rcases rest.spelled with ⟨tokens, passed, _⟩
  refine ⟨opened, middle, Rule.openArguments_accepted.2 ⟨_, _, isWord, wordPassed, opening⟩,
    Rule.name_accepted.2 name, isSign, ?_⟩
  have notEnd : middle.skipNewlines.current.kind ≠ .endOfInput := by simp [isSign, plain.1]
  exact Nat.le_trans (passed_current notEnd).index_le (passed.trans endPassed).index_le

end Instruction

namespace Rule

variable {before after rest : TokenStream} {fault : Fault}

/-- Where one form of a talk stands, the other gets no further than its end. -/
theorem index_le_of_talk_refused {textId textId' : String} {choices choices' : List Choice}
    (spans : (Instruction.talk textId choices).Spans before after)
    (other : Instruction.signBehindText choices ≠ Instruction.signBehindText choices')
    (refused : formOf (.talk textId' choices') before = .refused fault rest) :
    rest.index ≤ after.index := by
  rcases spans.talk_opened with ⟨opened, middle, opens, named, isSign, le⟩
  have stopped : middle.skipNewlines = rest := by
    cases choices' with
    | nil =>
        have notClosing : middle.skipNewlines.current.kind ≠ .rightParen := isSign ▸ other
        simp [formOf, talk, bind_apply, opens, named, closeArguments, skipNewlines, expect, token,
          notClosing] at refused
        exact refused.2
    | cons first others =>
        have notComma : middle.skipNewlines.current.kind ≠ .comma := isSign ▸ other
        simp [formOf, talkWithChoices, bind_apply, opens, named, comma, argument, skipNewlines,
          expect, token, notComma] at refused
        exact refused.2
  exact stopped ▸ le

theorem index_le_of_refused {instruction : Instruction} (spans : instruction.Spans before after)
    {rule : Rule Instruction} (listed : rule ∈ instructionForms)
    (refused : rule before = .refused fault rest) : rest.index ≤ after.index := by
  rcases exists_formOf_of_mem listed with ⟨sample, isForm⟩
  have accepted := formOf_accepted.2 spans
  by_cases found : before.current.isWord sample.kind = true
  · have sameKind : sample.kind = instruction.kind :=
      (kind_of_isWord found).2.symm.trans (kind_of_isWord spans.isWord).2
    have notSame : formOf sample ≠ formOf instruction := by
      intro same
      rw [isForm, same, accepted] at refused
      contradiction
    cases sample with
    | talk textId choices =>
        cases instruction with
        | talk textId' choices' =>
            refine index_le_of_talk_refused spans ?_ (isForm ▸ refused)
            cases choices <;> cases choices' <;>
              first | exact absurd rfl notSame | simp [Instruction.signBehindText]
        | _ => simp [Instruction.kind] at sameKind
    | _ => exact absurd (Instruction.formOf_eq_of_kind sameKind (by simp)) notSame
  · rw [isForm, formOf_eq_form, form_refused (by simpa using found)] at refused
    injection refused with _ same
    rcases spans.passed with ⟨tokens, passed⟩
    exact same ▸ passed.index_le

end Rule

namespace Parser

def Settled (parser : Parser) : Prop :=
  ∀ refusal ∈ parser.furthest, refusal.index ≤ parser.stream.index

theorem Settled.skipNewlines {parser : Parser} (settled : parser.Settled) :
    parser.skipNewlines.Settled := by
  intro refusal member
  exact Nat.le_trans (settled refusal member) (Nat.le_add_right _ _)

/-- Whatever was tried in vain for an accepted instruction is behind the parser now. -/
theorem settled_readInstruction {parser after : Parser} {instruction : Instruction}
    (settled : parser.Settled) (read : parser.readInstruction = (some instruction, after)) :
    after.Settled := by
  have spans := spans_of_readInstruction read
  rcases spans.passed with ⟨tokens, passed⟩
  intro refusal member
  rcases furthest_attemptAny_some read refusal member with remembered | ⟨rule, listed, refused⟩
  · exact Nat.le_trans (settled refusal remembered) passed.index_le
  · rcases Rule.refusal?_eq_some.1 refused with ⟨rest, reply, index⟩
    exact index ▸ Rule.index_le_of_refused spans listed reply

end Parser

/-! ## Where a parser stops -/

namespace Stage

def formRefusals (stage : Stage) : List Refusal :=
  if stage.sections = [] then [] else Rule.instructionForms.filterMap (Rule.refusal? stage.place)

def refusals (stage : Stage) : List Refusal :=
  stage.formRefusals ++ (Rule.sectionHeader.refusal? stage.place).toList

def faultBeyond (stage : Stage) (refusal : Refusal) : Fault :=
  if stage.place.index < refusal.index then refusal.fault
  else ⟨.expectedStatement, stage.place.current⟩

/-- No instruction begins with a marker, so at a header every form gives up at once. -/
theorem index_of_formRefusals {stage : Stage} {title : String} {rest : TokenStream}
    (accepted : Rule.sectionHeader stage.place = .accepted title rest) :
    ∀ refusal ∈ stage.formRefusals, refusal.index = stage.place.index := by
  rcases Parser.sectionHeader_accepted_iff_passed.1 accepted with
    ⟨_, _, _, isMarker, _, _, _, passed, _⟩
  have current := current_eq passed.ahead
  intro refusal listed
  unfold formRefusals at listed
  split at listed
  · contradiction
  · rcases List.mem_filterMap.1 listed with ⟨form, isForm, refused⟩
    rcases Rule.exists_formOf_of_mem isForm with ⟨instruction, rfl⟩
    have noWord : stage.place.current.isWord instruction.kind = false := by
      simp [Token.isWord, current, isMarker]
    rw [Rule.formOf_eq_form, Rule.refusal?, Rule.form_refused noWord] at refused
    injection refused with same
    exact same ▸ rfl

end Stage

namespace Parser

/-- A parser between sections: at a statement that is no instruction of the section before, if
there is one. What it remembers are the refusals of that statement, and older ones that
do not lie beyond it. -/
structure Between (stage : Stage) (parser : Parser) : Prop where
  stream : parser.stream = stage.place
  notBreak : parser.stream.current.kind ≠ .newline
  notInstruction : stage.sections ≠ [] → ∀ form ∈ Rule.instructionForms, ∀ instruction rest,
    form stage.place ≠ .accepted instruction rest
  remembered : ∃ older : Option Refusal, (∀ refusal ∈ older, refusal.index ≤ stage.place.index) ∧
    parser.furthest = stage.formRefusals.foldl Refusal.further older

theorem between_start (tokens : Tokens) :
    Between (.start tokens.stream) (start tokens).skipNewlines where
  stream := rfl
  notBreak := current_skipNewlines _
  notInstruction := by simp [Stage.start]
  remembered := ⟨none, by simp, rfl⟩

theorem Between.skipNewlines_eq {stage : Stage} {parser : Parser}
    (between : Between stage parser) : parser.skipNewlines = parser := by
  have same : parser.stream.skipNewlines = parser.stream :=
    TokenStream.skipNewlines_eq breaks_nil (.nothing _) between.notBreak
  rw [skipNewlines, same]

theorem between_readInstructions {stream : TokenStream} (parser : Parser)
    (settled : parser.Settled) {sections : List Section} {last : Section}
    (reached : Stage.Reached stream ⟨sections ++ [last], parser.stream.skipNewlines⟩) :
    ∃ stage, Stage.Reached stream stage ∧ Between stage parser.readInstructions.2 ∧
      stage.sections = sections ++
        [{ last with instructions := last.instructions ++ parser.readInstructions.1 }] := by
  cases read : parser.skipNewlines.readInstruction with
  | mk found after =>
      cases found with
      | none =>
          rcases furthest_attemptAny_none read with ⟨folded, refused⟩
          have same : after.stream = parser.skipNewlines.stream := attemptAny_none read
          rw [readInstructions_none read]
          refine ⟨_, reached, ⟨same, same ▸ current_skipNewlines parser.stream, fun _ => refused, _,
            settled.skipNewlines, ?_⟩, by simp⟩
          rw [folded, Stage.formRefusals, if_neg (by simp)]
          rfl
      | some instruction =>
          have fewer : after.stream.remaining < parser.stream.remaining :=
            Nat.lt_of_lt_of_le
              (remaining_attemptAny_lt Rule.consumes_of_mem_instructionForms read)
              parser.stream.remaining_skipNewlines_le
          have passed := reached.tail (.instruction (by simp) (spans_of_readInstruction read))
          rw [Section.addInstruction_append_singleton] at passed
          rcases between_readInstructions after (settled_readInstruction settled.skipNewlines read)
            passed with ⟨stage, stageReached, between, same⟩
          rw [readInstructions_some read]
          exact ⟨stage, stageReached, between, by simpa using same⟩
termination_by parser.stream.remaining

theorem between_of_readSection {stream : TokenStream} {stage : Stage} {parser after : Parser}
    {found : Section} (reached : Stage.Reached stream stage) (between : Between stage parser)
    (read : readSection parser = (.ok found, after)) :
    ∃ next, Stage.Reached stream next ∧ Between next after ∧
      next.sections = stage.sections ++ [found] := by
  unfold readSection run at read
  rw [between.stream] at read
  cases header : Rule.sectionHeader stage.place with
  | refused fault rest => simp [header] at read
  | accepted title rest =>
      simp only [header, Prod.mk.injEq, Except.ok.injEq] at read
      rcases sectionHeader_accepted_iff_passed.1 header with ⟨_, _, _, _, _, _, _, passed, _⟩
      rcases between.remembered with ⟨older, stale, folded⟩
      have settled : Settled { parser with stream := rest } := by
        intro refusal member
        refine Nat.le_trans ?_ passed.index_le
        rcases Refusal.mem_foldl_further (folded ▸ member) with old | listed
        · exact stale refusal old
        · exact Nat.le_of_eq (Stage.index_of_formRefusals header refusal listed)
      rcases between_readInstructions _ settled (reached.tail (.header header)) with
        ⟨next, nextReached, nextBetween, same⟩
      rw [← read.1, ← read.2]
      exact ⟨next, nextReached, nextBetween, same⟩

theorem furthestBeyond_eq_filter (parser : Parser) : parser.furthestBeyond =
    (parser.furthest.filter (parser.stream.index < ·.index)).map Refusal.fault := by
  unfold furthestBeyond
  cases parser.furthest with
  | none => rfl
  | some refusal =>
      dsimp only
      split
      · next beyond => simp [Option.filter, beyond]
      · next notBeyond => simp [Option.filter, notBeyond]

theorem stoppingFault_eq {parser : Parser} {stage : Stage} {refusal : Refusal}
    (stream : parser.stream = stage.place)
    (filtered : parser.furthest.filter (stage.place.index < ·.index) =
      (some refusal).filter (stage.place.index < ·.index)) :
    parser.stoppingFault = stage.faultBeyond refusal := by
  rw [stoppingFault, furthestBeyond_eq_filter, stream, filtered, Stage.faultBeyond]
  by_cases beyond : stage.place.index < refusal.index
  · simp [Option.filter, beyond]
  · simp [Option.filter, beyond]

theorem stoppingFault_of_attempt {stage : Stage} {parser after : Parser}
    (between : Between stage parser) (failed : parser.attempt readSection = (none, after)) :
    (∀ title rest, Rule.sectionHeader stage.place ≠ .accepted title rest) ∧
      ∃ refusal, Refusal.IsFurthest stage.refusals refusal ∧
        after.stoppingFault = stage.faultBeyond refusal := by
  unfold attempt readSection run at failed
  rw [between.stream] at failed
  cases header : Rule.sectionHeader stage.place with
  | accepted title rest => simp [header] at failed
  | refused fault rest =>
      simp only [header, remember_eq, Prod.mk.injEq, true_and] at failed
      refine ⟨by simp, ?_⟩
      have refused : (Rule.sectionHeader.refusal? stage.place).toList = [⟨rest.index, fault⟩] := by
        simp [Rule.refusal?, header]
      rcases between.remembered with ⟨older, stale, folded⟩
      have nonempty : stage.refusals ≠ [] := by
        simp [Stage.refusals, refused]
      rcases Refusal.filter_foldl_further stale nonempty with ⟨refusal, furthest, filtered⟩
      refine ⟨refusal, furthest, ?_⟩
      rw [Stage.refusals, refused, List.foldl_append, ← folded] at filtered
      exact failed ▸ stoppingFault_eq rfl filtered

/-- How a parser ends at its last stage: with the sections up to there at the end of input, and
otherwise with a refusal of the statement that is stuck there. -/
def EndsAt (stage : Stage) : Except Fault (List Section) → Prop
  | .ok sections => stage.sections = sections ∧ stage.Finished
  | .error fault => stage.Stuck ∧
      ∃ refusal, Refusal.IsFurthest stage.refusals refusal ∧ fault = stage.faultBeyond refusal

theorem exists_stage_of_readSections (parser : Parser) {stream : TokenStream} {stage : Stage}
    (reached : Stage.Reached stream stage) (between : Between stage parser.skipNewlines) :
    ∃ last, Stage.Reached stream last ∧
      EndsAt last (parser.readSections.1.map (stage.sections ++ ·)) := by
  by_cases atEnd : parser.skipNewlines.stream.current.kind = .endOfInput
  · have finished : stage.Finished := by
      rw [Stage.Finished, ← between.stream]
      exact atEnd
    rw [readSections_nil atEnd]
    exact ⟨stage, reached, by simp, finished⟩
  · cases tried : parser.skipNewlines.attempt readSection with
    | mk found after =>
        cases found with
        | none =>
            rcases stoppingFault_of_attempt between tried with ⟨notHeader, refusal, furthest, same⟩
            rw [readSections_failed atEnd tried, same]
            exact ⟨stage, reached, ⟨between.stream ▸ atEnd, between.notInstruction, notHeader⟩,
              refusal, furthest, rfl⟩
        | some found =>
            have read := attempt_readSection.1 tried
            rcases between_of_readSection reached between read with
              ⟨next, nextReached, behind, sections⟩
            have fewer := remaining_readSection_lt read
            have skippedFewer := parser.stream.remaining_skipNewlines_le
            rcases exists_stage_of_readSections after nextReached
              (behind.skipNewlines_eq.symm ▸ behind) with ⟨last, lastReached, ends⟩
            refine ⟨last, lastReached, ?_⟩
            rw [readSections_cons atEnd read]
            rw [sections] at ends
            cases others : after.readSections.1 with
            | ok rest => simpa [others, Except.map] using ends
            | error fault => simpa [others, Except.map] using ends
termination_by parser.stream.remaining
decreasing_by
  exact Nat.lt_of_lt_of_le fewer skippedFewer

theorem exists_stage_of_start (tokens : Tokens) :
    ∃ last, Stage.Reached tokens.stream last ∧ EndsAt last (start tokens).readSections.1 := by
  rcases exists_stage_of_readSections (start tokens) .refl (between_start tokens) with
    ⟨last, reached, ends⟩
  refine ⟨last, reached, ?_⟩
  cases replied : (start tokens).readSections.1 with
  | ok sections => simpa [replied, Except.map, Stage.start] using ends
  | error fault => simpa [replied, Except.map] using ends

theorem readSections_eq_ok_iff_reached {tokens : Tokens} {sections : List Section} :
    (start tokens).readSections.1 = .ok sections ↔
      ∃ stage, Stage.Reached tokens.stream stage ∧ stage.Finished ∧ stage.sections = sections := by
  rcases exists_stage_of_start tokens with ⟨last, reached, ends⟩
  constructor
  · intro accepted
    rw [accepted] at ends
    exact ⟨last, reached, ends.2, ends.1⟩
  · intro holds
    rcases holds with ⟨stage, otherReached, finished, same⟩
    cases replied : (start tokens).readSections.1 with
    | ok others =>
        rw [replied] at ends
        have sameStage := otherReached.eq_of_final reached finished.final ends.2.final
        rw [← same, sameStage, ends.1]
    | error fault =>
        rw [replied] at ends
        exact absurd finished (reached.not_finished ends.1 otherReached)

theorem stuck_of_readSections {tokens : Tokens} {fault : Fault}
    (failed : (start tokens).readSections.1 = .error fault) :
    ∃ stage refusal, Stage.Reached tokens.stream stage ∧ stage.Stuck ∧
      Refusal.IsFurthest stage.refusals refusal ∧ fault = stage.faultBeyond refusal := by
  rcases exists_stage_of_start tokens with ⟨last, reached, ends⟩
  rw [failed] at ends
  rcases ends with ⟨stuck, refusal, furthest, same⟩
  exact ⟨last, refusal, reached, stuck, furthest, same⟩

/-- If tokens are no script, then exactly one of their statements is neither an instruction of a
section nor a header. What is reported is the first of its refusals that got furthest, if
that lies beyond the statement's first token, and otherwise that a statement was expected. -/
theorem reported_of_readSections {tokens : Tokens} {fault : Fault}
    (failed : (start tokens).readSections.1 = .error fault) :
    ∃ stage refusal, Stage.Reached tokens.stream stage ∧ stage.Stuck ∧
      (∀ other, Stage.Reached tokens.stream other → other.Stuck → other = stage) ∧
      Refusal.IsFurthest stage.refusals refusal ∧
      fault = if stage.place.index < refusal.index then refusal.fault
        else ⟨.expectedStatement, stage.place.current⟩ := by
  rcases stuck_of_readSections failed with ⟨stage, refusal, reached, stuck, furthest, same⟩
  refine ⟨stage, refusal, reached, stuck, fun other otherReached otherStuck => ?_, furthest, same⟩
  exact otherReached.eq_of_final reached otherStuck.final stuck.final

theorem reported_unclosed_jump : ∃ tokens,
    Tokens.ofText "--- a\ntalk(x)\njump(b\n--- c\n" = .ok tokens ∧
    (start tokens).readSections.1 =
      .error ⟨.expected .rightParen, ⟨.sectionMarker, "---", ⟨4, 1⟩⟩⟩ ∧
    ∃ stage refusal, Stage.Reached tokens.stream stage ∧ stage.Stuck ∧
      Refusal.IsFurthest stage.refusals refusal ∧
      ⟨.expected .rightParen, ⟨.sectionMarker, "---", ⟨4, 1⟩⟩⟩ = stage.faultBeyond refusal := by
  have lexed : Tokens.ofText "--- a\ntalk(x)\njump(b\n--- c\n" = .ok
      ⟨[⟨.sectionMarker, "---", ⟨1, 1⟩⟩, ⟨.identifier, "a", ⟨1, 5⟩⟩, ⟨.newline, "\n", ⟨1, 6⟩⟩,
        ⟨.identifier, "talk", ⟨2, 1⟩⟩, ⟨.leftParen, "(", ⟨2, 5⟩⟩, ⟨.identifier, "x", ⟨2, 6⟩⟩,
        ⟨.rightParen, ")", ⟨2, 7⟩⟩, ⟨.newline, "\n", ⟨2, 8⟩⟩,
        ⟨.identifier, "jump", ⟨3, 1⟩⟩, ⟨.leftParen, "(", ⟨3, 5⟩⟩, ⟨.identifier, "b", ⟨3, 6⟩⟩,
        ⟨.newline, "\n", ⟨3, 7⟩⟩, ⟨.sectionMarker, "---", ⟨4, 1⟩⟩, ⟨.identifier, "c", ⟨4, 5⟩⟩,
        ⟨.newline, "\n", ⟨4, 6⟩⟩], ⟨5, 1⟩⟩ := by decide +kernel
  have read : ∃ tokens, Tokens.ofText "--- a\ntalk(x)\njump(b\n--- c\n" = .ok tokens ∧
      (start tokens).readSections.1 =
        .error ⟨.expected .rightParen, ⟨.sectionMarker, "---", ⟨4, 1⟩⟩⟩ :=
    ⟨_, lexed, by decide +kernel⟩
  rcases read with ⟨tokens, lexed, failed⟩
  rcases reported_of_readSections failed with
    ⟨stage, refusal, reached, stuck, _, furthest, same⟩
  exact ⟨tokens, lexed, failed, stage, refusal, reached, stuck, furthest, same⟩

end Parser

end EventScript
