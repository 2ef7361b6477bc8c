import EventScript.Proofs.Lookahead

/-! Where a refused text goes wrong. The tokens before the reported one are the beginning of an
accepted text, and with the reported one they are not. -/

namespace EventScript

open TokenStream

/-! ## Places -/

namespace Position

def Before (first second : Position) : Prop :=
  first.line < second.line ∨ first.line = second.line ∧ first.column < second.column

variable {first second third : Position}

theorem Before.trans (left : first.Before second) (right : second.Before third) :
    first.Before third := by
  simp only [Before] at left right ⊢
  omega

theorem Before.ne (before : first.Before second) : first ≠ second := by
  intro same
  simp [same, Before] at before

theorem before_next (place : Position) (c : Char) : place.Before (place.next c) := by
  by_cases feed : c = '\n'
  · exact .inl (by simp [next, feed])
  · exact .inr (by simp [next, feed])

theorem before_after {passed : List Char} (nonempty : passed ≠ []) (place : Position) :
    place.Before (place.after passed) := by
  induction passed generalizing place with
  | nil => contradiction
  | cons c rest induction =>
      rw [after_cons]
      cases rest with
      | nil => exact before_next place c
      | cons d more => exact (before_next place c).trans (induction (by simp) _)

theorem Before.after (before : first.Before second) (passed : List Char) :
    first.Before (second.after passed) := by
  cases passed with
  | nil => exact before
  | cons c rest => exact before.trans (before_after (by simp) second)

end Position

namespace Scan

theorem before_locate {lexemes : List Lexeme} {blanks : List Char} {first place : Position}
    (before : first.Before place) :
    ∀ token ∈ locate place lexemes ++ [.atEnd (place.after (Lexeme.textOf lexemes ++ blanks))],
      first.Before token.place := by
  induction lexemes generalizing place with
  | nil => simpa [Token.atEnd] using before.after blanks
  | cons lexeme others induction =>
      have behind := induction (before.after (lexeme.blanks ++ lexeme.source))
      rw [← Position.after_append] at behind
      rw [locate_cons, List.cons_append, List.forall_mem_cons]
      refine ⟨before.after lexeme.blanks, ?_⟩
      simpa using behind

theorem pairwise_locate {lexemes : List Lexeme} (blanks : List Char) (place : Position)
    (sourced : ∀ lexeme ∈ lexemes, lexeme.source ≠ []) :
    List.Pairwise (fun first second : Token => first.place.Before second.place)
      (locate place lexemes ++ [.atEnd (place.after (Lexeme.textOf lexemes ++ blanks))]) := by
  induction lexemes generalizing place with
  | nil => simp
  | cons lexeme others induction =>
      rw [List.forall_mem_cons] at sourced
      have behind := induction (place.after (lexeme.blanks ++ lexeme.source)) sourced.2
      have before : (place.after lexeme.blanks).Before
          (place.after (lexeme.blanks ++ lexeme.source)) := by
        rw [Position.after_append]
        exact Position.before_after sourced.1 _
      have later := @before_locate others blanks _ _ before
      rw [← Position.after_append] at behind later
      rw [locate_cons, List.cons_append, List.pairwise_cons]
      simp only [Lexeme.textOf_cons, List.append_assoc] at behind later ⊢
      exact ⟨later, behind⟩

end Scan

namespace Tokens

variable {text : String} {tokens : Tokens}

theorem pairwise_of_ofText (lexed : ofText text = .ok tokens) :
    tokens.toList.Pairwise fun first second => first.place.Before second.place := by
  rcases Scan.row_of_read (list_of_ofText lexed).1 with ⟨row, spelled, blank⟩
  rw [ofText_of_row row blank spelled] at lexed
  injection lexed with same
  subst same
  refine Scan.pairwise_locate _ _ fun lexeme member => ?_
  rcases Lexeme.exists_standsBefore_of_row row lexeme member with ⟨_, stands⟩
  exact stands.source_ne_nil

theorem index_eq_of_place (lexed : ofText text = .ok tokens) {index index' : Nat}
    {token token' : Token} (found : tokens.toList[index]? = some token)
    (found' : tokens.toList[index']? = some token') (same : token.place = token'.place) :
    index = index' := by
  have pairwise := List.pairwise_iff_getElem.1 (pairwise_of_ofText lexed)
  rcases List.getElem?_eq_some_iff.1 found with ⟨inside, rfl⟩
  rcases List.getElem?_eq_some_iff.1 found' with ⟨inside', rfl⟩
  rcases Nat.lt_trichotomy index index' with less | equal | greater
  · exact absurd same (pairwise _ _ inside inside' less).ne
  · exact equal
  · exact absurd same.symm (pairwise _ _ inside' inside greater).ne

end Tokens

/-! ## Statements that are completed -/

namespace Stage

theorem Reached.notBreak {stream : TokenStream} {stage : Stage} (reached : Reached stream stage) :
    stage.place.current.kind ≠ .newline := by
  rcases Relation.ReflTransGen.cases_tail reached with same | ⟨before, _, passes⟩
  · exact same ▸ current_skipNewlines stream
  · cases passes <;> exact current_skipNewlines _

structure Completes (sections : List Section) (tokens : List Token) : Prop where
  starts : ∀ token ∈ tokens.head?, token.kind ≠ .newline
  leads : ∀ place rest, place.Passed tokens rest → rest.current.kind = .endOfInput →
    ∃ last : Stage, Relation.ReflTransGen Next ⟨sections, place⟩ last ∧ last.Finished

theorem completes_nil (sections : List Section) : Completes sections [] where
  starts := by simp
  leads place rest passed ends := by
    have same := (Passed.nothing place).eq passed
    subst same
    exact ⟨_, .refl, ends⟩

theorem Next.finished {stage : Stage} {sections : List Section} {rest : TokenStream}
    (passes : stage.Next ⟨sections, rest.skipNewlines⟩) (ends : rest.current.kind = .endOfInput) :
    ∃ last, Relation.ReflTransGen Next stage last ∧ last.Finished := by
  have same : rest.skipNewlines = rest := skipNewlines_eq breaks_nil (.nothing rest) (by simp [ends])
  rw [same] at passes
  exact ⟨_, .single passes, ends⟩

theorem completes_of_written {sections : List Section} (inSection : sections ≠ [])
    {instruction : Instruction} {tokens : List Token} (written : instruction.Written tokens) :
    Completes sections tokens where
  starts := by
    rcases written with ⟨word, _, _, rfl, isWord, _⟩
    simp [(kind_of_isWord isWord).1]
  leads place rest passed ends := by
    have spans := Instruction.spans_iff_written.2 ⟨tokens, passed, written⟩
    exact Next.finished (.instruction inSection spans) ends

theorem completes_of_headed (sections : List Section) {title : String} {tokens : List Token}
    (headed : Section.Headed title tokens) : Completes sections tokens where
  starts := by
    rcases headed with ⟨marker, _, _, rfl, isMarker, _⟩
    simp [isMarker]
  leads place rest passed ends := by
    have accepted := sectionHeader_accepted_iff_headed.2 ⟨tokens, passed, headed⟩
    exact Next.finished (.header accepted) ends

/-! ## What a refused statement begins with -/

theorem mem_refusals {stage : Stage} {refusal : Refusal} :
    refusal ∈ stage.refusals ↔
      (stage.sections ≠ [] ∧
        ∃ instruction, (Rule.formOf instruction).refusal? stage.place = some refusal) ∨
      Rule.sectionHeader.refusal? stage.place = some refusal := by
  rw [refusals, List.mem_append, Option.mem_toList, formRefusals]
  by_cases noSection : stage.sections = []
  · simp [noSection]
  · rw [if_neg noSection, List.mem_filterMap]
    refine or_congr_left ⟨fun holds => ?_, fun holds => ?_⟩
    · rcases holds with ⟨form, listed, refused⟩
      rcases Rule.exists_formOf_of_mem listed with ⟨instruction, rfl⟩
      exact ⟨noSection, instruction, refused⟩
    · rcases holds with ⟨_, instruction, refused⟩
      exact ⟨_, Rule.formOf_mem instruction, refused⟩

/-- Tokens that fillers complete, wherever these come to stand. Behind a marker they stand right
behind its dashes. -/
def Completable (sections : List Section) (tokens : List Token) : Prop :=
  ∃ fillers : List Lexeme, (∀ lexeme ∈ fillers, lexeme.Filler) ∧ ∀ start,
    (∀ marker ∈ tokens.getLast?, marker.kind = .sectionMarker →
      start = marker.place.after ['-', '-', '-']) →
    Completes sections (tokens ++ Scan.locate start fillers)

theorem completable_marker (sections : List Section) {marker : Token}
    (isMarker : marker.kind = .sectionMarker) : Completable sections [marker] := by
  have word : Text.IsName "x" := by decide
  refine ⟨[.name "x" [' '], .plain .newline "\n" [' ']], List.forall_mem_cons.2
    ⟨Lexeme.filler_name word, List.forall_mem_singleton.2 Lexeme.filler_lineEnd⟩, ?_⟩
  intro start behind
  rw [behind marker rfl isMarker]
  refine @completes_of_headed sections "x" _ ⟨marker, _, _, rfl, isMarker, rfl, ?_, rfl, rfl⟩
  simp [Rule.spacedFrom, Position.next, Lexeme.name, Lexeme.plain]

theorem completable_title (sections : List Section) {marker name : Token}
    (isMarker : marker.kind = .sectionMarker) (isName : name.kind = .identifier)
    (spaced : Rule.spacedFrom marker name = true) : Completable sections [marker, name] := by
  refine ⟨[.plain .newline "\n" [' ']], List.forall_mem_singleton.2 Lexeme.filler_lineEnd, ?_⟩
  intro start _
  exact completes_of_headed sections
    ⟨marker, name, _, rfl, isMarker, isName, spaced, rfl, rfl⟩

/-- A refusal beyond the first token of a statement is about the token behind the beginning of a
statement that could have stood there. -/
theorem exists_completable {stage : Stage} {refusal : Refusal} (member : refusal ∈ stage.refusals)
    (beyond : stage.place.index < refusal.index) : ∃ tokens place rest,
      stage.place.Passed tokens place ∧ refusal.index = rest.index ∧
      refusal.fault.StandsAt place rest ∧ Completable stage.sections tokens := by
  rcases mem_refusals.1 member with ⟨inSection, sample, refused⟩ | refused
  · rcases Rule.refusal?_eq_some.1 refused with ⟨rest, reply, index⟩
    rcases (Rule.viable_formOf sample).refused reply with
      ⟨tokens, place, passed, stands, fillers, instruction, areFillers, written⟩
    refine ⟨tokens, place, rest, passed, index, stands, fillers, areFillers, fun start _ => ?_⟩
    refine completes_of_written inSection (written.of_essence ?_)
    rw [List.map_append, List.map_append, map_essence_locate]
  · rcases Rule.refusal?_eq_some.1 refused with ⟨rest, reply, index⟩
    by_cases isMarker : stage.place.current.kind = .sectionMarker
    · have notEnd : stage.place.current.kind ≠ .endOfInput := by simp [isMarker]
      have first := passed_current notEnd
      rw [Rule.sectionHeader_of_marker isMarker] at reply
      rcases Rule.behindMarker_refused reply with ⟨stands, rfl | ⟨spaced, isName, rfl⟩⟩
      · exact ⟨_, _, _, first, index, stands, completable_marker stage.sections isMarker⟩
      · have notEnd' : stage.place.advance.current.kind ≠ .endOfInput := by simp [isName]
        exact ⟨_, _, _, first.trans (passed_current notEnd'), index, stands,
          completable_title stage.sections isMarker isName spaced⟩
    · rw [Rule.sectionHeader_of_other isMarker] at reply
      injection reply with _ same
      rw [index, ← same] at beyond
      exact absurd beyond (Nat.lt_irrefl _)

end Stage

/-! ## How far the refusals of a statement look -/

/-- How many tokens a fault is told by, from the one that it is about. -/
def Fault.span (fault : Fault) : Nat :=
  if fault.complaint = .unknownFunction then 2 else 1

theorem Fault.StandsAt.reach {fault : Fault} {place rest : TokenStream}
    (stands : fault.StandsAt place rest) :
    Refusal.reach ⟨rest.index, fault⟩ = place.index + fault.span := by
  have index := stands.index
  unfold Refusal.reach Fault.span
  dsimp only
  split
  · next isSpecial => simpa [isSpecial] using index
  · next isFunction => simpa [isFunction] using index
  · next notSpecial notFunction =>
      rw [if_neg notSpecial] at index
      rw [if_neg notFunction, index]

theorem Refusal.index_le_reach (refusal : Refusal) : refusal.index ≤ refusal.reach := by
  unfold reach
  split <;> omega

theorem Refusal.reach_of_plain {refusal : Refusal} (plain : refusal.fault.complaint ≠ .unknownSpecial ∧
    refusal.fault.complaint ≠ .unknownFunction) : refusal.reach = refusal.index + 1 := by
  unfold reach
  split
  · next isSpecial => exact absurd isSpecial plain.1
  · next isFunction => exact absurd isFunction plain.2
  · rfl

namespace Stage

/-- A refusal of a form that has found its keyword, or of a header that has found its marker. -/
inductive Found (stage : Stage) (refusal : Refusal) : Prop
  | form {instruction : Instruction}
      (isWord : stage.place.current.isWord instruction.kind = true)
      (refused : (Rule.formOf instruction).refusal? stage.place = some refusal)
  | header (isMarker : stage.place.current.kind = .sectionMarker)
      (refused : Rule.sectionHeader.refusal? stage.place = some refusal)

theorem found_or_reach {stage : Stage} {refusal : Refusal} (member : refusal ∈ stage.refusals) :
    stage.Found refusal ∨
      refusal.index = stage.place.index ∧ refusal.reach = stage.place.index + 1 := by
  rcases mem_refusals.1 member with ⟨_, instruction, refused⟩ | refused
  · cases found : stage.place.current.isWord instruction.kind with
    | true => exact .inl (.form found refused)
    | false =>
        rw [Rule.formOf_eq_form, Rule.refusal?, Rule.form_refused found] at refused
        injection refused with same
        exact .inr (same ▸ ⟨rfl, rfl⟩)
  · by_cases isMarker : stage.place.current.kind = .sectionMarker
    · exact .inl (.header isMarker refused)
    · rw [Rule.refusal?, Rule.sectionHeader_of_other isMarker] at refused
      injection refused with same
      exact .inr (same ▸ ⟨rfl, rfl⟩)

namespace Found

variable {stage : Stage} {first second : Refusal}

theorem beyond (found : stage.Found first) : stage.place.index < first.index := by
  cases found with
  | form isWord refused =>
      rcases Rule.refusal?_eq_some.1 refused with ⟨rest, reply, index⟩
      exact index ▸ Rule.index_lt_of_formOf_refused isWord reply
  | header isMarker refused =>
      rcases Rule.refusal?_eq_some.1 refused with ⟨rest, reply, index⟩
      have behind : stage.place.advance.index = stage.place.index + 1 :=
        index_advance (by simp [isMarker])
      rw [Rule.sectionHeader_of_marker isMarker] at reply
      rcases Rule.behindMarker_refused reply with ⟨_, rfl | ⟨_, isName, rfl⟩⟩
      · omega
      · have further : stage.place.advance.advance.index = stage.place.advance.index + 1 :=
          index_advance (by simp [isName])
        omega

/-- One keyword or marker is found by one rule only, but for a talk, whose two forms have nothing
in them that takes more than a token to refuse. -/
theorem eq_or_reach (found : stage.Found first) (found' : stage.Found second) :
    first = second ∨ first.reach = first.index + 1 ∧ second.reach = second.index + 1 := by
  cases found with
  | @form instruction isWord refused =>
      cases found' with
      | @form instruction' isWord' refused' =>
          have sameKind : instruction.kind = instruction'.kind :=
            (kind_of_isWord isWord).2.symm.trans (kind_of_isWord isWord').2
          by_cases isTalk : instruction.kind = "talk"
          · rcases Rule.refusal?_eq_some.1 refused with ⟨_, reply, _⟩
            rcases Rule.refusal?_eq_some.1 refused' with ⟨_, reply', _⟩
            exact .inr ⟨Refusal.reach_of_plain (Rule.plain_talk isTalk _ _ _ reply),
              Refusal.reach_of_plain (Rule.plain_talk (sameKind ▸ isTalk) _ _ _ reply')⟩
          · have sameForm := Instruction.formOf_eq_of_kind sameKind
              fun textId choices same => isTalk (by rw [same]; rfl)
            rw [sameForm, refused'] at refused
            exact .inl (Option.some.inj refused).symm
      | header isMarker _ => simp [(kind_of_isWord isWord).1] at isMarker
  | header isMarker refused =>
      cases found' with
      | form isWord' _ => simp [(kind_of_isWord isWord').1] at isMarker
      | header _ refused' =>
          rw [refused'] at refused
          exact .inl (Option.some.inj refused).symm

end Found

/-- No refusal of a statement has looked further than the furthest one, or than the first token if
that is not beyond it. -/
theorem reach_le {stage : Stage} {refusal furthest : Refusal}
    (isFurthest : Refusal.IsFurthest stage.refusals furthest) (member : refusal ∈ stage.refusals) :
    refusal.reach ≤
      if stage.place.index < furthest.index then furthest.reach else stage.place.index + 1 := by
  have least := furthest.index_le_reach
  rcases found_or_reach member with found | ⟨index, reach⟩
  · have further := Nat.lt_of_lt_of_le found.beyond (isFurthest.le _ member)
    rw [if_pos further]
    rcases found_or_reach isFurthest.mem with found' | ⟨index', _⟩
    · rcases found.eq_or_reach found' with same | ⟨reach, reach'⟩
      · exact Nat.le_of_eq (congrArg Refusal.reach same)
      · rw [reach, reach']
        exact Nat.succ_le_succ (isFurthest.le _ member)
    · omega
  · split <;> omega

/-! ## Statements that look the same -/

theorem not_accepted_of_refusal? {α : Type} {rule : Rule α} (isLocal : rule.Local)
    {place other : TokenStream} {refusal : Refusal} (refused : rule.refusal? place = some refusal)
    {bound : Nat} (agrees : place.Agrees bound other) (seen : refusal.reach ≤ bound) (value : α)
    (rest : TokenStream) : rule other ≠ .accepted value rest := by
  rcases Rule.refusal?_eq_some.1 refused with ⟨last, reply, index⟩
  have reach : (rule place).reach = refusal.reach := by
    rw [reply, Reply.reach, ← index]
  have mirrored := (isLocal place).mirrors agrees (by omega)
  intro accepted
  rw [reply, accepted] at mirrored
  contradiction

theorem Stuck.of_agrees {stage : Stage} (stuck : stage.Stuck) {bound : Nat} {place : TokenStream}
    (agrees : stage.place.Agrees bound place) (within : stage.place.index < bound)
    (seen : ∀ refusal ∈ stage.refusals, refusal.reach ≤ bound) : Stuck ⟨stage.sections, place⟩ where
  notEnd := agrees.kind within ▸ stuck.notEnd
  notInstruction inSection form listed instruction rest := by
    rcases Rule.exists_formOf_of_mem listed with ⟨sample, rfl⟩
    rcases Rule.exists_refusal? (stuck.notInstruction inSection _ listed) with ⟨refusal, refused⟩
    have member : refusal ∈ stage.refusals := mem_refusals.2 (.inl ⟨inSection, sample, refused⟩)
    exact not_accepted_of_refusal? (Rule.local_formOf sample) refused agrees (seen _ member) _ _
  notHeader title rest := by
    rcases Rule.exists_refusal? stuck.notHeader with ⟨refusal, refused⟩
    have member : refusal ∈ stage.refusals := mem_refusals.2 (.inr refused)
    exact not_accepted_of_refusal? Rule.local_sectionHeader refused agrees (seen _ member) _ _

end Stage

theorem Tokens.toList_of_passed {tokens : Tokens} {before : List Token} {place : TokenStream}
    (passed : tokens.stream.Passed before place) :
    tokens.toList = before ++ place.toList ∧ place.index = before.length := by
  have ahead : tokens.list = before ++ place.ahead := passed.ahead
  have finish : place.finish = tokens.finish := passed.finish
  rw [toList, ahead, TokenStream.toList, finish, List.append_assoc]
  exact ⟨rfl, passed.index_eq⟩

theorem take_glyphs_append {first : List Token} {count : Nat} (within : first.length ≤ count)
    (second : List Token) : (glyphs none (first ++ second)).take count =
      glyphs none first ++ (glyphs first.getLast? second).take (count - first.length) := by
  rw [glyphs_append, Option.or_none, List.take_append, length_glyphs,
    List.take_of_length_le (by simpa using within)]

theorem TokenStream.Passed.exists_agrees {tokens others : Tokens} {bound : Nat}
    (alike : (glyphs none others.toList).take bound = (glyphs none tokens.toList).take bound)
    (bounded : bound ≤ tokens.toList.length) {before : List Token} {place : TokenStream}
    (passed : tokens.stream.Passed before place) (within : place.index < bound) :
    ∃ before' place', others.stream.Passed before' place' ∧ Alike before before' ∧
      place.Agrees bound place' := by
  rcases Tokens.toList_of_passed passed with ⟨whole, index⟩
  have long : before.length ≤ others.list.length := by
    have lengths := congrArg List.length alike
    simp only [List.length_take, length_glyphs] at lengths
    have length : others.toList.length = others.list.length + 1 := by simp [Tokens.toList]
    omega
  have exists_passed : ∃ before' place', others.stream.Passed before' place' ∧
      before'.length = before.length :=
    ⟨_, _, .mk_of_ahead (List.take_append_drop before.length others.list).symm, List.length_take_of_le long⟩
  rcases exists_passed with ⟨before', place', passed', length⟩
  rcases Tokens.toList_of_passed passed' with ⟨whole', index'⟩
  rw [whole, whole', take_glyphs_append (by omega), take_glyphs_append (by omega)] at alike
  rcases List.append_inj alike (by simpa using length) with ⟨sameBefore, sameBehind⟩
  refine ⟨before', place', passed', sameBefore.symm, by omega, ?_⟩
  rw [index, glyphs_none before'.getLast?, glyphs_none before.getLast? place.toList,
    List.take_modifyHead, List.take_modifyHead, ← length, sameBehind, length]

/-! ## The reported token -/

def Accepted (file : Path) (tokens : Tokens) : Prop :=
  ∃ text sections, Tokens.ofText text = .ok tokens ∧ parseSections file text = .ok sections

theorem accepted_iff_reached {file : Path} {text : String} {tokens : Tokens}
    (lexed : Tokens.ofText text = .ok tokens) :
    (∃ sections, parseSections file text = .ok sections) ↔
      ∃ stage, Stage.Reached tokens.stream stage ∧ stage.Finished := by
  simp only [parseSections_eq_ok, lexed, Except.ok.injEq, exists_eq_left',
    Parser.readSections_eq_ok_iff_reached]
  constructor
  · intro holds
    rcases holds with ⟨_, stage, reached, finished, _⟩
    exact ⟨stage, reached, finished⟩
  · intro holds
    rcases holds with ⟨stage, reached, finished⟩
    exact ⟨_, stage, reached, finished, rfl⟩

/-- Tokens of which the first `count` look like those of another text, the end of input included. -/
def Tokens.SharesFirst (tokens : Tokens) (count : Nat) (others : Tokens) : Prop :=
  (glyphs none tokens.toList).take count <+: glyphs none others.toList

theorem Stage.Stuck.not_sharesFirst {tokens others : Tokens} {stage : Stage}
    (stuck : stage.Stuck) (reached : Reached tokens.stream stage) {bound : Nat}
    (within : stage.place.index < bound) (bounded : bound ≤ tokens.toList.length)
    (seen : ∀ refusal ∈ stage.refusals, refusal.reach ≤ bound) {last : Stage}
    (otherReached : Reached others.stream last) (finished : last.Finished) :
    ¬tokens.SharesFirst bound others := by
  intro shares
  have length : ((glyphs none tokens.toList).take bound).length = bound :=
    List.length_take_of_le (by simpa using bounded)
  have alike := List.prefix_iff_eq_take.1 shares
  rw [length] at alike
  rcases reached.exists_passed with ⟨before, passed, transfers⟩
  rcases passed.exists_agrees alike.symm bounded within with
    ⟨before', place', passed', sameBefore, agrees⟩
  have notBreak : place'.current.kind ≠ .newline := agrees.kind within ▸ reached.notBreak
  have reached' := transfers others.stream before' place' passed' sameBefore notBreak
  exact reached'.not_finished (stuck.of_agrees agrees within seen) otherReached finished

theorem Stage.Reached.exists_accepted {file : Path} {text : String} {tokens : Tokens}
    (lexed : Tokens.ofText text = .ok tokens) {stage : Stage} (reached : Reached tokens.stream stage)
    {begun : List Token} {place : TokenStream} (passed : stage.place.Passed begun place)
    (completable : Completable stage.sections begun) :
    ∃ accepted, Accepted file accepted ∧
      tokens.toList.take place.index <+: accepted.toList := by
  rcases completable with ⟨fillers, areFillers, completes⟩
  rcases reached.exists_passed with ⟨before, passedBefore, transfers⟩
  rcases Tokens.toList_of_passed (passedBefore.trans passed) with ⟨whole, index⟩
  have ahead : tokens.list = before ++ begun ++ place.ahead := (passedBefore.trans passed).ahead
  rcases Tokens.exists_ofText_take lexed place.index areFillers with
    ⟨text', tokens', start, lexed', list, behind⟩
  rw [ahead, index, List.take_left] at list behind
  have completed := completes start fun marker isLast => behind marker (by
    rw [List.getLast?_append, Option.mem_def.1 isLast]
    rfl)
  have ahead' : tokens'.stream.ahead = before ++ (begun ++ Scan.locate start fillers) := by
    rw [← List.append_assoc]
    exact list
  rcases Passed.exists_of_ahead ahead' with ⟨middle, passed', middleAhead⟩
  have notBreak : middle.current.kind ≠ .newline :=
    current_kind_ne (by decide) (middleAhead ▸ completed.starts)
  rcases Passed.exists_of_ahead (middleAhead.trans (List.append_nil _).symm) with
    ⟨rest, passedRest, restAhead⟩
  have ends : rest.current.kind = .endOfInput := by simp [current, restAhead, Token.atEnd]
  rcases completed.leads middle rest passedRest ends with ⟨last, leads, finished⟩
  have reached' := transfers tokens'.stream before middle passed' rfl notBreak
  rcases (accepted_iff_reached lexed').2 ⟨last, reached'.trans leads, finished⟩ with
    ⟨sections, accepted⟩
  refine ⟨tokens', ⟨text', sections, lexed', accepted⟩, ?_⟩
  rw [whole, index, List.take_left, Tokens.toList, list, List.append_assoc]
  exact List.prefix_append _ _

theorem Stage.exists_reported {stage : Stage} {furthest : Refusal}
    (isFurthest : Refusal.IsFurthest stage.refusals furthest) :
    ∃ begun place, stage.place.Passed begun place ∧
      place.current = (stage.faultBeyond furthest).token ∧
      ((stage.faultBeyond furthest).complaint = .unknownFunction →
        place.advance.current.kind = .leftParen) ∧
      Completable stage.sections begun ∧
      ∀ refusal ∈ stage.refusals,
        refusal.reach ≤ place.index + (stage.faultBeyond furthest).span := by
  have seen := fun refusal member => @reach_le stage refusal furthest isFurthest member
  by_cases beyond : stage.place.index < furthest.index
  · rcases exists_completable isFurthest.mem beyond with
      ⟨begun, place, rest, passed, index, stands, completable⟩
    have reach : furthest.reach = place.index + furthest.fault.span := by
      rw [← stands.reach, ← index]
    rw [if_pos beyond, reach] at seen
    rw [faultBeyond, if_pos beyond]
    exact ⟨begun, place, passed, stands.token, stands.called, completable, seen⟩
  · have nothing : Completable stage.sections [] :=
      ⟨[], by simp, fun _ _ => completes_nil stage.sections⟩
    rw [if_neg beyond] at seen
    rw [faultBeyond, if_neg beyond]
    exact ⟨[], stage.place, .nothing _, rfl, by simp, nothing, by simpa [Fault.span] using seen⟩

namespace Diagnostic

def PointsAt (diagnostic : Diagnostic) (token : Token) : Prop :=
  ∃ context, diagnostic.context = some context ∧
    context.line = token.place.line ∧ context.column = token.place.column

def NamesFunction (diagnostic : Diagnostic) : Prop :=
  ∃ name, diagnostic.message = "Unknown function " ++ name

theorem pointsAt_iff {fault : Fault} {file : Path} {text : String} {token : Token} :
    (fault.diagnostic file text).PointsAt token ↔ token.place = fault.token.place := by
  constructor
  · intro holds
    rcases holds with ⟨context, isContext, line, column⟩
    injection isContext with same
    subst same
    have sameLine : fault.token.place.line = token.place.line := Int.ofNat_inj.1 line
    have sameColumn : fault.token.place.column = token.place.column := Int.ofNat_inj.1 column
    exact (congrArg₂ Position.mk sameLine sameColumn).symm
  · intro same
    exact ⟨_, rfl, by rw [same], by rw [same]⟩

theorem namesFunction_iff {fault : Fault} {file : Path} {text : String} :
    (fault.diagnostic file text).NamesFunction ↔ fault.complaint = .unknownFunction := by
  constructor
  · intro named
    rcases named with ⟨name, same⟩
    have start : fault.message.toList.take 9 = ("Unknown function " ++ name).toList.take 9 :=
      congrArg (·.toList.take 9) same
    cases fault with
    | mk complaint token =>
        cases complaint with
        | unknownFunction => rfl
        | _ => simp [Fault.message] at start
  · intro same
    refine ⟨Text.quoted fault.token.value, ?_⟩
    change fault.message = _
    rw [Fault.message, same]

end Diagnostic

namespace Tokens

variable {tokens : Tokens} {before : List Token} {place : TokenStream}

theorem getElem?_of_passed (passed : tokens.stream.Passed before place) (offset : Nat) :
    tokens.toList[place.index + offset]? = place.toList[offset]? := by
  rcases toList_of_passed passed with ⟨whole, index⟩
  rw [whole, index, List.getElem?_append_right (Nat.le_add_right _ _), Nat.add_sub_cancel_left]

theorem getElem?_current (passed : tokens.stream.Passed before place) :
    tokens.toList[place.index]? = some place.current := by
  rw [← Nat.add_zero place.index, getElem?_of_passed passed, ← List.head?_eq_getElem?, head?_toList]

theorem getElem?_advance (passed : tokens.stream.Passed before place)
    (notEnd : place.advance.current.kind ≠ .endOfInput) :
    tokens.toList[place.index + 1]? = some place.advance.current := by
  have behind : ∃ token, place.toList = token :: place.advance.toList := by
    cases ahead : place.ahead with
    | nil => simp [TokenStream.current, TokenStream.advance, ahead, Token.atEnd] at notEnd
    | cons token rest => exact ⟨token, by simp [TokenStream.toList, TokenStream.advance, ahead]⟩
  rcases behind with ⟨token, behind⟩
  rw [getElem?_of_passed passed, behind, List.getElem?_cons_succ, ← List.head?_eq_getElem?,
    head?_toList]

end Tokens

/-- The tokens before an index begin an accepted text; with `span` more tokens they begin none. -/
structure Tokens.FirstImpossible (tokens : Tokens) (file : Path) (index span : Nat) : Prop where
  possible : ∃ accepted, Accepted file accepted ∧
    tokens.toList.take index <+: accepted.toList
  impossible : ∀ accepted, Accepted file accepted → ¬tokens.SharesFirst (index + span) accepted

/-- A diagnostic of the grammar points at one token of the text, and that is the first impossible
one. An unknown function is impossible together with the parenthesis behind its name. -/
theorem parseSections_error_firstImpossible {file : Path} {text : String} {tokens : Tokens}
    {diagnostic : Diagnostic} (lexed : Tokens.ofText text = .ok tokens)
    (failed : parseSections file text = .error diagnostic) :
    ∃ index token, tokens.toList[index]? = some token ∧ diagnostic.PointsAt token ∧
      (∀ (index' : Nat) token', tokens.toList[index']? = some token' →
        diagnostic.PointsAt token' → index' = index) ∧
      (¬diagnostic.NamesFunction → tokens.FirstImpossible file index 1) ∧
      (diagnostic.NamesFunction → tokens.FirstImpossible file index 2 ∧
        ∃ opening, tokens.toList[index + 1]? = some opening ∧ opening.kind = .leftParen) := by
  rcases (parseSections_eq_error lexed).1 failed with ⟨fault, refused, rfl⟩
  rcases Parser.stuck_of_readSections refused with ⟨stage, furthest, reached, stuck, isFurthest, same⟩
  rcases Stage.exists_reported isFurthest with ⟨begun, place, passed, token, called, completable, seen⟩
  rw [← same] at token called seen
  rcases reached.exists_passed with ⟨before, passedBefore, _⟩
  have found := Tokens.getElem?_current (passedBefore.trans passed)
  have possible : ∃ accepted, Accepted file accepted ∧
      tokens.toList.take place.index <+: accepted.toList :=
    reached.exists_accepted lexed passed completable
  have impossible : place.index + fault.span ≤ tokens.toList.length → ∀ accepted,
      Accepted file accepted → ¬tokens.SharesFirst (place.index + fault.span) accepted := by
    intro bounded accepted isAccepted
    rcases isAccepted with ⟨_, sections, lexed', parsed⟩
    rcases (accepted_iff_reached lexed').1 ⟨sections, parsed⟩ with ⟨last, otherReached, finished⟩
    have further := passed.index_le
    have spans : 0 < fault.span := by
      unfold Fault.span
      split <;> decide
    exact stuck.not_sharesFirst reached (by omega) bounded seen otherReached finished
  refine ⟨place.index, place.current, found, ?_, ?_, ?_, ?_⟩
  · rw [Diagnostic.pointsAt_iff, token]
  · intro index' token' found' points
    rw [Diagnostic.pointsAt_iff, ← token] at points
    exact Tokens.index_eq_of_place lexed found' found points
  · intro unnamed
    have span : fault.span = 1 := by
      rw [Fault.span, if_neg fun isFunction => unnamed (Diagnostic.namesFunction_iff.2 isFunction)]
    rw [span] at impossible
    exact ⟨possible, impossible (List.getElem?_eq_some_iff.1 found).1⟩
  · intro named
    have isFunction : fault.complaint = .unknownFunction := Diagnostic.namesFunction_iff.1 named
    have span : fault.span = 2 := by rw [Fault.span, if_pos isFunction]
    have opens := called isFunction
    have opening := Tokens.getElem?_advance (passedBefore.trans passed) (by simp [opens])
    rw [span] at impossible
    exact ⟨⟨possible, impossible (List.getElem?_eq_some_iff.1 opening).1⟩, _, opening, opens⟩

/-- A symbol is reported where it stands, although it has been passed. -/
theorem firstImpossible_unknown_symbol : ∃ tokens diagnostic,
    Tokens.ofText "--- a\nspecial(x)\n" = .ok tokens ∧
    parseSections unnamedFile "--- a\nspecial(x)\n" = .error diagnostic ∧
    diagnostic.PointsAt ⟨.identifier, "x", ⟨2, 9⟩⟩ ∧ tokens.FirstImpossible unnamedFile 5 1 := by
  have lexed : Tokens.ofText "--- a\nspecial(x)\n" = .ok
      ⟨[⟨.sectionMarker, "---", ⟨1, 1⟩⟩, ⟨.identifier, "a", ⟨1, 5⟩⟩, ⟨.newline, "\n", ⟨1, 6⟩⟩,
        ⟨.identifier, "special", ⟨2, 1⟩⟩, ⟨.leftParen, "(", ⟨2, 8⟩⟩, ⟨.identifier, "x", ⟨2, 9⟩⟩,
        ⟨.rightParen, ")", ⟨2, 10⟩⟩, ⟨.newline, "\n", ⟨2, 11⟩⟩], ⟨3, 1⟩⟩ := by decide +kernel
  have failed : parseSections unnamedFile "--- a\nspecial(x)\n" =
      .error (Fault.diagnostic ⟨.unknownSpecial, ⟨.identifier, "x", ⟨2, 9⟩⟩⟩ unnamedFile
        "--- a\nspecial(x)\n") :=
    (parseSections_eq_error lexed).2 ⟨_, by decide +kernel, rfl⟩
  rcases parseSections_error_firstImpossible lexed failed with
    ⟨index, token, _, _, unique, unnamed, _⟩
  have same : 5 = index := unique 5 _ rfl (Diagnostic.pointsAt_iff.2 rfl)
  subst same
  refine ⟨_, _, lexed, failed, Diagnostic.pointsAt_iff.2 rfl, unnamed fun named => ?_⟩
  exact absurd (Diagnostic.namesFunction_iff.1 named) (by decide)

end EventScript
