import EventScript.Proofs.ScriptGrammar
import Mathlib.Logic.Relation

/-! The statements of a text, one after another. A stage is a place where a statement is read;
passing the statement leads to the next stage. The statement that stands at a place is
settled by the place, so a text has one way through its statements, and one end of it. -/

namespace EventScript

open TokenStream

/-- A place where a statement is read, and the sections up to there. -/
structure Stage where
  sections : List Section
  place : TokenStream

def Section.addInstruction (instruction : Instruction) : List Section → List Section
  | [] => []
  | [last] => [{ last with instructions := last.instructions ++ [instruction] }]
  | first :: second :: others => first :: addInstruction instruction (second :: others)

theorem Section.addInstruction_append_singleton (instruction : Instruction)
    (sections : List Section) (last : Section) :
    addInstruction instruction (sections ++ [last]) =
      sections ++ [{ last with instructions := last.instructions ++ [instruction] }] := by
  induction sections with
  | nil => rfl
  | cons first others induction =>
      cases others with
      | nil => rfl
      | cons second others => exact congrArg (first :: ·) induction

namespace Stage

def start (stream : TokenStream) : Stage :=
  ⟨[], stream.skipNewlines⟩

/-- The stage behind a statement. Instructions stand in sections only. -/
inductive Next (stage : Stage) : Stage → Prop
  | header {rest : TokenStream} {title : String}
      (accepted : Rule.sectionHeader stage.place = .accepted title rest) :
      Next stage ⟨stage.sections ++ [⟨title, []⟩], rest.skipNewlines⟩
  | instruction {rest : TokenStream} {instruction : Instruction}
      (inSection : stage.sections ≠ []) (spans : instruction.Spans stage.place rest) :
      Next stage ⟨Section.addInstruction instruction stage.sections, rest.skipNewlines⟩

/-- The stages of a text are those behind any number of its statements. -/
def Reached (stream : TokenStream) : Stage → Prop :=
  Relation.ReflTransGen Next (start stream)

theorem not_spans_of_header {place rest after : TokenStream} {title : String}
    {instruction : Instruction} (accepted : Rule.sectionHeader place = .accepted title rest) :
    ¬instruction.Spans place after := by
  intro spans
  rcases Parser.sectionHeader_accepted_iff_passed.1 accepted with
    ⟨_, _, _, isMarker, _, _, _, passed, _⟩
  have isName := (kind_of_isWord spans.isWord).1
  rw [current_eq passed.ahead, isMarker] at isName
  contradiction

theorem rightUnique_next : Relator.RightUnique Next := by
  intro stage first second toFirst toSecond
  cases toFirst with
  | header accepted =>
      cases toSecond with
      | header accepted' =>
          rw [accepted] at accepted'
          injection accepted' with sameTitle sameRest
          rw [sameTitle, sameRest]
      | instruction _ spans => exact (not_spans_of_header accepted spans).elim
  | instruction _ spans =>
      cases toSecond with
      | header accepted => exact (not_spans_of_header accepted spans).elim
      | instruction _ spans' =>
          rcases spans.eq spans' with ⟨rfl, rfl⟩
          rfl

def Final (stage : Stage) : Prop :=
  ∀ next, ¬stage.Next next

theorem Reached.eq_of_final {stream : TokenStream} {first second : Stage}
    (firstReached : Reached stream first) (secondReached : Reached stream second)
    (firstFinal : first.Final) (secondFinal : second.Final) : first = second := by
  rcases Relation.ReflTransGen.total_of_right_unique rightUnique_next firstReached secondReached
    with forth | back
  · rcases Relation.ReflTransGen.cases_head forth with same | ⟨next, passes, _⟩
    · exact same
    · exact absurd passes (firstFinal next)
  · rcases Relation.ReflTransGen.cases_head back with same | ⟨next, passes, _⟩
    · exact same.symm
    · exact absurd passes (secondFinal next)

def Finished (stage : Stage) : Prop :=
  stage.place.current.kind = .endOfInput

/-- A statement that is neither an instruction of a section nor a header. -/
structure Stuck (stage : Stage) : Prop where
  notEnd : stage.place.current.kind ≠ .endOfInput
  notInstruction : stage.sections ≠ [] → ∀ form ∈ Rule.instructionForms, ∀ instruction rest,
    form stage.place ≠ .accepted instruction rest
  notHeader : ∀ title rest, Rule.sectionHeader stage.place ≠ .accepted title rest

theorem Finished.final {stage : Stage} (finished : stage.Finished) : stage.Final := by
  intro next passes
  have current : stage.place.current.kind = .endOfInput := finished
  cases passes with
  | header accepted =>
      rcases Parser.sectionHeader_accepted_iff_passed.1 accepted with
        ⟨_, _, _, isMarker, _, _, _, passed, _⟩
      rw [current_eq passed.ahead, isMarker] at current
      contradiction
  | instruction _ spans =>
      rw [(kind_of_isWord spans.isWord).1] at current
      contradiction

theorem Stuck.final {stage : Stage} (stuck : stage.Stuck) : stage.Final := by
  intro next passes
  cases passes with
  | header accepted => exact stuck.notHeader _ _ accepted
  | @instruction _ instruction inSection spans =>
      exact stuck.notInstruction inSection _ (Rule.formOf_mem instruction) _ _
        (Rule.formOf_accepted.2 spans)

theorem Reached.leads_to_final {stream : TokenStream} {stage next last : Stage}
    (reached : Reached stream stage) (passes : stage.Next next)
    (lastReached : Reached stream last) (final : last.Final) :
    Relation.ReflTransGen Next next last := by
  rcases Relation.ReflTransGen.total_of_right_unique rightUnique_next reached lastReached
    with forth | back
  · rcases Relation.ReflTransGen.cases_head forth with same | ⟨other, toOther, leads⟩
    · exact absurd passes (same ▸ final next)
    · exact rightUnique_next passes toOther ▸ leads
  · rcases Relation.ReflTransGen.cases_head back with same | ⟨other, toOther, _⟩
    · exact absurd passes (same ▸ final next)
    · exact absurd toOther (final other)

theorem Reached.not_finished {stream : TokenStream} {stage other : Stage}
    (reached : Reached stream stage) (stuck : stage.Stuck) (otherReached : Reached stream other) :
    ¬other.Finished := by
  intro finished
  have same := reached.eq_of_final otherReached stuck.final finished.final
  subst same
  exact stuck.notEnd finished

end Stage

end EventScript
