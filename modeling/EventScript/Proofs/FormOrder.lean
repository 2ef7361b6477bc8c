import EventScript.Proofs.ScriptGrammar
import Mathlib.Tactic.IntervalCases

/-! The order of the instruction forms. At no place of a text does more than one of the forms
accept, so they may be tried in any order: the same instruction is read and it ends in the same
place, or there is none. -/

namespace EventScript

def Rule.Accepts {α : Type} (rule : Rule α) (stream : TokenStream) : Prop :=
  ∃ value rest, rule stream = .accepted value rest

/-! ## Rules that agree -/

namespace Parser

variable {α : Type}

/-- If all rules that accept at a place give the same answer there, their order does not matter. -/
theorem attemptAny_of_perm {rules others : List (Rule α)} (perm : rules.Perm others)
    {parser : Parser}
    (agree : ∀ rule ∈ rules, ∀ other ∈ rules, ∀ value rest found after,
      rule parser.stream = .accepted value rest →
        other parser.stream = .accepted found after → found = value ∧ after = rest) :
    (attemptAny rules parser).1 = (attemptAny others parser).1 ∧
      (attemptAny rules parser).2.stream = (attemptAny others parser).2.stream := by
  by_cases accepts : ∃ rule ∈ rules, rule.Accepts parser.stream
  · rcases accepts with ⟨rule, listed, value, rest, accepted⟩
    have unique : ∀ other ∈ rules, ∀ found after,
        other parser.stream = .accepted found after → found = value ∧ after = rest :=
      fun other inside found after => agree rule listed other inside _ _ found after accepted
    rcases attemptAny_accepted listed accepted unique with ⟨after, tried, ends⟩
    rcases attemptAny_accepted (perm.mem_iff.1 listed) accepted
      (fun other inside => unique other (perm.mem_iff.2 inside)) with ⟨after', tried', ends'⟩
    rw [tried, tried', ends, ends']
    exact ⟨rfl, rfl⟩
  · have refused : ∀ rule ∈ rules, ∀ value rest, rule parser.stream ≠ .accepted value rest :=
      fun rule listed value rest accepted => accepts ⟨rule, listed, value, rest, accepted⟩
    rcases attemptAny_refused refused with ⟨after, tried, stays⟩
    rcases attemptAny_refused fun rule inside => refused rule (perm.mem_iff.2 inside) with
      ⟨after', tried', stays'⟩
    rw [tried, tried', stays, stays']
    exact ⟨rfl, rfl⟩

end Parser

/-! ## One form at a place -/

def Instruction.formIndex : Instruction → Nat
  | .jump _ => 0
  | .jumpIf _ _ => 1
  | .talk _ (_ :: _) => 2
  | .talk _ [] => 3
  | .assign _ _ => 4
  | .receiveMoney _ => 5
  | .removeItem _ => 6
  | .special _ => 7

namespace Rule

variable {stream rest : TokenStream} {instruction : Instruction}

theorem formIndex_of_accepted {index : Nat} (within : index < instructionForms.length)
    (accepted : instructionForms[index] stream = .accepted instruction rest) :
    instruction.formIndex = index := by
  simp only [instructionForms, List.length_cons, List.length_nil] at within
  interval_cases index
  · rcases (jump_accepted.1 accepted).1 with ⟨_, rfl⟩
    rfl
  · rcases (jumpIf_accepted.1 accepted).1 with ⟨_, _, rfl⟩
    rfl
  · rcases (talkWithChoices_accepted.1 accepted).1 with ⟨_, _, _, rfl⟩
    rfl
  · rcases (talk_accepted.1 accepted).1 with ⟨_, rfl⟩
    rfl
  · rcases (assign_accepted.1 accepted).1 with ⟨_, _, rfl⟩
    rfl
  · rcases (receiveMoney_accepted.1 accepted).1 with ⟨_, rfl⟩
    rfl
  · rcases (removeItem_accepted.1 accepted).1 with ⟨_, rfl⟩
    rfl
  · rcases (special_accepted.1 accepted).1 with ⟨_, rfl⟩
    rfl

theorem eq_of_forms_accepted {form other : Rule Instruction} (listed : form ∈ instructionForms)
    (otherListed : other ∈ instructionForms) {found : Instruction} {after : TokenStream}
    (accepted : form stream = .accepted instruction rest)
    (otherAccepted : other stream = .accepted found after) : found = instruction ∧ after = rest :=
  (spans_of_accepted otherListed otherAccepted).eq (spans_of_accepted listed accepted)

theorem pairwise_not_accepts (stream : TokenStream) :
    instructionForms.Pairwise fun form other => ¬(form.Accepts stream ∧ other.Accepts stream) := by
  rw [List.pairwise_iff_getElem]
  intro index index' within within' less both
  rcases both with ⟨⟨instruction, rest, accepted⟩, found, after, otherAccepted⟩
  have same := (eq_of_forms_accepted (List.getElem_mem within) (List.getElem_mem within') accepted
    otherAccepted).1
  have first := formIndex_of_accepted within accepted
  have second := formIndex_of_accepted within' otherAccepted
  rw [same, first] at second
  exact Nat.ne_of_lt less second

end Rule

namespace Parser

/-- At most one of the instruction forms accepts where a parser stands. Whatever order they are
tried in, what is read and where that leaves the stream is the same. -/
theorem readInstruction_of_perm (parser : Parser) {forms : List (Rule Instruction)}
    (perm : forms.Perm Rule.instructionForms) :
    (Rule.instructionForms.Pairwise fun form other =>
      ¬(form.Accepts parser.stream ∧ other.Accepts parser.stream)) ∧
    (attemptAny forms parser).1 = parser.readInstruction.1 ∧
    (attemptAny forms parser).2.stream = parser.readInstruction.2.stream := by
  refine ⟨Rule.pairwise_not_accepts parser.stream, attemptAny_of_perm perm ?_⟩
  intro form listed other otherListed value rest found after accepted otherAccepted
  exact Rule.eq_of_forms_accepted (perm.mem_iff.1 listed) (perm.mem_iff.1 otherListed) accepted
    otherAccepted

/-- A talk without choices, tried as such before it is tried with choices. -/
theorem readInstruction_of_reversed_forms :
    let tokens : Tokens :=
      ⟨[⟨.identifier, "talk", ⟨1, 1⟩⟩, ⟨.leftParen, "(", ⟨1, 5⟩⟩, ⟨.newline, "\n", ⟨1, 6⟩⟩,
        ⟨.identifier, "x", ⟨2, 1⟩⟩, ⟨.rightParen, ")", ⟨2, 2⟩⟩, ⟨.newline, "\n", ⟨2, 3⟩⟩], ⟨3, 1⟩⟩
    Rule.instructionForms.reverse.Perm Rule.instructionForms ∧
      (attemptAny Rule.instructionForms.reverse (start tokens)).1 = some (.talk "x" []) ∧
      (attemptAny Rule.instructionForms.reverse (start tokens)).2.stream = tokens.streamAt 6 := by
  intro tokens
  have perm := List.reverse_perm Rule.instructionForms
  rcases readInstruction_of_perm (start tokens) perm with ⟨_, sameFound, samePlace⟩
  rw [sameFound, samePlace]
  exact ⟨perm, by decide, by decide⟩

end Parser

end EventScript
