import EventScript.Grammar.Attempt
import EventScript.Grammar.Statement

/-! The grammar of whole scripts. A section runs from its header to the first
statement that is no instruction; a script is sections to the end of input. If
something else is in the way, the furthest refusal beyond it is the error. -/

namespace EventScript

namespace Parser

/-- One instruction of any form, or none, in which case nothing is passed. -/
def readInstruction : Parser → Option Instruction × Parser :=
  attemptAny Rule.instructionForms

def readInstructions (parser : Parser) : List Instruction × Parser :=
  match found : readInstruction parser.skipNewlines with
  | (none, after) => ([], after)
  | (some first, after) =>
      have : after.stream.remaining < parser.stream.remaining :=
        Nat.lt_of_lt_of_le (remaining_attemptAny_lt Rule.consumes_of_mem_instructionForms found)
          parser.stream.remaining_skipNewlines_le
      let (others, after) := readInstructions after
      (first :: others, after)
termination_by parser.stream.remaining

def readSection : Action Section := fun parser =>
  match run Rule.sectionHeader parser with
  | (.error fault, after) => (.error fault, after)
  | (.ok name, after) =>
      let (instructions, after) := after.readInstructions
      (.ok ⟨name, instructions⟩, after)

theorem remaining_readInstructions_le (parser : Parser) :
    parser.readInstructions.2.stream.remaining ≤ parser.stream.remaining := by
  fun_induction readInstructions parser with
  | case1 parser after found =>
      simp only
      rw [attemptAny_none found]
      exact parser.stream.remaining_skipNewlines_le
  | case2 parser first after found fewer others final rest induction =>
      simp only [rest] at induction
      simp only
      omega

theorem remaining_readSection_lt {parser after : Parser} {value : Section}
    (read : readSection parser = (.ok value, after)) :
    after.stream.remaining < parser.stream.remaining := by
  unfold readSection run at read
  cases header : Rule.sectionHeader parser.stream with
  | refused fault rest => simp [header] at read
  | accepted name rest =>
      simp only [header, Prod.mk.injEq] at read
      have passed := Rule.consumes_sectionHeader _ _ _ header
      have followed := remaining_readInstructions_le { parser with stream := rest }
      rw [read.2] at followed
      exact Nat.lt_of_le_of_lt followed passed

/-- What to report where no section begins: the furthest refusal beyond that place,
or that a statement was expected. -/
def stoppingFault (parser : Parser) : Fault :=
  parser.furthestBeyond.getD ⟨.expectedStatement, parser.stream.current⟩

def readSections (parser : Parser) : Except Fault (List Section) × Parser :=
  let start := parser.skipNewlines
  if start.stream.current.kind = .endOfInput then (.ok [], start)
  else
    match read : start.attempt readSection with
    | (none, after) => (.error after.stoppingFault, after)
    | (some first, after) =>
        have : after.stream.remaining < parser.stream.remaining := by
          have skipped : start.stream.remaining ≤ parser.stream.remaining :=
            parser.stream.remaining_skipNewlines_le
          unfold attempt at read
          split at read
          · next value reached accepted =>
              simp only [Prod.mk.injEq, Option.some.injEq] at read
              have passed := remaining_readSection_lt accepted
              rw [← read.2]
              omega
          · simp at read
        match readSections after with
        | (.ok others, after) => (.ok (first :: others), after)
        | (.error fault, after) => (.error fault, after)
termination_by parser.stream.remaining

end Parser

end EventScript
