import EventScript.Section

/-! Compiled scripts: section names with their instructions. A section that is defined
again takes the new instructions and keeps the place of its first definition. -/

namespace EventScript

/-- The sections of a script, each name once, in the order of first definition. -/
structure Script where
  sections : List (String × List Instruction)
deriving DecidableEq, Repr

namespace Script

def empty : Script := ⟨[]⟩

def names (script : Script) : List String :=
  script.sections.map Prod.fst

def contains (script : Script) (name : String) : Bool :=
  script.names.contains name

def find? (script : Script) (name : String) : Option (List Instruction) :=
  script.sections.lookup name

def instructionCount (script : Script) : Nat :=
  (script.sections.flatMap fun entry => entry.2).length

/-! ## Building -/

def define (script : Script) (new : Section) : Script where
  sections :=
    if script.contains new.name then
      script.sections.map fun entry =>
        if entry.1 = new.name then (new.name, new.instructions) else entry
    else script.sections ++ [(new.name, new.instructions)]

def ofSections (sections : List Section) : Script :=
  sections.foldl define empty

def redefinitions (script : Script) : List Section → List String
  | [] => []
  | new :: rest =>
      let others := (script.define new).redefinitions rest
      if script.contains new.name then new.name :: others else others

/-! ## Views -/

def sectionLines (entry : String × List Instruction) : List String :=
  ("--- " ++ entry.1) :: entry.2.map Instruction.render

def render (script : Script) : String :=
  "\n".intercalate (script.sections.flatMap sectionLines)

def display (script : Script) : Display :=
  .record (script.sections.map fun entry => (entry.1, .list (entry.2.map Instruction.display)))

/-! ## Likeness -/

def alikeInstructions : List Instruction → List Instruction → Bool
  | [], [] => true
  | first :: rest, first' :: rest' => first.alike first' && alikeInstructions rest rest'
  | _, _ => false

/-- Whether two scripts have the same sections, in whatever order, up to the likeness of literals.
-/
def alike (script other : Script) : Bool :=
  script.sections.length == other.sections.length &&
    script.sections.all fun entry =>
      match other.find? entry.1 with
      | none => false
      | some instructions => alikeInstructions entry.2 instructions

end Script

end EventScript
