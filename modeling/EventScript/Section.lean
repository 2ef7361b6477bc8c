import EventScript.Instruction

/-! Sections, the named runs of instructions that scripts are made of. -/

namespace EventScript

structure Section where
  name : String
  instructions : List Instruction
deriving DecidableEq, Repr

end EventScript
