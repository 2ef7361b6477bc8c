import EventScript.Diagnostic
import EventScript.Event
import EventScript.Grammar.Script
import EventScript.Script

/-! Compilation of source text: tokens, then sections, then the script. A text either
compiles as a whole or is refused with one diagnostic. -/

namespace EventScript

structure Compilation where
  script : Script
  events : List Event
deriving DecidableEq, Repr

namespace LexicalError

def diagnostic (error : LexicalError) (file : Path) (text : String) : Diagnostic :=
  .atPosition error.fault.message file text error.place

end LexicalError

namespace Fault

def diagnostic (fault : Fault) (file : Path) (text : String) : Diagnostic :=
  .atPosition fault.message file text fault.token.place

end Fault

def unnamedFile : Path :=
  .ofString "<script>"

/-- The sections of a text in source order, with those that are redefined later. -/
def parseSections (file : Path) (text : String) : Except Diagnostic (List Section) :=
  match Tokens.ofText text with
  | .error error => .error (error.diagnostic file text)
  | .ok tokens =>
      match (Parser.start tokens).readSections with
      | (.error fault, _) => .error (fault.diagnostic file text)
      | (.ok sections, _) => .ok sections

def assemble (file : Path) (sections : List Section) : Compilation :=
  let script := Script.ofSections sections
  { script := script
    events := (Script.empty.redefinitions sections).map .redefined
      ++ [.compiled file script.sections.length script.instructionCount] }

def compile (file : Path) (text : String) : Except Diagnostic Compilation :=
  (parseSections file text).map (assemble file)

end EventScript
