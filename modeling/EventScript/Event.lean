import EventScript.Files.Path
import EventScript.Text.Decimal
import EventScript.Text.Quoted

/-! Log events: what a compilation has to tell besides its result. -/

namespace EventScript

open Text.Decimal (textOfNat)

inductive Severity where
  | debug
  | info
  | warning
deriving DecidableEq, Repr

namespace Severity

def label : Severity → String
  | .debug => "DEBUG"
  | .info => "INFO"
  | .warning => "WARNING"

end Severity

inductive Event where
  | redefined (sectionName : String)
  | compiled (file : Path) (sections instructions : Nat)
  | failed (file : Path)
  | built (successes total : Nat)
deriving DecidableEq, Repr

namespace Event

def severity : Event → Severity
  | .redefined _ => .warning
  | .compiled _ _ _ => .debug
  | .failed _ => .warning
  | .built _ _ => .info

def reporter : Event → String
  | .redefined _ => "pakscript.core.ir.script"
  | .compiled _ _ _ | .failed _ | .built _ _ => "pakscript.core.compiler"

def message : Event → String
  | .redefined sectionName =>
      "Section " ++ Text.quoted sectionName
        ++ " defined more than once; the later definition replaces the earlier"
  | .compiled file sections instructions =>
      "Compiled " ++ file.text ++ ": " ++ textOfNat sections ++ " section(s), "
        ++ textOfNat instructions ++ " instruction(s)"
  | .failed file => "Failed to compile " ++ file.text
  | .built successes total =>
      "Compiled " ++ textOfNat successes ++ " of " ++ textOfNat total ++ " script file(s)"

end Event

end EventScript
