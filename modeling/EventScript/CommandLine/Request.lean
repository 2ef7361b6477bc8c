import EventScript.CommandLine.Options
import EventScript.Project.Manifest

/-! Requests that a command line can make. -/

namespace EventScript.CommandLine

inductive Request where
  | help
  | version
  | check (files : List String) (manifest : String)
  | dump (file : String) (sectionName : Option String) (format : String)
deriving DecidableEq, Repr

structure Invocation where
  verbose : Bool
  request : Request
deriving DecidableEq, Repr

def helpForm : OptionForm := ⟨"help", none, false⟩

def globalForms : List OptionForm :=
  [helpForm, ⟨"version", none, false⟩, ⟨"verbose", some 'v', false⟩]

def checkForms : List OptionForm :=
  [helpForm, ⟨"manifest", some 'm', true⟩]

def dumpForms : List OptionForm :=
  [helpForm, ⟨"section", some 's', true⟩, ⟨"format", some 'f', true⟩]

def readCheck (words : List String) : Option Request := do
  let given ← read checkForms true words
  if given.has "help" then return .help
  return .check given.operands ((given.value? "manifest").getD Manifest.fileName)

def readDump (words : List String) : Option Request := do
  let given ← read dumpForms true words
  if given.has "help" then return .help
  match given.operands with
  | [file] => return .dump file (given.value? "section") ((given.value? "format").getD "json")
  | _ => none

def readCommand : List String → Option Request
  | "check" :: words => readCheck words
  | "dump" :: words => readDump words
  | _ => none

/-- A question for help or for the version is answered whatever follows; of the two, the first
counts. -/
def readInvocation (words : List String) : Option Invocation := do
  let given ← read globalForms false words
  let verbose := given.has "verbose"
  let questions := given.options.filter fun option => option.1 == "help" || option.1 == "version"
  match questions.head? with
  | some ("help", _) => return ⟨verbose, .help⟩
  | some _ => return ⟨verbose, .version⟩
  | none => return ⟨verbose, ← readCommand given.operands⟩

end EventScript.CommandLine
