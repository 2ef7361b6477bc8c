import EventScript.CommandLine.Request
import EventScript.Display.Json
import EventScript.Guarded.Compile
import EventScript.Project.Build
import EventScript.Project.Discovery
import EventScript.Project.Version

/-! What the commands do. A run reads files of a tree and yields all that it prints;
nothing is written while it goes on. -/

namespace EventScript.CommandLine

open Text.Decimal (textOfNat)

/-- A fault that no command has an answer to. -/
inductive Breakdown where
  | manifest (path : Path) (fault : ManifestFault)
  | file (missing : MissingFile)
  | search (fault : SearchFault)
  | tooDeep
deriving Repr

namespace Breakdown

def message : Breakdown → String
  | .manifest path fault => fault.message path
  | .file missing => missing.fault.message missing.path
  | .search fault => fault.message
  | .tooDeep => "maximum recursion depth exceeded"

end Breakdown

structure Outcome where
  exitCode : Nat
  stdout : String
  stderr : String
  breakdown : Option Breakdown
deriving Repr

namespace Outcome

def lines (texts : List String) : String :=
  String.join (texts.map (· ++ "\n"))

def ended (exitCode : Nat) (stdout stderr : List String) : Outcome :=
  ⟨exitCode, lines stdout, lines stderr, none⟩

def broken (breakdown : Breakdown) (stderr : List String) : Outcome :=
  ⟨1, "", lines stderr, some breakdown⟩

end Outcome

def usageLines : List String :=
  ["Usage: pakscript [--version] [--verbose | -v] COMMAND [ARGS]...",
   "",
   "Commands:",
   "  check [--manifest | -m PATH] [FILE]...",
   "  dump [--section | -s NAME] [--format | -f json|text] FILE"]

def usageError : Outcome :=
  .ended 2 [] usageLines

def noFile (path : Path) : Outcome :=
  if path.hasNull then .broken (.file ⟨path, .nullCharacter⟩) [] else usageError

def logLines (verbose : Bool) (events : List Event) : List String :=
  (events.filter fun event => verbose || event.severity == .warning).map fun event =>
    event.severity.label ++ " " ++ event.reporter ++ ": " ++ event.message

/-! ## Check -/

def checkReport (build : Build) (path : Path) : List String × List String :=
  match build.failures.reverse.lookup path with
  | some diagnostic => ([], ["FAILED " ++ path.text, diagnostic.description])
  | none =>
      let sections := ((build.scripts.lookup path).map (·.sections.length)).getD 0
      (["OK " ++ path.text ++ " (" ++ textOfNat sections ++ " sections)"], [])

def checkFiles (tree : FileTree) (directory : Place) (verbose : Bool) (paths : List Path) :
    Outcome :=
  match tree.build directory paths with
  | .error missing => .broken (.file missing) []
  | .ok build =>
      let reports := paths.map (checkReport build)
      let summary :=
        if build.ok then []
        else ["", textOfNat build.failures.length ++ " of " ++ textOfNat paths.length
          ++ " script(s) failed"]
      .ended (if build.ok then 0 else 1) (reports.flatMap Prod.fst)
        (logLines verbose build.events ++ reports.flatMap Prod.snd ++ summary)

def manifestFiles (tree : FileTree) (directory : Place) (path : Path) :
    Except Outcome (List Path) :=
  if tree.lacks directory path then
    .error (.ended 1 [] ["No script files given and no manifest at " ++ path.text])
  else
    match Manifest.load tree directory path with
    | .error fault =>
        if fault.isRefusal then
          .error (.ended 1 [] ["Error loading manifest: " ++ fault.message path])
        else .error (.broken (.manifest path fault) [])
    | .ok manifest =>
        match tree.discover directory manifest.root manifest.scriptPaths manifest.extension with
        | .error fault => .error (.broken (.search fault) [])
        | .ok [] => .error (.ended 1 [] ["No script files found."])
        | .ok paths => .ok paths

def filesToCheck (tree : FileTree) (directory : Place) (files : List String)
    (manifest : String) : Except Outcome (List Path) :=
  if files.isEmpty then manifestFiles tree directory (.ofString manifest)
  else
    let paths := files.map Path.ofString
    match paths.find? (!tree.hasFile directory ·) with
    | none => .ok paths
    | some path => .error (noFile path)

def check (tree : FileTree) (directory : Place) (verbose : Bool) (files : List String)
    (manifest : String) : Outcome :=
  match filesToCheck tree directory files manifest with
  | .error outcome => outcome
  | .ok paths => checkFiles tree directory verbose paths

/-! ## Dump -/

inductive Format where
  | json
  | text
deriving DecidableEq, Repr

namespace Format

def ofName? : String → Option Format
  | "json" => some .json
  | "text" => some .text
  | _ => none

def apply (format : Format) (script : Script) : String :=
  match format with
  | .json => script.display.json
  | .text => script.render

end Format

def selected (script : Script) : Option String → Option Script
  | none => some script
  | some name => (script.find? name).map fun instructions => ⟨[(name, instructions)]⟩

def dumpFile (tree : FileTree) (directory : Place) (verbose : Bool) (path : Path)
    (sectionName : Option String) (format : Format) : Outcome :=
  match tree.compileFile directory path with
  | .error fault => .broken (.file ⟨path, fault⟩) []
  | .ok (.error diagnostic) => .ended 1 [] ["Error: " ++ diagnostic.description]
  | .ok (.ok compilation) =>
      let log := logLines verbose compilation.events
      match selected compilation.script sectionName with
      | some script => .ended 0 [format.apply script] log
      | none =>
          let name := Text.quoted (sectionName.getD "")
          .ended 1 [] (log ++ ["No section named " ++ name ++ " in " ++ path.text])

def dump (tree : FileTree) (directory : Place) (verbose : Bool) (file : String)
    (sectionName : Option String) (format : String) : Outcome :=
  let path := Path.ofString file
  if tree.hasFile directory path then
    match Format.ofName? format with
    | some format => dumpFile tree directory verbose path sectionName format
    | none => .ended 1 [] ["Unknown format: " ++ format ++ " (expected json or text)"]
  else noFile path

/-! ## Whole runs -/

def Request.compiles (tree : FileTree) (directory : Place) : Request → List Path
  | .check files manifest => (filesToCheck tree directory files manifest).toOption.getD []
  | .dump file _ format =>
      let path := Path.ofString file
      if tree.hasFile directory path && (Format.ofName? format).isSome then [path] else []
  | _ => []

def nestsTooDeep (tree : FileTree) (directory : Place) (path : Path) : Bool :=
  match tree.read directory path with
  | .error _ => false
  | .ok bytes =>
      match Text.Utf8.decode bytes with
      | .error _ => false
      | .ok text => Guarded.nestsTooDeep Guarded.maxCalls text

/-- What an invocation comes to if no file nests too deep. The program is of the version that its
own distribution has among the installed ones. -/
def perform (tree : FileTree) (directory : Place) (installed : List (String × String))
    (invocation : Invocation) : Outcome :=
  match invocation.request with
  | .help => .ended 0 usageLines []
  | .version =>
      let version := Version.ofInstallation installed Version.distributionName
      .ended 0 ["pakscript version " ++ version] []
  | .check files manifest => check tree directory invocation.verbose files manifest
  | .dump file sectionName format =>
      dump tree directory invocation.verbose file sectionName format

/-- At a file that nests too deep the run is broken off, with nothing to show but the log of the
files before it. -/
def run (tree : FileTree) (directory : Place) (installed : List (String × String))
    (words : List String) : Outcome :=
  match readInvocation words with
  | none => usageError
  | some invocation =>
      let paths := invocation.request.compiles tree directory
      if paths.any (nestsTooDeep tree directory) then
        let before := paths.takeWhile (!nestsTooDeep tree directory ·)
        match tree.buildOnto directory .empty before with
        | .error missing => .broken (.file missing) []
        | .ok build => .broken .tooDeep (logLines invocation.verbose build.events)
      else perform tree directory installed invocation

end EventScript.CommandLine
