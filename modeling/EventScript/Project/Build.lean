import EventScript.Compile
import EventScript.Files.Tree
import EventScript.Text.Utf8

/-! Compilation of files. A file is compiled as a whole or not at all; a project goes on
after a failure, so that every failing file is reported. -/

namespace EventScript

namespace Text.Utf8.Malformed

/-- Where the broken character stands in the bytes it was found in, with every byte
taking a column. -/
def place (malformed : Malformed) (bytes : List UInt8) : Position :=
  let before := bytes.take malformed.offset
  { line := before.count 10 + 1
    column := (before.reverse.takeWhile (· != 10)).length + 1 }

def diagnostic (malformed : Malformed) (file : Path) (bytes : List UInt8) : Diagnostic :=
  let place := malformed.place bytes
  { message := "File is not valid UTF-8 (byte " ++ byteText malformed.byte ++ ")"
    context := some { file := file, line := place.line, column := place.column, excerpt := none } }

end Text.Utf8.Malformed

def compileBytes (file : Path) (bytes : List UInt8) : Except Diagnostic Compilation :=
  match Text.Utf8.decode bytes with
  | .error malformed => .error (malformed.diagnostic file bytes)
  | .ok text => compile file text

/-- The outer result says whether there is such a file. -/
def FileTree.compileFile (tree : FileTree) (directory : Place) (path : Path) :
    Except FileFault (Except Diagnostic Compilation) :=
  (tree.read directory path).map (compileBytes path)

/-- What became of a list of files: the scripts by path, in the order of their first
occurrence, the failures in order, and all events. -/
structure Build where
  scripts : List (Path × Script)
  failures : List (Path × Diagnostic)
  events : List Event
deriving Repr

namespace Build

def empty : Build := ⟨[], [], []⟩

def ok (build : Build) : Bool :=
  build.failures.isEmpty

def fileScript (scripts : List (Path × Script)) (path : Path) (script : Script) :
    List (Path × Script) :=
  if (scripts.lookup path).isSome then
    scripts.map fun entry => if entry.1 = path then (path, script) else entry
  else scripts ++ [(path, script)]

def add (build : Build) (path : Path) : Except Diagnostic Compilation → Build
  | .ok compilation =>
      { build with
        scripts := fileScript build.scripts path compilation.script
        events := build.events ++ compilation.events }
  | .error diagnostic =>
      { build with
        failures := build.failures ++ [(path, diagnostic)]
        events := build.events ++ [.failed path] }

end Build

structure MissingFile where
  path : Path
  fault : FileFault
deriving DecidableEq, Repr

namespace FileTree

def buildOnto (tree : FileTree) (directory : Place) :
    Build → List Path → Except MissingFile Build
  | build, [] => .ok build
  | build, path :: rest =>
      match tree.compileFile directory path with
      | .error fault => .error ⟨path, fault⟩
      | .ok result => tree.buildOnto directory (build.add path result) rest

def build (tree : FileTree) (directory : Place) (paths : List Path) :
    Except MissingFile Build :=
  match tree.buildOnto directory .empty paths with
  | .error missing => .error missing
  | .ok build =>
      .ok { build with
        events := build.events
          ++ [.built (paths.length - build.failures.length) paths.length] }

end FileTree

end EventScript
