import EventScript.CommandLine.Run

/-! The program. It copies the files that a command line leads to into a file tree, runs
the command line there, and prints what the run leaves behind. -/

namespace EventScript.Program

def installed : List (String × String) :=
  [(Version.distributionName, "0.1.0")]

def workingDirectory : IO Place := do
  return (Path.ofString (← IO.currentDir).toString).components

def addPlace (tree : FileTree) (place : Place) : IO FileTree := do
  let path := (← IO.currentDir) / (Path.ofPlace place).text
  if tree.exists? place then return tree
  else if ← path.isDir then
    return { tree with directories := tree.directories ++ [place] }
  else if ← path.pathExists then
    let content ← IO.FS.readBinFile path
    return { tree with files := tree.files ++ [(place, content.toList)] }
  else return tree

def addPath (directory : Place) (tree : FileTree) (path : Path) : IO FileTree := do
  let mut tree := tree
  let mut here := if path.anchor = .relative then directory else []
  for step in path.components do
    here := FileTree.stepFrom here step
    tree ← addPlace tree here
  return tree

partial def addBelow (tree : FileTree) (place : Place) : IO FileTree := do
  let mut tree ← addPlace tree place
  let path := (← IO.currentDir) / (Path.ofPlace place).text
  if ← path.isDir then
    for entry in ← path.readDir do
      tree ← addBelow tree (place ++ [entry.fileName])
  return tree

/-- The highest place that a search may lead to which begins at a search path: one above
for every time that the extension leads up. -/
def searchTop (directory : Place) (manifest : Manifest) (path : String) : Place :=
  let place := (manifest.root.join (.ofString path)).resolve directory
  place.take (place.length - (Path.ofString manifest.extension).components.count "..")

def survey (directory : Place) (request : CommandLine.Request) : IO FileTree := do
  let bare : FileTree := ⟨[], [directory]⟩
  match request with
  | .help | .version => return bare
  | .dump file _ _ => addPath directory bare (.ofString file)
  | .check [] manifest => do
      let tree ← addPath directory bare (.ofString manifest)
      match Manifest.load tree directory (.ofString manifest) with
      | .error _ => return tree
      | .ok manifest =>
          (manifest.scriptPaths.map (searchTop directory manifest)).foldlM addBelow tree
  | .check files _ => files.foldlM (fun tree file => addPath directory tree (.ofString file)) bare

end EventScript.Program

open EventScript in
def main (words : List String) : IO UInt32 := do
  let directory ← Program.workingDirectory
  let tree ←
    match CommandLine.readInvocation words with
    | some invocation => Program.survey directory invocation.request
    | none => pure ⟨[], [directory]⟩
  let outcome := CommandLine.run tree directory Program.installed words
  IO.print outcome.stdout
  IO.eprint outcome.stderr
  if let some breakdown := outcome.breakdown then
    IO.eprintln breakdown.message
  return outcome.exitCode.toUInt32
