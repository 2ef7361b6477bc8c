import EventScript.Files.Search

/-! Discovery of script files: every file of the right extension below the search
directories, once, in the order of the paths. -/

namespace EventScript

inductive SearchFault where
  | unusableExtension (extension : String)
  | unusablePath (path : Path) (fault : FileFault)
deriving DecidableEq, Repr

namespace SearchFault

def message : SearchFault → String
  | .unusableExtension extension => "No file name pattern: " ++ Text.quoted ("*" ++ extension)
  | .unusablePath path fault => fault.message path

end SearchFault

def Path.notAfter (first second : Path) : Bool :=
  !second.components.lex first.components fun one other =>
    one.toList.lex other.toList fun c d => c.toNat < d.toNat

namespace FileTree

def searchDirectory? (tree : FileTree) (directory : Place) (root : Path) (path : String) :
    Except SearchFault (Option Place) :=
  let whole := root.join (.ofString path)
  let place := whole.resolve directory
  if whole.hasNull then .error (.unusablePath whole .nullCharacter)
  else if tree.cannotAsk [] (.ofPlace place) then
    .error (.unusablePath (.ofPlace place) .nameTooLong)
  else .ok (if tree.isDirectory place then some place else none)

/-- An extension that makes no pattern is noticed where there is a directory to search, and so is a
path that cannot be looked up. -/
def discoverBelow (tree : FileTree) (directory : Place) (root : Path) (extension path : String) :
    Except SearchFault (List Path) := do
  match ← tree.searchDirectory? directory root path with
  | none => return []
  | some place =>
      match PathPattern.atAnyDepth? ("*" ++ extension) with
      | none => .error (.unusableExtension extension)
      | some pattern =>
          match tree.stumblesAt? pattern place with
          | some path => .error (.unusablePath path .nameTooLong)
          | none => return tree.search pattern place

def discover (tree : FileTree) (directory : Place) (root : Path) (paths : List String)
    (extension : String) : Except SearchFault (List Path) := do
  let found ← paths.mapM (tree.discoverBelow directory root extension)
  return found.flatten.eraseDups.mergeSort Path.notAfter

end FileTree

end EventScript
