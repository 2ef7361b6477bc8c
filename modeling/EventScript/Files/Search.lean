import EventScript.Files.Pattern
import EventScript.Files.Tree

/-! Searches in a tree: the routes that a pattern for paths leads along, and the files they lead to.
A route may go up and down again. -/

namespace EventScript.FileTree

def descents (tree : FileTree) (here : Place) : List (List String) :=
  (tree.places.filter (here.isPrefixOf ·)).map (·.drop here.length)

def childNames (tree : FileTree) (here : Place) : List String :=
  ((tree.descents here).filterMap List.head?).eraseDups

def innerDirectories (tree : FileTree) (here : Place) : List (List String) :=
  let beginnings := (tree.descents here).flatMap fun names =>
    (List.range (names.length + 1)).map names.take
  (beginnings.filter fun names => tree.isDirectory (here ++ names)).eraseDups

def routes (tree : FileTree) : List PathStep → Place → List (List String)
  | [], _ => [[]]
  | .anyDepth :: steps, here =>
      (tree.innerDirectories here).flatMap fun names =>
        (tree.routes steps (here ++ names)).map (names ++ ·)
  | .above :: steps, here =>
      if tree.isDirectory here then (tree.routes steps here.dropLast).map (".." :: ·) else []
  | .named parts :: steps, here =>
      ((tree.childNames here).filter fun name => NamePart.matchesName parts name.toList).flatMap
        fun name => (tree.routes steps (here ++ [name])).map (name :: ·)

/-- What is looked up along steps: directories whose entries are listed, names that are written out,
and all that is found. -/
def asked (tree : FileTree) : List PathStep → Place → List (List String)
  | [], _ => [[]]
  | .anyDepth :: steps, here =>
      (tree.innerDirectories here).flatMap fun names =>
        names :: (tree.asked steps (here ++ names)).map (names ++ ·)
  | .above :: steps, here =>
      if tree.isDirectory here then (tree.asked steps here.dropLast).map (".." :: ·) else []
  | .named parts :: steps, here =>
      if tree.isDirectory here then
        [] :: (NamePart.literal? parts).toList.map ([·]) ++
          ((tree.childNames here).filter fun name => NamePart.matchesName parts name.toList).flatMap
            fun name => (tree.asked steps (here ++ [name])).map (name :: ·)
      else []

def stumblesAt? (tree : FileTree) (pattern : PathPattern) (directory : Place) : Option Path :=
  ((tree.asked pattern.steps directory).map fun names => Path.ofPlace (directory ++ names)).find?
    (tree.cannotAsk [])

def search (tree : FileTree) (pattern : PathPattern) (directory : Place) : List Path :=
  if pattern.directoriesOnly then []
  else
    ((tree.routes pattern.steps directory).map fun names => Path.ofPlace (directory ++ names))
      |>.filter (tree.hasFile [])

end EventScript.FileTree
