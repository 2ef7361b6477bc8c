import EventScript.Files.Path
import EventScript.Text.Quoted

/-! File trees without links: which files and directories there are, and what the
files hold. Places in a tree are named by the components that lead there from
its root. -/

namespace EventScript

abbrev Place : Type := List String

def Path.ofPlace (place : Place) : Path :=
  ⟨.root, place⟩

structure FileTree where
  files : List (Place × List UInt8)
  directories : List Place
deriving Repr

inductive FileFault where
  | missing
  | notDirectory
  | isDirectory
  | nameTooLong
  | nullCharacter
deriving DecidableEq, Repr

namespace FileFault

def message (fault : FileFault) (path : Path) : String :=
  let about (reason : String) : String := reason ++ ": " ++ Text.quoted path.text
  match fault with
  | .missing => about "[Errno 2] No such file or directory"
  | .notDirectory => about "[Errno 20] Not a directory"
  | .isDirectory => about "[Errno 21] Is a directory"
  | .nameTooLong => about "[Errno 36] File name too long"
  | .nullCharacter => "embedded null byte"

end FileFault

namespace FileTree

def isDirectory (tree : FileTree) (place : Place) : Bool :=
  place.isEmpty
    || tree.directories.any (place.isPrefixOf ·)
    || tree.files.any fun file => place.isPrefixOf file.1 && place.length < file.1.length

def content? (tree : FileTree) (place : Place) : Option (List UInt8) :=
  tree.files.lookup place

def exists? (tree : FileTree) (place : Place) : Bool :=
  tree.isDirectory place || (tree.content? place).isSome

def places (tree : FileTree) : List Place :=
  tree.files.map Prod.fst ++ tree.directories

def maxNameBytes : Nat := 255

def maxPathBytes : Nat := 4095

def stepFrom (place : Place) (step : String) : Place :=
  if step = ".." then place.dropLast else place ++ [step]

def walk (tree : FileTree) : Place → List String → Except FileFault Place
  | place, [] => .ok place
  | place, step :: rest =>
      if tree.isDirectory place then
        let next := stepFrom place step
        if tree.exists? next then tree.walk next rest
        else if maxNameBytes < step.utf8ByteSize then .error .nameTooLong
        else .error .missing
      else .error .notDirectory

/-- Whether a path is longer than usual. What is in a tree can be looked up there, so a path is not
too long that is no longer than one of those. -/
def isOverlong (tree : FileTree) (path : Path) : Bool :=
  maxPathBytes < path.text.utf8ByteSize
    && tree.places.all fun place => (Path.ofPlace place).text.utf8ByteSize < path.text.utf8ByteSize

def follow (tree : FileTree) (directory : Place) (path : Path) : Except FileFault Place :=
  if path.hasNull then .error .nullCharacter
  else if tree.isOverlong path then .error .nameTooLong
  else
    match path.anchor with
    | .relative => tree.walk directory path.components
    | _ => tree.walk [] path.components

/-- Whether it cannot be found out where a path leads, because it is or holds a name too long. -/
def cannotAsk (tree : FileTree) (directory : Place) (path : Path) : Bool :=
  match tree.follow directory path with
  | .error .nameTooLong => true
  | _ => false

/-- Whether a path is known to lead nowhere, which it is not where that cannot be found out. -/
def lacks (tree : FileTree) (directory : Place) (path : Path) : Bool :=
  match tree.follow directory path with
  | .ok _ | .error .nameTooLong => false
  | .error _ => true

def hasFile (tree : FileTree) (directory : Place) (path : Path) : Bool :=
  match tree.follow directory path with
  | .ok place => (tree.content? place).isSome
  | .error _ => false

def read (tree : FileTree) (directory : Place) (path : Path) :
    Except FileFault (List UInt8) :=
  match tree.follow directory path with
  | .error fault => .error fault
  | .ok place =>
      match tree.content? place with
      | some content => .ok content
      | none => .error .isDirectory

end FileTree

/-- Where a path leads by its components alone, whether or not they exist. -/
def Path.resolve (directory : Place) (path : Path) : Place :=
  match path.anchor with
  | .relative => path.components.foldl FileTree.stepFrom directory
  | _ => path.components.foldl FileTree.stepFrom []

end EventScript
