import EventScript.Text.Lines

/-! File paths in normal form. Empty and `.` components vanish, `..` stays, and the
path without components is written as a single dot. -/

namespace EventScript

/-- Where a path starts. Exactly two leading slashes are kept apart from one. -/
inductive Anchor where
  | relative
  | root
  | doubleRoot
deriving DecidableEq, Repr

namespace Anchor

def text : Anchor → String
  | .relative => ""
  | .root => "/"
  | .doubleRoot => "//"

def ofSlashes : Nat → Anchor
  | 0 => .relative
  | 2 => .doubleRoot
  | _ => .root

end Anchor

structure Path where
  anchor : Anchor
  components : List String
deriving DecidableEq, Repr

namespace Path

def ofString (text : String) : Path where
  anchor := .ofSlashes (text.toList.takeWhile (· == '/')).length
  components :=
    ((Text.pieces '/' text.toList).map String.ofList).filter fun piece =>
      piece != "" && piece != "."

def text (path : Path) : String :=
  match path.anchor, path.components with
  | .relative, [] => "."
  | anchor, components => anchor.text ++ "/".intercalate components

/-- A bare anchor is its own parent. -/
def parent (path : Path) : Path :=
  { path with components := path.components.dropLast }

def name (path : Path) : String :=
  path.components.getLastD ""

def hasNull (path : Path) : Bool :=
  path.components.any (·.toList.contains '\x00')

/-- An anchored path stands for itself. -/
def join (directory path : Path) : Path :=
  match path.anchor with
  | .relative => { directory with components := directory.components ++ path.components }
  | _ => path

end Path

end EventScript
