import EventScript.Files.Path
import EventScript.Text.CodeRange

/-! File name patterns. A star stands for any text, a question mark for any character,
and brackets for a choice of characters; all else stands for itself. Case counts,
and names that begin with a dot are names like any other. -/

namespace EventScript

/-! ## Brackets -/

inductive BracketItem where
  | single (c : Char)
  | range (first last : Char)
deriving DecidableEq, Repr

namespace BracketItem

def read : List Char → List BracketItem
  | first :: '-' :: last :: rest => .range first last :: read rest
  | c :: rest => .single c :: read rest
  | [] => []

def isEmpty : BracketItem → Bool
  | .single _ => false
  | .range first last => last < first

def codes : BracketItem → Text.CodeRange
  | .single c => ⟨c.toNat, c.toNat⟩
  | .range first last => ⟨first.toNat, last.toNat⟩

end BracketItem

/-! ## Names -/

inductive NamePart where
  | anyText
  | anyChar
  | oneOf (ranges : List Text.CodeRange)
  | noneOf (ranges : List Text.CodeRange)
  | char (c : Char)
deriving DecidableEq, Repr

namespace NamePart

/-- Empty ranges do not count. An exclamation mark at the beginning of what is left excludes what
stands behind it; if this mark begins a range, the hyphen and the end of the range stand behind it
as characters. -/
def ofItems (items : List BracketItem) : NamePart :=
  match items.filter (!·.isEmpty) with
  | .single '!' :: rest => .noneOf (rest.map BracketItem.codes)
  | .range '!' last :: rest =>
      .noneOf ((.single '-' :: .single last :: rest).map BracketItem.codes)
  | items => .oneOf (items.map BracketItem.codes)

def ofBracket : List Char → NamePart
  | '!' :: rest => ofItems (.single '!' :: BracketItem.read rest)
  | body => ofItems (BracketItem.read body)

/-- A closing bracket in front, or behind an exclamation mark in front, is a character like others.
-/
def bracket? (text : List Char) : Option (NamePart × List Char) :=
  let mark := (text.takeWhile (· == '!')).take 1
  let leading := ((text.drop mark.length).takeWhile (· == ']')).take 1
  let begun := mark ++ leading
  let others := text.drop begun.length
  match others.dropWhile (· != ']') with
  | [] => none
  | _ :: rest => some (ofBracket (begun ++ others.takeWhile (· != ']')), rest)

def readWith : (fuel : Nat) → List Char → List NamePart
  | 0, _ => []
  | _ + 1, [] => []
  | fuel + 1, '*' :: rest => .anyText :: readWith fuel rest
  | fuel + 1, '?' :: rest => .anyChar :: readWith fuel rest
  | fuel + 1, '[' :: rest =>
      match bracket? rest with
      | some (part, rest) => part :: readWith fuel rest
      | none => .char '[' :: readWith fuel rest
  | fuel + 1, c :: rest => .char c :: readWith fuel rest

def read (pattern : List Char) : List NamePart :=
  readWith pattern.length pattern

def admits (c : Char) : NamePart → Bool
  | .anyText => false
  | .anyChar => true
  | .oneOf ranges => Text.inRanges ranges c
  | .noneOf ranges => !Text.inRanges ranges c
  | .char expected => c == expected

def matchesName : List NamePart → List Char → Bool
  | [], name => name.isEmpty
  | .anyText :: parts, [] => matchesName parts []
  | .anyText :: parts, c :: rest =>
      matchesName parts (c :: rest) || matchesName (.anyText :: parts) rest
  | _ :: _, [] => false
  | part :: parts, c :: rest => part.admits c && matchesName parts rest
termination_by parts name => parts.length + name.length

/-- An opening bracket writes out nothing, even where it stands for itself. -/
def literalChar? : NamePart → Option Char
  | .char '[' => none
  | .char c => some c
  | _ => none

def literal? (parts : List NamePart) : Option String :=
  (parts.mapM literalChar?).map String.ofList

end NamePart

/-! ## Paths -/

inductive PathStep where
  | anyDepth
  | above
  | named (parts : List NamePart)
deriving DecidableEq, Repr

structure PathPattern where
  steps : List PathStep
  directoriesOnly : Bool
deriving DecidableEq, Repr

namespace PathPattern

def hasTwoStars : List Char → Bool
  | '*' :: '*' :: _ => true
  | _ :: rest => hasTwoStars rest
  | [] => false

def step? (text : String) : Option PathStep :=
  if text = "**" then some .anyDepth
  else if text = ".." then some .above
  else if hasTwoStars text.toList then none
  else some (.named (NamePart.read text.toList))

def atAnyDepth? (text : String) : Option PathPattern := do
  let steps ← (Path.ofString text).components.mapM step?
  return ⟨.anyDepth :: steps, text.toList.getLast? == some '/'⟩

end PathPattern

end EventScript
