import EventScript.Files.Pattern
import Mathlib.Data.List.Forall2

/-! Names that a pattern stands for. A star stands for any text in front of what the rest of the
pattern stands for, and a text without signs stands for itself. Any other text stands for names that
do not end in it, or for no name at all. -/

namespace EventScript.NamePart

/-! ## Matching -/

variable {parts : List NamePart} {name : List Char}

def singles (parts : List NamePart) : List NamePart :=
  parts.filter (· ≠ .anyText)

theorem singles_cons {part : NamePart} (single : part ≠ .anyText) :
    singles (part :: parts) = part :: singles parts := by
  simp [singles, single]

/-- A text without signs of a pattern: it has no star, no question mark and no bracket that is
closed. -/
structure Plain (text : List Char) : Prop where
  star : '*' ∉ text
  question : '?' ∉ text
  bracket : ∀ rest, '[' :: rest <:+ text → bracket? rest = none

def ofUnbracketed (c : Char) : NamePart :=
  if c = '?' then .anyChar else .char c

theorem ofUnbracketed_ne (c : Char) : ofUnbracketed c ≠ .anyText := by
  unfold ofUnbracketed
  split
  · simp
  · simp

/-- Parts that take fewer characters than they are written with, if they are not read from them one
by one. -/
def Shortened (text : List Char) (parts : List NamePart) : Prop :=
  (singles parts).length < text.length ∨ parts = text.map ofUnbracketed

theorem Shortened.length_le {text : List Char} (shortened : Shortened text parts) :
    (singles parts).length ≤ text.length := by
  rcases shortened with fewer | rfl
  · exact Nat.le_of_lt fewer
  · simpa [singles] using List.length_filter_le (· ≠ .anyText) (text.map ofUnbracketed)

theorem Shortened.cons {text : List Char} (shortened : Shortened text parts) (c : Char) :
    Shortened (c :: text) (ofUnbracketed c :: parts) := by
  rcases shortened with fewer | rfl
  · rw [Shortened, singles_cons (ofUnbracketed_ne c)]
    exact .inl (Nat.succ_lt_succ fewer)
  · exact .inr rfl

end EventScript.NamePart
