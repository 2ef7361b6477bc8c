import EventScript.Text.LetterRanges
import EventScript.Text.NumberRanges

/-! The character classes of the token rules. Names may use every letter and number of Unicode 14,
while integers use ASCII digits only. ASCII is decided by comparison and never looks into a table.
-/

namespace EventScript.Text

def isBlank (c : Char) : Bool :=
  c == ' ' || c == '\t'

def isDigit (c : Char) : Bool :=
  '0' ≤ c && c ≤ '9'

def isLetter (c : Char) : Bool :=
  if c.toNat < 128 then c.isAlpha else inRanges letterRanges c

def isNumber (c : Char) : Bool :=
  if c.toNat < 128 then isDigit c else inRanges numberRanges c

def isNameStart (c : Char) : Bool :=
  isLetter c || c == '_'

def isNamePart (c : Char) : Bool :=
  isLetter c || isNumber c || c == '_' || c == '-'

theorem isNamePart_of_isNameStart {c : Char} (start : isNameStart c = true) :
    isNamePart c = true := by
  simp only [isNameStart, Bool.or_eq_true] at start
  simp only [isNamePart, Bool.or_eq_true]
  rcases start with letter | underscore
  · exact .inl (.inl (.inl letter))
  · exact .inl (.inr underscore)

end EventScript.Text
