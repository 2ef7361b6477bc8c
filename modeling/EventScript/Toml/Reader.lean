import EventScript.Text.Alphabet

/-! Readers of TOML text. A reader takes what it needs from the front of a text, or
fails; a document with a failure anywhere is no TOML at all, so no reader says
where it failed. -/

namespace EventScript.Toml

open Text (isBlank isDigit)

inductive Flaw where
  | malformed
  | integerTooLong (digits : Nat)
deriving DecidableEq, Repr

abbrev Reader : Type → Type := StateT (List Char) (Except Flaw)

namespace Reader

def ahead : Reader (List Char) := get

def fail {α : Type} : Reader α := fun _ => .error .malformed

/-- A value, where its absence is a failure. -/
def ofOption {α : Type} : Option α → Reader α
  | some value => pure value
  | none => fail

def char (condition : Char → Bool) : Reader Char := fun text =>
  match text with
  | c :: rest => if condition c then .ok (c, rest) else .error .malformed
  | [] => .error .malformed

def run (condition : Char → Bool) : Reader (List Char) := fun text =>
  .ok (text.takeWhile condition, text.dropWhile condition)

def accept (expected : List Char) : Reader Bool := fun text =>
  if expected.isPrefixOf text then .ok (true, text.drop expected.length) else .ok (false, text)

def demand (expected : List Char) : Reader Unit := do
  if !(← accept expected) then fail

def exactly (count : Nat) (condition : Char → Bool) : Reader (List Char) := fun text =>
  let taken := text.take count
  if taken.length = count && taken.all condition then .ok (taken, text.drop count)
  else .error .malformed

/-- Takes nothing if the text is not of the reader's form. -/
def optional {α : Type} (reader : Reader α) : Reader (Option α) := fun text =>
  match reader text with
  | .ok (value, rest) => .ok (some value, rest)
  | .error .malformed => .ok (none, text)
  | .error flaw => .error flaw

end Reader

/-! ## Character classes -/

def isBlankOrNewline (c : Char) : Bool :=
  isBlank c || c == '\n'

/-- The tab may stand in a text as it is. -/
def isControl (c : Char) : Bool :=
  (c.toNat < 32 && c != '\t') || c.toNat == 127

def isControlInLines (c : Char) : Bool :=
  isControl c && c != '\n'

def isHexDigit (c : Char) : Bool :=
  isDigit c || ('a' ≤ c && c ≤ 'f') || ('A' ≤ c && c ≤ 'F')

def isBareKeyChar (c : Char) : Bool :=
  c.isAlphanum || c == '-' || c == '_'

def digitValue (c : Char) : Nat :=
  if isDigit c then c.toNat - '0'.toNat
  else if 'a' ≤ c && c ≤ 'f' then c.toNat - 'a'.toNat + 10
  else if 'A' ≤ c && c ≤ 'F' then c.toNat - 'A'.toNat + 10
  else 0

def numberInBase (base : Nat) (digits : List Char) : Nat :=
  digits.foldl (fun value digit => value * base + digitValue digit) 0

/-! ## Blanks and comments -/

def skipBlanks : Reader Unit := do
  let _ ← Reader.run isBlank

def skipComment : Reader Unit := do
  if ← Reader.accept ['#'] then
    let comment ← Reader.run (· != '\n')
    if comment.any isControl then Reader.fail

def skipSpace : (fuel : Nat) → Reader Unit
  | 0 => pure ()
  | fuel + 1 => do
      let _ ← Reader.run isBlankOrNewline
      if (← Reader.ahead).head? == some '#' then
        skipComment
        skipSpace fuel

def skipArraySpace : Reader Unit := do
  skipSpace (← Reader.ahead).length

end EventScript.Toml
