import EventScript.Toml.Reader
import EventScript.Toml.Value

/-! TOML numbers, dates and times. Each reader takes the longest literal of its kind;
what is left over makes the statement around it fail. -/

namespace EventScript.Toml

open Text (isDigit)

/-! ## Dates and times -/

def twoDigits (low high : Nat) : Reader Nat := do
  let number := numberInBase 10 (← Reader.exactly 2 isDigit)
  if low ≤ number ∧ number ≤ high then return number else Reader.fail

def timeOfDay : Reader Unit := do
  let _ ← twoDigits 0 23
  Reader.demand [':']
  let _ ← twoDigits 0 59
  Reader.demand [':']
  let _ ← twoDigits 0 59
  let _ ← Reader.optional do
    Reader.demand ['.']
    let digits ← Reader.run isDigit
    if digits.isEmpty then Reader.fail

def offset : Reader Unit := do
  let _ ← Reader.optional do
    match ← Reader.char fun _ => true with
    | 'Z' | 'z' => return ()
    | '+' | '-' => do
        let _ ← twoDigits 0 23
        Reader.demand [':']
        let _ ← twoDigits 0 59
    | _ => Reader.fail

def isLeapYear (year : Nat) : Bool :=
  year % 4 == 0 && (year % 100 != 0 || year % 400 == 0)

def daysInMonth (year month : Nat) : Nat :=
  if month = 2 then if isLeapYear year then 29 else 28
  else if month = 4 ∨ month = 6 ∨ month = 9 ∨ month = 11 then 30
  else 31

def date : Reader Bool := do
  let year := numberInBase 10 (← Reader.exactly 4 isDigit)
  Reader.demand ['-']
  let month ← twoDigits 1 12
  Reader.demand ['-']
  let day ← twoDigits 1 31
  return year ≠ 0 ∧ day ≤ daysInMonth year month

def timeAfterDate : Reader Bool := do
  let time ← Reader.optional do
    let _ ← Reader.char fun c => c == 'T' || c == 't' || c == ' '
    timeOfDay
    offset
  return time.isSome

/-- The outer result says whether the text has such a form; the inner one is missing for a day that
no calendar has. -/
def moment : Reader (Option Moment) := do
  let before ← Reader.ahead
  let source (after : List Char) : String :=
    String.ofList (before.take (before.length - after.length))
  match ← Reader.optional date with
  | some valid =>
      let timed ← timeAfterDate
      let kind := if timed then MomentKind.dateTime else MomentKind.date
      if valid then return some ⟨kind, source (← Reader.ahead)⟩ else return none
  | none =>
      timeOfDay
      return some ⟨.time, source (← Reader.ahead)⟩

/-! ## Numbers -/

/-- Digits that may have single underscores between them, read after the first digit
as far as they go. -/
def moreDigits (isDigit : Char → Bool) : List Char → List Char × List Char
  | '_' :: c :: rest =>
      if isDigit c then
        let (digits, rest) := moreDigits isDigit rest
        (c :: digits, rest)
      else ([], '_' :: c :: rest)
  | c :: rest =>
      if isDigit c then
        let (digits, rest) := moreDigits isDigit rest
        (c :: digits, rest)
      else ([], c :: rest)
  | [] => ([], [])

def digits (isDigit : Char → Bool) : Reader (List Char) := do
  let first ← Reader.char isDigit
  let others ← fun text => .ok (moreDigits isDigit text)
  return first :: others

def markedInteger (mark : Char) (base : Nat) (isDigit : Char → Bool) : Reader Int := do
  Reader.demand ['0', mark]
  return numberInBase base (← digits isDigit)

def sign : Reader Bool := do
  if ← Reader.accept ['-'] then return true
  let _ ← Reader.accept ['+']
  return false

def wholePart : Reader (List Char) := do
  if ← Reader.accept ['0'] then return ['0']
  digits isDigit

def fractionPart : Reader (List Char) := do
  Reader.demand ['.']
  digits isDigit

def exponentPart : Reader Int := do
  let _ ← Reader.char fun c => c == 'e' || c == 'E'
  let negative ← sign
  let size : Int := numberInBase 10 (← digits isDigit)
  return if negative then -size else size

/-- A decimal number is a float if it has a fraction or an exponent, and only without them the
number of its digits is limited. -/
def decimalNumber : Reader Value := do
  let negative ← sign
  let whole ← wholePart
  let fraction ← Reader.optional fractionPart
  let exponent ← Reader.optional exponentPart
  if fraction.isNone && exponent.isNone then
    if Text.Decimal.maxDigits < whole.length then throw (.integerTooLong whole.length)
    let size : Int := numberInBase 10 whole
    return .integer (if negative then -size else size)
  let places := fraction.getD []
  return .float
    (.decimal negative (numberInBase 10 (whole ++ places)) (exponent.getD 0 - places.length))

def namedFloat : Reader Value := do
  let negative ← sign
  if ← Reader.accept ['i', 'n', 'f'] then return .float (.infinity negative)
  Reader.demand ['n', 'a', 'n']
  return .float .notANumber

def firstOf {α : Type} : List (Reader α) → Reader α
  | [] => Reader.fail
  | reader :: others => do
      match ← Reader.optional reader with
      | some value => return value
      | none => firstOf others

def number : Reader Value :=
  firstOf
    [do return .integer (← markedInteger 'x' 16 isHexDigit),
     do return .integer (← markedInteger 'b' 2 fun c => c == '0' || c == '1'),
     do return .integer (← markedInteger 'o' 8 fun c => '0' ≤ c && c ≤ '7'),
     decimalNumber,
     namedFloat]

def boolean : Reader Value := do
  if ← Reader.accept ['t', 'r', 'u', 'e'] then return .boolean true
  Reader.demand ['f', 'a', 'l', 's', 'e']
  return .boolean false

def scalar : Reader Value := do
  match ← Reader.optional boolean with
  | some value => return value
  | none =>
      match ← Reader.optional moment with
      | some (some value) => return .moment value
      | some none => Reader.fail
      | none => number

end EventScript.Toml
