import EventScript.Guarded.Run
import EventScript.Token.Lexer

/-! Scanners. A text is cut into tokens character by character, with every index checked and every
loop held to pass something. -/

namespace EventScript.Guarded

open Run

/-! ## Characters -/

structure Cursor where
  index : Nat
  place : Position
deriving DecidableEq, Repr

abbrev Scanner (α : Type) : Type :=
  Run (List Char) Cursor LexicalError α

namespace Scanner

def left (text : List Char) (cursor : Cursor) : Nat :=
  text.length - cursor.index

def charAt (index : Nat) : Scanner Char := do
  match (← input)[index]? with
  | some c => return c
  | none => fail .outOfRange

def look (distance : Nat) : Scanner (Option Char) := do
  let index := (← state).index + distance
  if (← input).length ≤ index then return none
  else return some (← charAt index)

def advance : Scanner Unit := do
  let cursor ← state
  if cursor.index < (← input).length then
    let c ← charAt cursor.index
    put ⟨cursor.index + 1, cursor.place.next c⟩
  else return ()

/-! ## Pieces of text -/

def runRound (continues : Char → Bool) (run : List Char) : Scanner (List Char ⊕ List Char) := do
  match ← look 0 with
  | none => return .inr run
  | some c =>
      if continues c then
        advance
        return .inl (run ++ [c])
      else return .inr run

def readWhile (continues : Char → Bool) : Scanner (List Char) :=
  rounds left (runRound continues) []

def skipBlanks : Scanner Unit := do
  let _ ← readWhile Text.isBlank

/-- One round inside a literal: a character, or a backslash and the character it takes with it. -/
def literalRound (value : List Char) : Scanner (List Char ⊕ List Char) := do
  match ← look 0 with
  | none => return .inr value
  | some c =>
      if c = '"' ∨ c = '\n' then return .inr value
      else if c = '\\' then
        advance
        match ← look 0 with
        | none => return .inr value
        | some escaped =>
            if escaped = '\n' then return .inr value
            else
              advance
              return .inl (value ++ [Text.unescape escaped])
      else
        advance
        return .inl (value ++ [c])

def readString : Scanner (List Char) := do
  let start := (← state).place
  advance
  let value ← rounds left literalRound []
  if (← look 0) = some '"' then
    advance
    return value
  else fail (.refused ⟨.unterminated, start⟩)

def pass : List Char → Scanner Unit
  | [] => return ()
  | _ :: others => do
      advance
      pass others

def sign (kind : TokenKind) (source : List Char) : Scanner (TokenKind × List Char) := do
  pass source
  return (kind, source)

def startsWith (source : List Char) : Scanner Bool := do
  return source.isPrefixOf ((← input).drop (← state).index)

/-- The signs of one character that no longer one begins with. -/
def singles : List (Char × TokenKind) :=
  [('(', .leftParen), (')', .rightParen), ('[', .leftBracket), (']', .rightBracket), (',', .comma),
   ('+', .plus), ('-', .minus), ('*', .star), ('/', .slash), ('%', .percent)]

def piece (first : Char) : Scanner (TokenKind × List Char) := do
  let next ← look 1
  if first = '\n' then sign .newline ['\n']
  else if first = '\r' ∧ next = some '\n' then sign .newline ['\r', '\n']
  else if first = '"' then return (.string, ← readString)
  else if Text.isDigit first then return (.integer, ← readWhile Text.isDigit)
  else if Text.isNameStart first then return (.identifier, ← readWhile Text.isNamePart)
  else if ← startsWith ['-', '-', '-'] then sign .sectionMarker ['-', '-', '-']
  else if first = '=' ∧ next = some '=' then sign .equal ['=', '=']
  else if first = '!' ∧ next = some '=' then sign .notEqual ['!', '=']
  else if first = '<' then
    if next = some '=' then sign .lessEqual ['<', '='] else sign .less ['<']
  else if first = '>' then
    if next = some '=' then sign .greaterEqual ['>', '='] else sign .greater ['>']
  else
    match singles.lookup first with
    | some kind => sign kind [first]
    | none => fail (.refused ⟨.unexpected first, (← state).place⟩)

/-! ## Texts -/

def tokenRound (found : List Token) : Scanner (List Token ⊕ List Token) := do
  skipBlanks
  match ← look 0 with
  | none => return .inr found
  | some first =>
      let place := (← state).place
      let (kind, value) ← piece first
      return .inl (found ++ [⟨kind, String.ofList value, place⟩])

def tokenize : Scanner (List Token) := do
  let found ← rounds left tokenRound []
  return found ++ [.atEnd (← state).place]

end Scanner

end EventScript.Guarded
