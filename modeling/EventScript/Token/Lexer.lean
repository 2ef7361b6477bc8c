import EventScript.Token.Lexeme
import EventScript.Token.Stream

/-! Tokens of a text, with their places. A lexer is a reader that stands somewhere
in a text and keeps the tokens it has collected; tokenizing a text is what a
lexer does that stands at its beginning. -/

namespace EventScript

structure LexicalError where
  fault : LexicalFault
  place : Position
deriving DecidableEq, Repr

namespace Scan

def locate : Position → List Lexeme → List Token
  | _, [] => []
  | place, lexeme :: rest =>
      let here := place.after lexeme.blanks
      ⟨lexeme.kind, String.ofList lexeme.value, here⟩ :: locate (here.after lexeme.source) rest

def tokens (scan : Scan) (place : Position) : List Token :=
  locate place scan.lexemes

def finish (scan : Scan) (place : Position) : Position :=
  place.after (scan.lexemeText ++ scan.blanks)

end Scan

namespace Tokens

def ofText (text : String) : Except LexicalError Tokens :=
  let scan := Scan.read text.toList
  match scan.fault with
  | none => .ok ⟨scan.tokens .start, scan.finish .start⟩
  | some fault => .error ⟨fault, scan.finish .start⟩

end Tokens

structure Lexer where
  behind : List Char
  ahead : List Char
  place : Position
  collected : List Token
deriving DecidableEq, Repr

namespace Lexer

def start (text : String) : Lexer :=
  ⟨[], text.toList, .start, []⟩

def offset (lexer : Lexer) : Nat :=
  lexer.behind.length

def current (lexer : Lexer) : Option Char :=
  lexer.ahead.head?

/-- The character some places after the current one, if there is one. The outer result is missing
for a place that, counted from either end, lies before the text. -/
def peek? (lexer : Lexer) (distance : Int) : Option (Option Char) :=
  let text := lexer.behind.reverse ++ lexer.ahead
  (Text.index? text.length (lexer.offset + distance)).map fun index => text[index]?

/-- Every operation moves a lexer in this way alone. -/
def move (count : Nat) (lexer : Lexer) : Lexer :=
  let passed := lexer.ahead.take count
  { lexer with
    behind := passed.reverse ++ lexer.behind
    ahead := lexer.ahead.drop count
    place := lexer.place.after passed }

def advance (lexer : Lexer) : Lexer :=
  lexer.move 1

def skipBlanks (lexer : Lexer) : Lexer :=
  lexer.move (lexer.ahead.takeWhile Text.isBlank).length

def readWhile (continues : Char → Bool) (lexer : Lexer) : String × Lexer :=
  let run := lexer.ahead.takeWhile continues
  (String.ofList run, lexer.move run.length)

def readInteger : Lexer → String × Lexer :=
  readWhile Text.isDigit

def readName : Lexer → String × Lexer :=
  readWhile Text.isNamePart

/-- A string literal whose opening quote is the current character, which is passed
unseen. An unterminated literal leaves the lexer where the literal breaks off. -/
def readString (lexer : Lexer) : Except LexicalError String × Lexer :=
  let body := Text.LiteralBody.read lexer.ahead.tail
  if body.closed then
    (.ok (String.ofList body.value), lexer.move (body.source.length + 2))
  else
    (.error ⟨.unterminated, lexer.place⟩, lexer.move (body.source.length + 1))

def tokenize (lexer : Lexer) : Except LexicalError (List Token) × Lexer :=
  let scan := Scan.read lexer.ahead
  let found := scan.tokens lexer.place
  let finish := scan.finish lexer.place
  let moved := lexer.move scan.source.length
  match scan.fault with
  | none =>
      let added := found ++ [.atEnd finish]
      (.ok added, { moved with collected := lexer.collected ++ added })
  | some fault =>
      (.error ⟨fault, finish⟩, { moved with collected := lexer.collected ++ found })

end Lexer

end EventScript
