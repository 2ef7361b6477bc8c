import EventScript.Text.Index
import EventScript.Token

/-! Token streams. A stream stands at one token of a tokenized text; the token after
the last one is the end of input, so there always is a current token. -/

namespace EventScript

structure Tokens where
  list : List Token
  finish : Position
deriving DecidableEq, Repr

structure TokenStream where
  index : Nat
  ahead : List Token
  finish : Position
deriving DecidableEq, Repr

namespace TokenStream

def current (stream : TokenStream) : Token :=
  stream.ahead.headD (.atEnd stream.finish)

/-- The end of input is never passed. -/
def advance (stream : TokenStream) : TokenStream :=
  match stream.ahead with
  | [] => stream
  | _ :: rest => { stream with index := stream.index + 1, ahead := rest }

/-- Every loop over a stream makes this smaller. -/
def remaining (stream : TokenStream) : Nat :=
  stream.ahead.length

def skipNewlines (stream : TokenStream) : TokenStream :=
  { stream with
    index := stream.index + (stream.ahead.takeWhile (·.kind == .newline)).length
    ahead := stream.ahead.dropWhile (·.kind == .newline) }

theorem remaining_advance_le (stream : TokenStream) :
    stream.advance.remaining ≤ stream.remaining := by
  unfold advance
  split <;> simp_all [remaining]

theorem remaining_advance_lt {stream : TokenStream}
    (notEnd : stream.current.kind ≠ .endOfInput) :
    stream.advance.remaining < stream.remaining := by
  unfold advance
  split
  · next ahead => simp [current, ahead, Token.atEnd] at notEnd
  · next ahead => simp [remaining, ahead]

theorem remaining_skipNewlines_le (stream : TokenStream) :
    stream.skipNewlines.remaining ≤ stream.remaining :=
  (List.dropWhile_sublist _).length_le

end TokenStream

namespace Tokens

def toList (tokens : Tokens) : List Token :=
  tokens.list ++ [.atEnd tokens.finish]

def streamAt (tokens : Tokens) (index : Nat) : TokenStream :=
  ⟨index, tokens.list.drop index, tokens.finish⟩

def streamAt? (tokens : Tokens) (index : Int) : Option TokenStream :=
  (Text.index? tokens.toList.length index).bind fun index =>
    if index < tokens.toList.length then some (tokens.streamAt index) else none

def stream (tokens : Tokens) : TokenStream :=
  tokens.streamAt 0

/-- Beyond the last token there is only the end of input. -/
def token? (tokens : Tokens) (index : Int) : Option Token :=
  (Text.index? tokens.toList.length index).map fun index =>
    tokens.toList.getD index (.atEnd tokens.finish)

end Tokens

end EventScript
