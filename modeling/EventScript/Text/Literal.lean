/-! String literals. Between its quotes a literal may hold any character but a line
feed; a backslash gives the next character another meaning or takes its own
away. -/

namespace EventScript.Text

def escapeChar : Char → List Char
  | '\\' => ['\\', '\\']
  | '"' => ['\\', '"']
  | '\n' => ['\\', 'n']
  | '\t' => ['\\', 't']
  | c => [c]

def escape (text : String) : String :=
  String.ofList (text.toList.flatMap escapeChar)

def unescape : Char → Char
  | 'n' => '\n'
  | 't' => '\t'
  | c => c

structure LiteralBody where
  value : List Char
  source : List Char
  rest : List Char
deriving DecidableEq, Repr

namespace LiteralBody

/-- Reads up to a closing quote, a line feed or the end of the text. A backslash
takes the next character with it unless that is one of the last two. -/
def read : List Char → LiteralBody
  | [] => ⟨[], [], []⟩
  | c :: rest =>
      if c = '"' ∨ c = '\n' then ⟨[], [], c :: rest⟩
      else if c = '\\' then
        match rest with
        | [] => ⟨[], ['\\'], []⟩
        | escaped :: rest =>
            if escaped = '\n' then ⟨[], ['\\'], escaped :: rest⟩
            else
              let body := read rest
              ⟨unescape escaped :: body.value, '\\' :: escaped :: body.source, body.rest⟩
      else
        let body := read rest
        ⟨c :: body.value, c :: body.source, body.rest⟩

def closed (body : LiteralBody) : Bool :=
  body.rest.head? == some '"'

theorem source_append_rest (text : List Char) :
    (read text).source ++ (read text).rest = text := by
  fun_induction read text with
  | case1 => rfl
  | case2 => rfl
  | case3 => rfl
  | case4 => rfl
  | case5 escaped rest notFeed body _ induction => simp [body, induction]
  | case6 c rest _ _ body induction => simp [body, induction]

end LiteralBody

end EventScript.Text
