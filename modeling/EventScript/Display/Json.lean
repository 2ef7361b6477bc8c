import EventScript.Display
import EventScript.Text.Quoted

/-! Display values as JSON, indented by two blanks for each level and in ASCII alone. -/

namespace EventScript.Display

def jsonUnit (unit : Nat) : List Char :=
  '\\' :: 'u' :: Text.hexDigits 4 unit

/-- A code point beyond sixteen bits takes a pair of units. -/
def jsonChar (c : Char) : List Char :=
  match c with
  | '"' => ['\\', '"']
  | '\\' => ['\\', '\\']
  | '\n' => ['\\', 'n']
  | '\r' => ['\\', 'r']
  | '\t' => ['\\', 't']
  | '\x08' => ['\\', 'b']
  | '\x0c' => ['\\', 'f']
  | c =>
      if ' ' ≤ c && c ≤ '~' then [c]
      else if c.toNat < 0x10000 then jsonUnit c.toNat
      else
        let beyond := c.toNat - 0x10000
        jsonUnit (0xd800 + beyond / 0x400) ++ jsonUnit (0xdc00 + beyond % 0x400)

def jsonText (text : String) : String :=
  "\"" ++ String.ofList (text.toList.flatMap jsonChar) ++ "\""

def indentation (depth : Nat) : String :=
  String.ofList (List.replicate (2 * depth) ' ')

def jsonBlock (opening closing : String) (depth : Nat) (items : List String) : String :=
  if items.isEmpty then opening ++ closing
  else
    opening ++ "\n" ++ ",\n".intercalate (items.map (indentation (depth + 1) ++ ·)) ++ "\n"
      ++ indentation depth ++ closing

mutual

def jsonAt (depth : Nat) : Display → String
  | .text value => jsonText value
  | .list items => jsonBlock "[" "]" depth (jsonItems (depth + 1) items)
  | .record fields => jsonBlock "\x7b" "\x7d" depth (jsonFields (depth + 1) fields)

def jsonItems (depth : Nat) : List Display → List String
  | [] => []
  | item :: rest => jsonAt depth item :: jsonItems depth rest

def jsonFields (depth : Nat) : List (String × Display) → List String
  | [] => []
  | (key, value) :: rest =>
      (jsonText key ++ ": " ++ jsonAt depth value) :: jsonFields depth rest

end

def json (display : Display) : String :=
  jsonAt 0 display

end EventScript.Display
