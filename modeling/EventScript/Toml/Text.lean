import EventScript.Toml.Reader

/-! TOML strings and keys. -/

namespace EventScript.Toml

/-! ## Escapes -/

def codePoint (digits : Nat) : Reader (List Char) := do
  let code := numberInBase 16 (← Reader.exactly digits isHexDigit)
  if code.isValidChar then return [Char.ofNat code] else Reader.fail

def escape : Reader (List Char) := do
  match ← Reader.char fun _ => true with
  | 'b' => return ['\x08']
  | 't' => return ['\t']
  | 'n' => return ['\n']
  | 'f' => return ['\x0c']
  | 'r' => return ['\r']
  | '"' => return ['"']
  | '\\' => return ['\\']
  | 'u' => codePoint 4
  | 'U' => codePoint 8
  | _ => Reader.fail

/-- A backslash at the end of a line takes the line feed with it, and all blanks and line feeds that
follow. -/
def escapeInLines : Reader (List Char) := do
  match (← Reader.ahead).head? with
  | some c =>
      if isBlankOrNewline c then
        skipBlanks
        if (← Reader.ahead).isEmpty then return []
        Reader.demand ['\n']
        let _ ← Reader.run isBlankOrNewline
        return []
      else escape
  | none => Reader.fail

/-! ## Strings -/

def basicTail : (fuel : Nat) → Reader (List Char)
  | 0 => Reader.fail
  | fuel + 1 => do
      let plain ← Reader.run fun c => c != '"' && c != '\\' && !isControl c
      if ← Reader.accept ['"'] then return plain
      Reader.demand ['\\']
      let escaped ← escape
      return plain ++ escaped ++ (← basicTail fuel)

def basicLinesTail : (fuel : Nat) → Reader (List Char)
  | 0 => Reader.fail
  | fuel + 1 => do
      let plain ← Reader.run fun c => c != '"' && c != '\\' && !isControlInLines c
      if ← Reader.accept ['"', '"', '"'] then return plain
      if ← Reader.accept ['"'] then return plain ++ '"' :: (← basicLinesTail fuel)
      Reader.demand ['\\']
      let escaped ← escapeInLines
      return plain ++ escaped ++ (← basicLinesTail fuel)

def literalLinesTail : (fuel : Nat) → Reader (List Char)
  | 0 => Reader.fail
  | fuel + 1 => do
      let plain ← Reader.run fun c => c != '\'' && !isControlInLines c
      if ← Reader.accept ['\'', '\'', '\''] then return plain
      Reader.demand ['\'']
      return plain ++ '\'' :: (← literalLinesTail fuel)

/-- Up to two more quotes, which belong to the text when five close it. -/
def extraQuotes (quote : Char) : Reader (List Char) := do
  if ← Reader.accept [quote, quote] then return [quote, quote]
  if ← Reader.accept [quote] then return [quote]
  return []

def basicString : Reader String := do
  Reader.demand ['"']
  return String.ofList (← basicTail ((← Reader.ahead).length + 1))

def literalString : Reader String := do
  Reader.demand ['\'']
  let plain ← Reader.run fun c => c != '\'' && !isControl c
  Reader.demand ['\'']
  return String.ofList plain

/-- A line feed right after the opening quotes does not count. -/
def linesString (quote : Char) (tail : Nat → Reader (List Char)) : Reader String := do
  Reader.demand [quote, quote, quote]
  let _ ← Reader.accept ['\n']
  let body ← tail ((← Reader.ahead).length + 1)
  return String.ofList (body ++ (← extraQuotes quote))

def anyString : Reader String := do
  let text ← Reader.ahead
  if ['"', '"', '"'].isPrefixOf text then linesString '"' basicLinesTail
  else if ['\'', '\'', '\''].isPrefixOf text then linesString '\'' literalLinesTail
  else if text.head? == some '"' then basicString
  else literalString

/-! ## Keys -/

def keyPart : Reader String := do
  match (← Reader.ahead).head? with
  | some '"' => basicString
  | some '\'' => literalString
  | _ =>
      let bare ← Reader.run isBareKeyChar
      if bare.isEmpty then Reader.fail
      return String.ofList bare

def keyTail : (fuel : Nat) → Reader (List String)
  | 0 => Reader.fail
  | fuel + 1 => do
      skipBlanks
      if ← Reader.accept ['.'] then
        skipBlanks
        let part ← keyPart
        return part :: (← keyTail fuel)
      else return []

def key : Reader (List String) := do
  let first ← keyPart
  return first :: (← keyTail ((← Reader.ahead).length + 1))

end EventScript.Toml
