/-! Options and operands of a command line. Options may be written long or short, with
a value in the same word or in the next one; short options can share a word. Two
hyphens alone end the options. -/

namespace EventScript.CommandLine

structure OptionForm where
  name : String
  short : Option Char
  takesValue : Bool
deriving DecidableEq, Repr

structure Given where
  options : List (String × String)
  operands : List String
deriving DecidableEq, Repr

namespace Given

def has (given : Given) (name : String) : Bool :=
  given.options.any (·.1 == name)

/-- Of an option that is given several times, the last value counts. -/
def value? (given : Given) (name : String) : Option String :=
  given.options.reverse.lookup name

end Given

def takeValue (inWord : Option String) (rest : List String) : Option (String × List String) :=
  match inWord, rest with
  | some value, rest => some (value, rest)
  | none, value :: rest => some (value, rest)
  | none, [] => none

def longOption (forms : List OptionForm) (word : List Char) (rest : List String) :
    Option (List (String × String) × List String) := do
  let name := String.ofList (word.takeWhile (· != '='))
  let inWord :=
    match word.dropWhile (· != '=') with
    | [] => none
    | _ :: value => some (String.ofList value)
  let form ← forms.find? (·.name == name)
  if form.takesValue then
    let (value, rest) ← takeValue inWord rest
    return ([(name, value)], rest)
  else if inWord.isSome then none
  else return ([(name, "")], rest)

/-- An option that takes a value takes the rest of the word. -/
def shortOptions (forms : List OptionForm) :
    List Char → List String → Option (List (String × String) × List String)
  | [], rest => some ([], rest)
  | c :: others, rest => do
      let form ← forms.find? (·.short == some c)
      if form.takesValue then
        let inWord := if others.isEmpty then none else some (String.ofList others)
        let (value, rest) ← takeValue inWord rest
        return ([(form.name, value)], rest)
      else
        let (more, rest) ← shortOptions forms others rest
        return ((form.name, "") :: more, rest)

/-- Without `interspersed`, the first operand ends the options. -/
def readWith (forms : List OptionForm) (interspersed : Bool) :
    (fuel : Nat) → List String → Option Given
  | 0, words => some ⟨[], words⟩
  | _ + 1, [] => some ⟨[], []⟩
  | fuel + 1, word :: rest =>
      match word.toList with
      | ['-', '-'] => some ⟨[], rest⟩
      | '-' :: '-' :: long => do
          let (options, rest) ← longOption forms long rest
          let given ← readWith forms interspersed fuel rest
          return { given with options := options ++ given.options }
      | '-' :: c :: short => do
          let (options, rest) ← shortOptions forms (c :: short) rest
          let given ← readWith forms interspersed fuel rest
          return { given with options := options ++ given.options }
      | _ =>
          if interspersed then do
            let given ← readWith forms interspersed fuel rest
            return { given with operands := word :: given.operands }
          else some ⟨[], word :: rest⟩

def read (forms : List OptionForm) (interspersed : Bool) (words : List String) : Option Given :=
  readWith forms interspersed words.length words

end EventScript.CommandLine
