import EventScript.Toml.Scalar
import EventScript.Toml.Table
import EventScript.Toml.Text

/-! TOML documents: values of all kinds, statements, and the table they make up. -/

namespace EventScript.Toml

/-! ## Values -/

def isCollection : Value → Bool
  | .array _ | .table _ => true
  | _ => false

mutual

/-- `fuel` bounds how deep and how long collections go. -/
def valueWith : (fuel : Nat) → Reader Value
  | 0 => Reader.fail
  | fuel + 1 => do
      match (← Reader.ahead).head? with
      | some '"' | some '\'' => return .text (← anyString)
      | some '[' => do
          Reader.demand ['[']
          skipArraySpace
          return .array (← arrayItems fuel)
      | some '\x7b' => do
          Reader.demand ['\x7b']
          skipBlanks
          if ← Reader.accept ['\x7d'] then return .table []
          return .table (← inlineEntries fuel [] [])
      | _ => scalar

def arrayItems : (fuel : Nat) → Reader (List Value)
  | 0 => Reader.fail
  | fuel + 1 => do
      if ← Reader.accept [']'] then return []
      let item ← valueWith fuel
      skipArraySpace
      if ← Reader.accept [']'] then return [item]
      Reader.demand [',']
      skipArraySpace
      return item :: (← arrayItems fuel)

def inlineEntries : (fuel : Nat) → List Mark → Table → Reader Table
  | 0, _, _ => Reader.fail
  | fuel + 1, marks, table => do
      let place ← key
      Reader.demand ['=']
      skipBlanks
      let value ← valueWith fuel
      if isFrozen marks place then Reader.fail
      match table.change false (Table.add (place.getLastD "") value) place.dropLast with
      | none => Reader.fail
      | some table => do
          skipBlanks
          if ← Reader.accept ['\x7d'] then return table
          Reader.demand [',']
          skipBlanks
          inlineEntries fuel (if isCollection value then .frozen place :: marks else marks) table

end

def value : Reader Value := do
  valueWith ((← Reader.ahead).length * 2 + 2)

/-! ## Statements -/

/-- A document as far as it is read: its table, the marks on places, the marks that
take effect at the next header, and the place of the current header. -/
structure Draft where
  table : Table
  marks : List Mark
  pending : List Mark
  header : List String
deriving Repr

namespace Draft

def empty : Draft := ⟨[], [], [], []⟩

def settle (draft : Draft) : Draft :=
  { draft with marks := draft.pending ++ draft.marks, pending := [] }

def declareTable (draft : Draft) (place : List String) : Option Draft := do
  if isDeclared draft.marks place || isFrozen draft.marks place then none
  let table ← draft.table.change true some place
  return { draft with table := table, marks := .declared place :: draft.marks, header := place }

/-- What was marked below belongs to the tables before it. -/
def declareArrayTable (draft : Draft) (place : List String) : Option Draft := do
  if isFrozen draft.marks place then none
  let table ← draft.table.change true (Table.addToArray (place.getLastD "")) place.dropLast
  return { draft with
    table := table
    marks := .declared place :: unmark draft.marks place
    header := place }

/-- Tables that the key leads through must not have headers of their own, now or later. -/
def assign (draft : Draft) (place : List String) (value : Value) : Option Draft := do
  let parents := ((List.range place.length).drop 1).map fun count =>
    draft.header ++ place.take count
  if parents.any (isDeclared draft.marks) then none
  let parent := draft.header ++ place.dropLast
  if isFrozen draft.marks parent then none
  let table ← draft.table.change true (Table.add (place.getLastD "") value) parent
  let whole := draft.header ++ place
  return { draft with
    table := table
    marks := if isCollection value then .frozen whole :: draft.marks else draft.marks
    pending := parents.map .declared ++ draft.pending }

end Draft

def header (draft : Draft) : Reader Draft := do
  let draft := draft.settle
  let ofArray ← Reader.accept ['[', '[']
  if !ofArray then Reader.demand ['[']
  skipBlanks
  let place ← key
  if ofArray then do
    Reader.demand [']', ']']
    Reader.ofOption (draft.declareArrayTable place)
  else do
    Reader.demand [']']
    Reader.ofOption (draft.declareTable place)

def assignment (draft : Draft) : Reader Draft := do
  let place ← key
  Reader.demand ['=']
  skipBlanks
  let value ← value
  Reader.ofOption (draft.assign place value)

def statement (draft : Draft) : Reader Draft := do
  match (← Reader.ahead).head? with
  | none | some '\n' | some '#' => return draft
  | some '[' => header draft
  | _ => assignment draft

def statements : (fuel : Nat) → Draft → Reader Draft
  | 0, _ => Reader.fail
  | fuel + 1, draft => do
      skipBlanks
      let draft ← statement draft
      skipBlanks
      skipComment
      if (← Reader.ahead).isEmpty then return draft
      Reader.demand ['\n']
      statements fuel draft

/-- Lines end in line feeds alone. -/
def read (text : List Char) : Except Flaw Table :=
  (statements (text.length + 1) .empty text).map (·.1.table)

end EventScript.Toml
