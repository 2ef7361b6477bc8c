import EventScript.Toml.Value

/-! Tables under construction. Statements name places in one nested table by keys of several parts,
and some places may not be touched again once they are written. -/

namespace EventScript.Toml

/-! ## Places -/

namespace Table

def replace (table : Table) (key : String) (value : Value) : Table :=
  table.map fun entry => if entry.1 = key then (key, value) else entry

/-- Missing tables on the way are made. The last table of an array stands for the array if
`throughArrays` is set. -/
def change (throughArrays : Bool) (action : Table → Option Table) :
    List String → Table → Option Table
  | [], table => action table
  | key :: rest, table =>
      match table.lookup key with
      | none => do
          let inner ← change throughArrays action rest []
          return table ++ [(key, .table inner)]
      | some (.table inner) => do
          let inner ← change throughArrays action rest inner
          return table.replace key (.table inner)
      | some (.array items) =>
          match throughArrays, items.getLast? with
          | true, some (.table inner) => do
              let inner ← change throughArrays action rest inner
              return table.replace key (.array (items.dropLast ++ [.table inner]))
          | _, _ => none
      | some _ => none

def add (key : String) (value : Value) (table : Table) : Option Table :=
  match table.lookup key with
  | none => some (table ++ [(key, value)])
  | some _ => none

def addToArray (key : String) (table : Table) : Option Table :=
  match table.lookup key with
  | none => some (table ++ [(key, .array [.table []])])
  | some (.array items) => some (table.replace key (.array (items ++ [.table []])))
  | some _ => none

end Table

/-! ## Marks -/

/-- A place that is closed, `declared` against a second header and `frozen` against any change in it
or below it. -/
inductive Mark where
  | declared (place : List String)
  | frozen (place : List String)
deriving DecidableEq, Repr

namespace Mark

def place : Mark → List String
  | .declared place | .frozen place => place

end Mark

def isDeclared (marks : List Mark) (place : List String) : Bool :=
  marks.contains (.declared place)

def isFrozen (marks : List Mark) (place : List String) : Bool :=
  !place.isEmpty && marks.any fun mark =>
    match mark with
    | .frozen above => above.isPrefixOf place
    | .declared _ => false

def unmark (marks : List Mark) (place : List String) : List Mark :=
  marks.filter fun mark => !place.isPrefixOf mark.place

end EventScript.Toml
