import EventScript.Text.Decimal
import EventScript.Text.Lines

/-! Excerpts of a source text: the lines around a reported line, numbered, with a marker under the
reported column. Reported lines and columns are integers, since a caller may report any place. -/

namespace EventScript.Text

def excerptRadius : Int := 2

def excerptStart (line : Int) : Nat :=
  (max 1 (line - excerptRadius)).toNat

/-- A bound below zero counts back from the last line. -/
def excerptStop (count : Nat) (line : Int) : Nat :=
  let stop := min (count : Int) (line + excerptRadius)
  if stop < 0 then (stop + count).toNat else stop.toNat

def excerpt (text : String) (line : Int) : String :=
  let lines := sourceLines text.toList
  String.ofList
    (joinLines ((lines.take (excerptStop lines.length line)).drop (excerptStart line - 1)))

def lineLabel (number : Nat) : List Char :=
  let digits := Decimal.ofNat number
  List.replicate (4 - digits.length) ' ' ++ digits ++ [' ', '|', ' ']

def markerLine (label : List Char) (column : Int) : List Char :=
  List.replicate (label.length + column - 1).toNat ' ' ++ ['^', '^', '^']

def numberedLines (line column : Int) : Nat → List (List Char) → List (List Char)
  | _, [] => []
  | number, text :: rest =>
      let label := lineLabel number
      let shown := label ++ text
      let others := numberedLines line column (number + 1) rest
      if (number : Int) = line then shown :: markerLine label column :: others
      else shown :: others

def numberedExcerpt (excerpt : String) (line column : Int) : String :=
  String.ofList
    (joinLines (numberedLines line column (excerptStart line) (pieces '\n' excerpt.toList)))

end EventScript.Text
