/-! Places in a source text. Lines and columns count from one, every code point
takes one column, and only a line feed begins a new line. -/

namespace EventScript

structure Position where
  line : Nat
  column : Nat
deriving DecidableEq, Repr, Inhabited

namespace Position

def start : Position := ⟨1, 1⟩

def next (position : Position) (c : Char) : Position :=
  if c = '\n' then ⟨position.line + 1, 1⟩ else ⟨position.line, position.column + 1⟩

def after (position : Position) (passed : List Char) : Position :=
  passed.foldl next position

@[simp] theorem after_nil (position : Position) : position.after [] = position := rfl

@[simp] theorem after_cons (position : Position) (c : Char) (rest : List Char) :
    position.after (c :: rest) = (position.next c).after rest := rfl

@[simp] theorem after_append (position : Position) (first second : List Char) :
    position.after (first ++ second) = (position.after first).after second := by
  simp [after]

end Position

end EventScript
