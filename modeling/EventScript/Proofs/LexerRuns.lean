import EventScript.Proofs.CountedPlaces
import EventScript.Token.Lexer

/-! Lexers under any operations. Whatever is done with a lexer, and whether that succeeds or fails,
it stands in its text at the place that its offset gives, never goes back, and keeps the tokens it
has collected. -/

namespace EventScript.Lexer

/-! ## Operations -/

inductive Operation where
  | current
  | peek (distance : Int)
  | advance
  | skipBlanks
  | readString
  | readInteger
  | readName
  | tokenize
deriving DecidableEq, Repr

/-- The lexer as an operation leaves it, with an answer or with a fault. -/
def after (lexer : Lexer) : Operation → Lexer
  | .current => lexer
  | .peek _ => lexer
  | .advance => lexer.advance
  | .skipBlanks => lexer.skipBlanks
  | .readString => lexer.readString.2
  | .readInteger => lexer.readInteger.2
  | .readName => lexer.readName.2
  | .tokenize => lexer.tokenize.2

def afterAll (lexer : Lexer) (operations : List Operation) : Lexer :=
  operations.foldl after lexer

theorem move_eq (lexer : Lexer) (count : Nat) :
    lexer.move count = { lexer.move count with collected := lexer.collected ++ [] } := by
  simp [move]

/-- Every operation is a move that may collect tokens. -/
theorem exists_move (lexer : Lexer) (operation : Operation) :
    ∃ count added, lexer.after operation =
      { lexer.move count with collected := lexer.collected ++ added } := by
  cases operation with
  | current => exact ⟨0, [], by simp [after, move]⟩
  | peek distance => exact ⟨0, [], by simp [after, move]⟩
  | advance => exact ⟨1, [], lexer.move_eq 1⟩
  | skipBlanks => exact ⟨_, [], lexer.move_eq _⟩
  | readString =>
      simp only [after, readString]
      split
      · exact ⟨_, [], lexer.move_eq _⟩
      · exact ⟨_, [], lexer.move_eq _⟩
  | readInteger => exact ⟨_, [], lexer.move_eq _⟩
  | readName => exact ⟨_, [], lexer.move_eq _⟩
  | tokenize =>
      simp only [after, tokenize]
      split
      · exact ⟨_, _, rfl⟩
      · exact ⟨_, _, rfl⟩

/-! ## Places -/

/-- A lexer stands in a text: its offset lies in the text and divides what is behind it from what is
ahead, and its place is the one that is counted up to there. -/
structure StandsIn (lexer : Lexer) (text : List Char) : Prop where
  within : lexer.offset ≤ text.length
  behind : lexer.behind.reverse = text.take lexer.offset
  ahead : lexer.ahead = text.drop lexer.offset
  place : lexer.place = .counted (text.take lexer.offset)

theorem standsIn_of_append {lexer : Lexer} {text : List Char}
    (whole : lexer.behind.reverse ++ lexer.ahead = text)
    (place : lexer.place = .counted lexer.behind.reverse) : lexer.StandsIn text := by
  have length : lexer.offset = lexer.behind.reverse.length := List.length_reverse.symm
  have behind : lexer.behind.reverse = text.take lexer.offset := by
    rw [length, ← whole, List.take_left]
  refine ⟨?_, behind, ?_, behind ▸ place⟩
  · rw [length, ← whole, List.length_append]
    exact Nat.le_add_right _ _
  · rw [length, ← whole, List.drop_left]

theorem standsIn_start (text : String) : (start text).StandsIn text.toList :=
  standsIn_of_append (by simp [start]) rfl

theorem StandsIn.move {lexer : Lexer} {text : List Char} (stands : lexer.StandsIn text)
    (count : Nat) : (lexer.move count).StandsIn text := by
  apply standsIn_of_append
  · rw [← List.take_append_drop lexer.offset text, ← stands.behind, ← stands.ahead]
    simp [Lexer.move]
  · rw [Lexer.move, stands.place, ← stands.behind, ← Position.after_start, ← Position.after_start,
      ← Position.after_append]
    simp

theorem offset_le_move (lexer : Lexer) (count : Nat) : lexer.offset ≤ (lexer.move count).offset := by
  simp [offset, move]

theorem StandsIn.after {lexer : Lexer} {text : List Char} (stands : lexer.StandsIn text)
    (operation : Operation) : (lexer.after operation).StandsIn text := by
  rcases exists_move lexer operation with ⟨count, added, same⟩
  rw [same]
  exact ⟨(stands.move count).within, (stands.move count).behind, (stands.move count).ahead,
    (stands.move count).place⟩

theorem StandsIn.afterAll {lexer : Lexer} {text : List Char} (stands : lexer.StandsIn text)
    (operations : List Operation) : (lexer.afterAll operations).StandsIn text := by
  induction operations generalizing lexer with
  | nil => exact stands
  | cons operation others induction => exact induction (stands.after operation)

theorem offset_le_after (lexer : Lexer) (operation : Operation) :
    lexer.offset ≤ (lexer.after operation).offset := by
  rcases exists_move lexer operation with ⟨count, added, same⟩
  rw [same]
  exact lexer.offset_le_move count

theorem collected_isPrefix_after (lexer : Lexer) (operation : Operation) :
    lexer.collected <+: (lexer.after operation).collected := by
  rcases exists_move lexer operation with ⟨count, added, same⟩
  rw [same]
  exact List.prefix_append _ _

/-- After any operations on the lexer of a text, and after one more, the lexer stands in the text,
has gone no step back and has kept every token. -/
theorem standsIn_of_operations (text : String) (operations : List Operation)
    (operation : Operation) :
    let before := (start text).afterAll operations
    let behind := before.after operation
    before.StandsIn text.toList ∧ behind.StandsIn text.toList ∧
      before.offset ≤ behind.offset ∧ before.collected <+: behind.collected := by
  intro before behind
  have stands : before.StandsIn text.toList := (standsIn_start text).afterAll operations
  exact ⟨stands, stands.after operation, offset_le_after before operation,
    collected_isPrefix_after before operation⟩

/-- A literal that breaks off at a line feed is read again from there, and then the rest. -/
example :
    let lexer := (start "\"a\\\nb").afterAll [.readString, .readString, .readName, .peek (-9)]
    lexer.offset = 5 ∧ lexer.place = ⟨2, 2⟩ := by
  decide

end EventScript.Lexer
