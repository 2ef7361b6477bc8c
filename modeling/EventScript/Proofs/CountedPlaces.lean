import EventScript.Text.Position
import Mathlib.Data.List.Basic
import Mathlib.Data.List.Induction

/-! Places counted from the beginning of a text. The place that is reached character by character
is the one that the line feeds before it give. -/

namespace EventScript.Position

/-- The place behind some text: its line counts the line feeds, and its column the characters from
the last line feed on, or from the beginning if there is none. -/
def counted (passed : List Char) : Position where
  line := 1 + passed.count '\n'
  column :=
    match (passed.idxsOf '\n').getLast? with
    | some feed => passed.length - feed
    | none => passed.length + 1

theorem counted_append_feed (passed : List Char) :
    counted (passed ++ ['\n']) = ⟨(counted passed).line + 1, 1⟩ := by
  simp [counted, Nat.add_assoc]

theorem counted_append_of_ne {c : Char} (noFeed : c ≠ '\n') (passed : List Char) :
    counted (passed ++ [c]) = ⟨(counted passed).line, (counted passed).column + 1⟩ := by
  have count : (passed ++ [c]).count '\n' = passed.count '\n' := by
    simp [noFeed]
  have feeds : (passed ++ [c]).idxsOf '\n' = passed.idxsOf '\n' := by
    simp [noFeed]
  simp only [counted, count, feeds, List.length_append, List.length_singleton]
  cases last : (passed.idxsOf '\n').getLast? with
  | none => rfl
  | some feed =>
      have before := List.lt_add_of_mem_idxsOf feed (List.mem_of_getLast? last)
      simp only [mk.injEq, true_and]
      omega

theorem after_start (passed : List Char) : start.after passed = counted passed := by
  induction passed using List.reverseRecOn with
  | nil => rfl
  | append_singleton passed c induction =>
      rw [after_append, induction, after_cons, after_nil]
      by_cases feed : c = '\n'
      · rw [feed, counted_append_feed]
        simp [next]
      · rw [counted_append_of_ne feed]
        simp [next, feed]

theorem line_counted_le {passed text : List Char} (isPrefix : passed <+: text) :
    (counted passed).line ≤ 1 + text.count '\n' :=
  Nat.add_le_add_left (isPrefix.sublist.count_le '\n') 1

end EventScript.Position
