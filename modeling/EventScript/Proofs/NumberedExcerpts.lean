import EventScript.Diagnostic
import EventScript.Proofs.Excerpts

/-! Numbered excerpts. A description with the excerpt around a line shows the source lines from two
before that line to two behind it, as far as the text has them, each behind its own number, and
under the line itself a marker at the column. -/

namespace EventScript

namespace Text

def linesBetween (first last : Nat) (lines : List (List Char)) : List (List Char) :=
  (lines.take last).drop (first - 1)

theorem numberedFrom_take (number count : Nat) (lines : List (List Char)) :
    (numberedFrom number lines).take count = numberedFrom number (lines.take count) := by
  induction lines generalizing number count with
  | nil => simp
  | cons source others induction =>
      cases count with
      | zero => rfl
      | succ count => simp only [numberedFrom_cons, List.take_succ_cons, induction]

theorem numberedFrom_drop (number count : Nat) (lines : List (List Char)) :
    (numberedFrom number lines).drop count = numberedFrom (number + count) (lines.drop count) := by
  induction lines generalizing number count with
  | nil => simp
  | cons source others induction =>
      cases count with
      | zero => rfl
      | succ count =>
          rw [numberedFrom_cons, List.drop_succ_cons, induction, List.drop_succ_cons, Nat.add_assoc,
            Nat.add_comm 1]

theorem numberedFrom_append (number : Nat) (first second : List (List Char)) :
    numberedFrom number (first ++ second) =
      numberedFrom number first ++ numberedFrom (number + first.length) second := by
  induction first generalizing number with
  | nil => rfl
  | cons source others induction =>
      have count : number + (others.length + 1) = number + 1 + others.length := by omega
      rw [List.cons_append, numberedFrom_cons, numberedFrom_cons, induction, List.length_cons, count]
      rfl

theorem linesBetween_numberedFrom {first : Nat} (fromOne : 0 < first) (last : Nat)
    (lines : List (List Char)) :
    linesBetween first last (numberedFrom 1 lines) =
      numberedFrom first (linesBetween first last lines) := by
  have counts : 1 + (first - 1) = first := by omega
  rw [linesBetween, numberedFrom_take, numberedFrom_drop, counts, linesBetween]

theorem window_eq (lines : List (List Char)) (line : Nat) :
    window lines line = linesBetween (max 1 (line - 2)) (min lines.length (line + 2)) lines := by
  have start : line - 3 = max 1 (line - 2) - 1 := by omega
  rw [window, linesBetween, ← start, Nat.min_comm, ← List.take_eq_take_min]

theorem linesBetween_line {before behind : List (List Char)} {source : List Char} {line : Nat}
    (length : before.length + 1 = line) :
    linesBetween (max 1 (line - 2)) line (before ++ source :: behind) =
      before.drop (line - 3) ++ [source] := by
  have start : max 1 (line - 2) - 1 = line - 3 := by omega
  have taken : line - before.length = 1 := by omega
  rw [linesBetween, List.take_append, taken, List.take_of_length_le (by omega), start,
    List.drop_append_of_le_length (by omega), List.take_succ_cons, List.take_zero]

theorem linesBetween_behind {before behind : List (List Char)} {source : List Char} {line : Nat}
    (length : before.length + 1 = line) :
    linesBetween (line + 1) (min (before ++ source :: behind).length (line + 2))
      (before ++ source :: behind) = behind.take 2 := by
  rw [linesBetween, Nat.min_comm, ← List.take_eq_take_min, Nat.add_sub_cancel, List.drop_take,
    Nat.add_sub_cancel_left, ← length, List.drop_append, List.drop_of_length_le (by omega),
    Nat.add_sub_cancel_left]
  rfl

/-- What a report shows of a text are the source lines of a window with their numbers in front. The
marker stands directly behind the reported line, if there is such a line. -/
theorem shownLines_eq {text : List Char} {place : Position} (fromOne : 0 < place.line) :
    shownLines text place =
      let numbered := numberedFrom 1 (sourceLines text)
      let first := max 1 (place.line - 2)
      let last := min (sourceLines text).length (place.line + 2)
      if place.line ≤ (sourceLines text).length then
        linesBetween first place.line numbered ++
          marker (lineLabel place.line) place.column :: linesBetween (place.line + 1) last numbered
      else linesBetween first last numbered := by
  have first : place.line - 3 + 1 = max 1 (place.line - 2) := by omega
  simp only [linesBetween_numberedFrom (Nat.lt_of_lt_of_le Nat.zero_lt_one (Nat.le_max_left 1 _)),
    linesBetween_numberedFrom (Nat.succ_pos _)]
  split
  · next within =>
      rcases exists_split_of_lt (Nat.lt_of_lt_of_le (Nat.sub_one_lt_of_lt fromOne) within) with
        ⟨before, source, behind, whole, length⟩
      have length : before.length + 1 = place.line := by omega
      have counts : place.line - 3 + 1 + (before.drop (place.line - 3)).length = place.line := by
        rw [List.length_drop]
        omega
      rw [shownLines, whole, window_append length, numberedLines_of_line counts,
        linesBetween_line length, linesBetween_behind length, markerLine_natCast, ← first,
        numberedFrom_append, List.append_assoc, counts]
      rfl
  · next beyond =>
      have apart : place.line - 3 + 1 + (window (sourceLines text) place.line).length ≤ place.line := by
        rw [window, List.length_drop, List.length_take]
        omega
      rw [shownLines, numberedLines_of_apart (.inr apart), window_eq, first]

theorem feed_not_mem_shownLines {text : List Char} {place : Position} (fromOne : 0 < place.line) :
    ∀ line ∈ shownLines text place, '\n' ∉ line := by
  by_cases within : place.line ≤ (sourceLines text).length
  · exact (marksPlace_shownLines fromOne within).feed_not_mem
  · exact (showsLines_shownLines (Nat.lt_of_not_le within)).feed_not_mem

end Text

namespace Context

variable {file : Path} {text : String} {line column : Nat}

theorem description_of_excerpt (shown : Text.excerpt text line ≠ "") :
    let context : Context := ⟨file, line, column, some (Text.excerpt text line)⟩
    context.description.toList = context.location.toList ++
      '\n' :: Text.joinLines (Text.shownLines text.toList ⟨line, column⟩) := by
  have notBlank : Text.joinLines (Text.window (Text.sourceLines text.toList) line) ≠ [] := by
    intro blank
    rw [Text.excerpt_eq, blank] at shown
    contradiction
  have notEmpty : (Text.excerpt text line).isEmpty = false := by
    rwa [Bool.eq_false_iff, Ne, String.isEmpty_iff]
  have numbered := @Text.numberedExcerpt_excerpt text ⟨line, column⟩ notBlank
  simp only at numbered
  simp [description, location, notEmpty, numbered]

/-- A description with an excerpt that is not empty shows, behind the location, the source lines
from two before the reported line to two behind it, each behind its own number. If the reported line
is one of the source lines, a marker line directly behind it has its carets under the column. -/
theorem description_eq_numbered (lineFromOne : 0 < line) (columnFromOne : 0 < column)
    (nonempty : Text.excerpt text line ≠ "") :
    let lines := Text.sourceLines text.toList
    let numbered := Text.numberedFrom 1 lines
    let first := max 1 (line - 2)
    let last := min lines.length (line + 2)
    let indent := (Text.lineLabel line).length + (column - 1)
    let markerLine := List.replicate indent ' ' ++ ['^', '^', '^']
    let context : Context := ⟨file, line, column, some (Text.excerpt text line)⟩
    ∃ shown : List (List Char),
      context.description.toList = context.location.toList ++ '\n' :: Text.joinLines shown ∧
      (∀ shownLine ∈ shown, '\n' ∉ shownLine) ∧
      shown =
        if line ≤ lines.length then
          Text.linesBetween first line numbered ++
            markerLine :: Text.linesBetween (line + 1) last numbered
        else Text.linesBetween first last numbered := by
  intro lines numbered first last indent markerLine context
  have marker : Text.marker (Text.lineLabel line) column = markerLine := by
    have same : (Text.lineLabel line).length + column - 1 = indent :=
      Nat.add_sub_assoc columnFromOne _
    rw [Text.marker, same]
  refine ⟨Text.shownLines text.toList ⟨line, column⟩, description_of_excerpt nonempty,
    Text.feed_not_mem_shownLines lineFromOne, ?_⟩
  rw [Text.shownLines_eq lineFromOne, marker]

/-- The second of five lines, one of which ends in a carriage return and one of which is empty. -/
theorem description_eq_numbered_second : 0 < 2 ∧ 0 < 3 ∧ Text.excerpt "a\r\nbcd\n\ne\nf" (2 : Nat) ≠ "" ∧
    (Context.mk (.ofString "t.script") (2 : Nat) (3 : Nat)
      (some (Text.excerpt "a\r\nbcd\n\ne\nf" (2 : Nat)))).description.toList =
      "t.script:2:3\n   1 | a\n   2 | bcd\n         ^^^\n   3 | \n   4 | e".toList := by
  have nonempty : Text.excerpt "a\r\nbcd\n\ne\nf" (2 : Nat) ≠ "" := by decide +kernel
  refine ⟨by decide, by decide, nonempty, ?_⟩
  rcases @description_eq_numbered (.ofString "t.script") _ 2 3 (by decide) (by decide) nonempty with
    ⟨shown, described, _, listed⟩
  rw [described, listed]
  decide +kernel

end Context

end EventScript
