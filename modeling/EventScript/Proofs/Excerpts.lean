import EventScript.Proofs.Spelling
import EventScript.Text.Excerpt
import EventScript.Text.Position
import Mathlib.Data.List.Basic

/-! Excerpts line by line. The lines that an excerpt shows are those around the reported one as far
as the text has them, each with its number, and the marker stands behind the reported one. -/

namespace EventScript.Text

/-! ## Lines -/

theorem pieces_eq_splitOn (separator : Char) (text : List Char) :
    pieces separator text = text.splitOn separator := by
  induction text with
  | nil => rfl
  | cons c rest induction =>
      rw [pieces, List.splitOn_cons_eq_if_modifyHead, induction]
      by_cases separates : c = separator
      · simp [separates]
      · rcases List.exists_cons_of_ne_nil (List.splitOn_ne_nil separator rest) with
          ⟨first, others, same⟩
        simp [separates, same]

theorem length_pieces (separator : Char) (text : List Char) :
    (pieces separator text).length = text.count separator + 1 := by
  induction text with
  | nil => rfl
  | cons c rest induction =>
      rw [pieces]
      by_cases separates : c = separator
      · simp [separates, induction]
      · rw [if_neg separates, List.count_cons_of_ne separates]
        cases same : pieces separator rest with
        | nil => simp [same] at induction
        | cons first others => simpa [same] using induction

theorem not_mem_of_mem_pieces {separator : Char} {text : List Char} :
    ∀ piece ∈ pieces separator text, separator ∉ piece := by
  induction text with
  | nil => simp [pieces]
  | cons c rest induction =>
      rw [pieces]
      by_cases separates : c = separator
      · simpa [separates] using induction
      · rw [if_neg separates]
        cases same : pieces separator rest with
        | nil => simpa using Ne.symm separates
        | cons first others =>
            rw [same, List.forall_mem_cons] at induction
            rw [List.forall_mem_cons]
            exact ⟨by simpa using ⟨Ne.symm separates, induction.1⟩, induction.2⟩

theorem joinLines_pieces (text : List Char) : joinLines (pieces '\n' text) = text := by
  rw [pieces_eq_splitOn]
  exact List.intercalate_splitOn _

theorem pieces_joinLines {lines : List (List Char)} (nonempty : lines ≠ [])
    (noFeed : ∀ line ∈ lines, '\n' ∉ line) : pieces '\n' (joinLines lines) = lines := by
  rw [pieces_eq_splitOn]
  exact List.splitOn_intercalate _ noFeed nonempty

theorem withoutReturn_sublist (piece : List Char) : (withoutReturn piece).Sublist piece := by
  unfold withoutReturn
  split
  · exact List.dropLast_sublist piece
  · exact List.Sublist.refl piece

theorem withoutReturn_eq_nil {piece : List Char} (nothing : withoutReturn piece = []) :
    piece = [] ∨ piece = ['\r'] := by
  unfold withoutReturn at nothing
  split at nothing
  · next ends =>
      have whole := List.dropLast_append_getLast? '\r' ends
      rw [nothing] at whole
      exact .inr whole.symm
  · exact .inl nothing

/-- All lines of a text. Behind a last line feed there is one more, which is empty. -/
def allLines (text : List Char) : List (List Char) :=
  (pieces '\n' text).map withoutReturn

/-- The line of a number. The first line has the number one. -/
def line? (text : List Char) : Nat → Option (List Char)
  | 0 => none
  | index + 1 => (allLines text)[index]?

theorem length_allLines (text : List Char) : (allLines text).length = text.count '\n' + 1 := by
  rw [allLines, List.length_map, length_pieces]

theorem exists_line? {text : List Char} {number : Nat} (positive : 0 < number)
    (within : number ≤ (allLines text).length) : ∃ source, line? text number = some source := by
  cases number with
  | zero => contradiction
  | succ index => exact ⟨_, List.getElem?_eq_getElem within⟩

theorem feed_not_mem_of_line? {text source : List Char} {number : Nat}
    (found : line? text number = some source) : '\n' ∉ source := by
  cases number with
  | zero => contradiction
  | succ index =>
      rcases List.mem_map.1 (List.mem_of_getElem? found) with ⟨piece, member, rfl⟩
      exact fun feed => not_mem_of_mem_pieces piece member ((withoutReturn_sublist piece).subset feed)

theorem sourceLines_eq (text : List Char) : sourceLines text =
    if (allLines text).getLast? = some [] then (allLines text).dropLast else allLines text := rfl

theorem sourceLines_isPrefix (text : List Char) : sourceLines text <+: allLines text := by
  rw [sourceLines_eq]
  split
  · exact List.dropLast_prefix _
  · exact List.prefix_refl _

theorem line?_of_sourceLines {text source : List Char} {index : Nat}
    (found : (sourceLines text)[index]? = some source) : line? text (index + 1) = some source := by
  rcases List.getElem?_eq_some_iff.1 found with ⟨inside, rfl⟩
  exact List.prefix_iff_getElem?.1 (sourceLines_isPrefix text) index inside

/-- The lines that an excerpt draws from leave out one line at most: the last one, if it is empty.
-/
theorem length_sourceLines_lt_iff {text source : List Char} {number : Nat}
    (found : line? text number = some source) :
    (sourceLines text).length < number ↔ number = (allLines text).length ∧ source = [] := by
  cases number with
  | zero => contradiction
  | succ index =>
      rcases List.getElem?_eq_some_iff.1 found with ⟨inside, rfl⟩
      have last := List.getLast?_eq_getElem? (l := allLines text)
      rw [sourceLines_eq]
      split
      · next isEmpty =>
          rw [isEmpty] at last
          rw [List.length_dropLast]
          constructor
          · intro beyond
            have same : index = (allLines text).length - 1 := by omega
            subst same
            exact ⟨by omega, (List.getElem?_eq_some_iff.1 last.symm).2⟩
          · intro holds
            omega
      · next notEmpty =>
          constructor
          · intro beyond
            omega
          · rintro ⟨isLast, isEmpty⟩
            rw [last, ← isLast, Nat.add_sub_cancel, List.getElem?_eq_getElem inside,
              isEmpty] at notEmpty
            exact absurd rfl notEmpty

/-! ## Windows -/

def window (lines : List (List Char)) (line : Nat) : List (List Char) :=
  (lines.take (line + 2)).drop (line - 3)

theorem excerptStart_eq (line : Nat) : excerptStart line = line - 3 + 1 := by
  unfold excerptStart excerptRadius
  omega

theorem excerpt_eq (text : String) (line : Nat) :
    excerpt text line = String.ofList (joinLines (window (sourceLines text.toList) line)) := by
  have stop : excerptStop (sourceLines text.toList).length line =
      min (line + 2) (sourceLines text.toList).length := by
    unfold excerptStop excerptRadius
    simp only
    split <;> omega
  rw [excerpt, excerptStart_eq, stop, window, Nat.add_sub_cancel, ← List.take_eq_take_min]

theorem window_append {before behind : List (List Char)} {source : List Char} {line : Nat}
    (length : before.length + 1 = line) :
    window (before ++ source :: behind) line =
      before.drop (line - 3) ++ source :: behind.take 2 := by
  have taken : line + 2 - before.length = 3 := by omega
  rw [window, List.take_append, taken, List.take_of_length_le (by omega), List.take_succ_cons,
    List.drop_append_of_le_length (by omega)]

/-! ## Numbered lines -/

def numberedFrom (number : Nat) (lines : List (List Char)) : List (List Char) :=
  lines.mapIdx fun index source => lineLabel (number + index) ++ source

@[simp] theorem numberedFrom_nil (number : Nat) : numberedFrom number [] = [] := rfl

theorem numberedFrom_cons (number : Nat) (source : List Char) (others : List (List Char)) :
    numberedFrom number (source :: others) =
      (lineLabel number ++ source) :: numberedFrom (number + 1) others := by
  simp only [numberedFrom, List.mapIdx_cons, Nat.add_zero, Nat.add_assoc, Nat.add_comm 1]

theorem numberedLines_of_apart {line number : Nat} {lines : List (List Char)}
    (apart : line < number ∨ number + lines.length ≤ line) (column : Int) :
    numberedLines line column number lines = numberedFrom number lines := by
  induction lines generalizing number with
  | nil => rfl
  | cons source others induction =>
      rw [List.length_cons] at apart
      have others : line < number + 1 ∨ number + 1 + others.length ≤ line := by omega
      rw [numberedLines, numberedFrom_cons, if_neg (by omega), induction others]

theorem numberedLines_append (line column : Int) (number : Nat) (first second : List (List Char)) :
    numberedLines line column number (first ++ second) =
      numberedLines line column number first ++
        numberedLines line column (number + first.length) second := by
  induction first generalizing number with
  | nil => rfl
  | cons source others induction =>
      have count : number + (others.length + 1) = number + 1 + others.length := by omega
      rw [List.cons_append, numberedLines, numberedLines, induction, List.length_cons, count]
      split
      · rfl
      · rfl

theorem numberedLines_ne_nil {lines : List (List Char)} (nonempty : lines ≠ []) (line column : Int)
    (number : Nat) : numberedLines line column number lines ≠ [] := by
  cases lines with
  | nil => contradiction
  | cons source others =>
      rw [numberedLines]
      split
      · simp
      · simp

theorem numberedLines_of_line {line number : Nat} {before behind : List (List Char)}
    (counts : number + before.length = line) (source : List Char) (column : Int) :
    numberedLines line column number (before ++ source :: behind) =
      numberedFrom number before ++ (lineLabel line ++ source) ::
        markerLine (lineLabel line) column :: numberedFrom (line + 1) behind := by
  rw [numberedLines_append, numberedLines_of_apart (.inr (by omega)), counts, numberedLines,
    if_pos rfl, numberedLines_of_apart (.inl (by omega))]

theorem feed_not_mem_lineLabel (number : Nat) : '\n' ∉ lineLabel number := by
  intro member
  simp only [lineLabel, List.mem_append, List.mem_replicate] at member
  rcases member with (padding | digit) | border
  · exact absurd padding.2 (by decide)
  · exact absurd (Decimal.isDigit_of_mem_ofNat digit) (by decide)
  · exact absurd border (by decide)

def marker (label : List Char) (column : Nat) : List Char :=
  List.replicate (label.length + column - 1) ' ' ++ ['^', '^', '^']

theorem markerLine_natCast (label : List Char) (column : Nat) :
    markerLine label column = marker label column := by
  have count : ((label.length : Int) + column - 1).toNat = label.length + column - 1 := by omega
  rw [markerLine, marker, count]

theorem feed_not_mem_marker (label : List Char) (column : Nat) : '\n' ∉ marker label column := by
  simp [marker]

/-- A label has a bar, which no marker has. -/
theorem marker_ne (label source : List Char) (column number : Nat) :
    marker label column ≠ lineLabel number ++ source := by
  intro same
  have bar : '|' ∈ marker label column := by
    rw [same]
    simp [lineLabel]
  simp [marker] at bar

/-! ## Shown lines -/

/-- Shown lines are those of a text from the number `first` on, each with its number in front. -/
def ShowsLines (text : List Char) (first : Nat) (shown : List (List Char)) : Prop :=
  ∀ (index : Nat) line, shown[index]? = some line → ∃ source,
    line? text (first + index) = some source ∧ line = lineLabel (first + index) ++ source

/-- Shown lines are numbered lines of a text. The line of the place is one of them, and directly
behind it a marker begins under the column of the place. -/
def MarksPlace (text : List Char) (place : Position) (shown : List (List Char)) : Prop :=
  ∃ first before source behind,
    ShowsLines text first before ∧ first + before.length = place.line ∧
    line? text place.line = some source ∧ ShowsLines text (place.line + 1) behind ∧
    shown = before ++ (lineLabel place.line ++ source) ::
      marker (lineLabel place.line) place.column :: behind

theorem showsLines_numberedFrom {text : List Char} {first : Nat} {lines : List (List Char)}
    (drawn : ∀ (index : Nat) source, lines[index]? = some source →
      line? text (first + index) = some source) :
    ShowsLines text first (numberedFrom first lines) := by
  intro index line found
  rw [numberedFrom, List.getElem?_mapIdx, Option.map_eq_some_iff] at found
  rcases found with ⟨source, inside, rfl⟩
  exact ⟨source, drawn index source inside, rfl⟩

theorem ShowsLines.feed_not_mem {text : List Char} {first : Nat} {shown : List (List Char)}
    (shows : ShowsLines text first shown) : ∀ line ∈ shown, '\n' ∉ line := by
  intro line member
  rcases List.mem_iff_getElem?.1 member with ⟨index, found⟩
  rcases shows index line found with ⟨source, isLine, rfl⟩
  rw [List.mem_append, not_or]
  exact ⟨feed_not_mem_lineLabel _, feed_not_mem_of_line? isLine⟩

theorem MarksPlace.feed_not_mem {text : List Char} {place : Position} {shown : List (List Char)}
    (marks : MarksPlace text place shown) : ∀ line ∈ shown, '\n' ∉ line := by
  rcases marks with ⟨first, before, source, behind, showsBefore, _, isLine, showsBehind, rfl⟩
  rw [List.forall_mem_append, List.forall_mem_cons, List.forall_mem_cons]
  refine ⟨showsBefore.feed_not_mem, ?_, feed_not_mem_marker _ _, showsBehind.feed_not_mem⟩
  rw [List.mem_append, not_or]
  exact ⟨feed_not_mem_lineLabel _, feed_not_mem_of_line? isLine⟩

theorem MarksPlace.ne_nil {text : List Char} {place : Position} {shown : List (List Char)}
    (marks : MarksPlace text place shown) : shown ≠ [] := by
  rcases marks with ⟨_, _, _, _, _, _, _, _, rfl⟩
  simp

theorem MarksPlace.not_showsLines {text : List Char} {place : Position} {first : Nat}
    {shown : List (List Char)} (marks : MarksPlace text place shown) :
    ¬ShowsLines text first shown := by
  rcases marks with ⟨_, before, source, behind, _, _, _, _, rfl⟩
  intro shows
  have markerShown : (before ++ (lineLabel place.line ++ source) ::
      marker (lineLabel place.line) place.column :: behind)[before.length + 1]? =
        some (marker (lineLabel place.line) place.column) := by
    simp
  rcases shows _ _ markerShown with ⟨source', _, same⟩
  exact marker_ne _ _ _ _ same

theorem line?_of_window {text source : List Char} {line index : Nat}
    (found : (window (sourceLines text) line)[index]? = some source) :
    line? text (line - 3 + 1 + index) = some source := by
  rw [window, List.getElem?_drop] at found
  have order : line - 3 + 1 + index = line - 3 + index + 1 := by omega
  rw [order]
  apply line?_of_sourceLines
  rw [List.getElem?_take] at found
  split at found
  · exact found
  · contradiction

def shownLines (text : List Char) (place : Position) : List (List Char) :=
  numberedLines place.line place.column (place.line - 3 + 1)
    (window (sourceLines text) place.line)

theorem exists_split_of_lt {lines : List (List Char)} {index : Nat} (inside : index < lines.length) :
    ∃ before source behind, lines = before ++ source :: behind ∧ before.length = index :=
  ⟨lines.take index, lines[index], lines.drop (index + 1), by
    rw [← List.drop_eq_getElem_cons, List.take_append_drop], List.length_take_of_le (by omega)⟩

theorem marksPlace_shownLines {text : List Char} {place : Position} (positive : 0 < place.line)
    (within : place.line ≤ (sourceLines text).length) :
    MarksPlace text place (shownLines text place) := by
  have drawn := @line?_of_window text
  rcases exists_split_of_lt (Nat.lt_of_lt_of_le (Nat.sub_one_lt_of_lt positive) within) with
    ⟨before, source, behind, whole, length⟩
  have shown : window (before ++ source :: behind) place.line =
      before.drop (place.line - 3) ++ source :: behind.take 2 := window_append (by omega)
  rw [← whole] at shown
  have counts : place.line - 3 + 1 + (before.drop (place.line - 3)).length = place.line := by
    rw [List.length_drop]
    omega
  refine ⟨place.line - 3 + 1, numberedFrom (place.line - 3 + 1) (before.drop (place.line - 3)),
    source, numberedFrom (place.line + 1) (behind.take 2), ?_, ?_, ?_, ?_, ?_⟩
  · refine showsLines_numberedFrom fun index source' found => drawn ?_
    have inside := (List.getElem?_eq_some_iff.1 found).1
    rw [shown, List.getElem?_append_left inside, found]
  · rw [numberedFrom, List.length_mapIdx, counts]
  · have isLine : line? text (place.line - 3 + 1 + (before.drop (place.line - 3)).length) =
        some source :=
      drawn (by rw [shown, List.getElem?_append_right (Nat.le_refl _), Nat.sub_self]; rfl)
    rwa [counts] at isLine
  · refine showsLines_numberedFrom fun index source' found => ?_
    have order : place.line + 1 + index = place.line - 3 + 1 +
        ((before.drop (place.line - 3)).length + (index + 1)) := by omega
    rw [order]
    refine drawn ?_
    rw [shown, List.getElem?_append_right (Nat.le_add_right _ _), Nat.add_sub_cancel_left,
      List.getElem?_cons_succ, found]
  · rw [shownLines, shown, numberedLines_of_line counts, markerLine_natCast]

theorem showsLines_shownLines {text : List Char} {place : Position}
    (beyond : (sourceLines text).length < place.line) :
    ShowsLines text (place.line - 3 + 1) (shownLines text place) := by
  have apart : place.line - 3 + 1 + (window (sourceLines text) place.line).length ≤ place.line := by
    rw [window, List.length_drop, List.length_take]
    omega
  rw [shownLines, numberedLines_of_apart (.inr apart)]
  exact showsLines_numberedFrom fun index source found => line?_of_window found

/-! ## Blank excerpts -/

theorem joinLines_eq_nil {lines : List (List Char)} (nothing : joinLines lines = []) :
    lines = [] ∨ lines = [[]] := by
  cases lines with
  | nil => exact .inl rfl
  | cons first others =>
      cases others with
      | nil => exact .inr (by simpa [joinLines] using nothing)
      | cons second more => simp [joinLines] at nothing

theorem feed_not_mem_window {text : List Char} {number : Nat} :
    ∀ line ∈ window (sourceLines text) number, '\n' ∉ line := by
  intro line member
  rcases List.mem_iff_getElem?.1 member with ⟨index, found⟩
  exact feed_not_mem_of_line? (line?_of_window found)

theorem numberedExcerpt_excerpt {text : String} {place : Position}
    (shown : joinLines (window (sourceLines text.toList) place.line) ≠ []) :
    numberedExcerpt (excerpt text place.line) place.line place.column =
      String.ofList (joinLines (shownLines text.toList place)) := by
  have nonempty : window (sourceLines text.toList) place.line ≠ [] :=
    fun nothing => shown (by rw [nothing]; rfl)
  rw [numberedExcerpt, excerpt_eq, excerptStart_eq, String.toList_ofList,
    pieces_joinLines nonempty feed_not_mem_window, shownLines]

theorem sourceLines_of_blank {text : List Char} {line : Nat} (positive : 0 < line)
    (within : line ≤ (sourceLines text).length)
    (blank : joinLines (window (sourceLines text) line) = []) :
    line = 1 ∧ sourceLines text = [[]] := by
  rcases exists_split_of_lt (Nat.lt_of_lt_of_le (Nat.sub_one_lt_of_lt positive) within) with
    ⟨before, source, behind, whole, length⟩
  have shown : window (before ++ source :: behind) line =
      before.drop (line - 3) ++ source :: behind.take 2 := window_append (by omega)
  rw [whole, shown] at blank
  rcases joinLines_eq_nil blank with nothing | one
  · simp at nothing
  · have lengths := congrArg List.length one
    simp only [List.length_append, List.length_drop, List.length_cons, List.length_take,
      List.length_nil] at lengths
    have noneBefore : before = [] := List.length_eq_zero_iff.1 (by omega)
    have noneBehind : behind = [] := List.length_eq_zero_iff.1 (by omega)
    subst noneBefore noneBehind
    refine ⟨by simp at length; omega, ?_⟩
    rw [whole]
    simpa using one

/-- A text whose excerpt is blank has no character but the terminator of its only line and a
carriage return behind it. -/
theorem text_of_blank {text : List Char} (blank : sourceLines text = [[]]) :
    text ∈ [['\n'], ['\r', '\n'], ['\n', '\r'], ['\r', '\n', '\r']] := by
  have ends : (allLines text).getLast? = some [] := by
    by_contra notEmpty
    rw [sourceLines_eq, if_neg notEmpty] at blank
    simp [blank] at notEmpty
  rw [sourceLines_eq, if_pos ends] at blank
  have two := List.dropLast_append_getLast? [] ends
  rw [blank, allLines] at two
  rcases List.map_eq_append_iff.1 two.symm with ⟨firsts, lasts, whole, isFirst, isLast⟩
  rcases List.map_eq_singleton_iff.1 isFirst with ⟨first, rfl, firstBlank⟩
  rcases List.map_eq_singleton_iff.1 isLast with ⟨last, rfl, lastBlank⟩
  rw [← joinLines_pieces text, whole]
  rcases withoutReturn_eq_nil firstBlank with rfl | rfl
  · rcases withoutReturn_eq_nil lastBlank with rfl | rfl <;> simp [joinLines]
  · rcases withoutReturn_eq_nil lastBlank with rfl | rfl <;> simp [joinLines]

end EventScript.Text
