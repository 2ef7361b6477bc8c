import EventScript.Proofs.AlikeReports
import EventScript.Proofs.Excerpts
import EventScript.Proofs.TokenLayout

/-! Reported lines. A refused text is reported at a place of it, and its report shows the line of
that place and marks the column there, unless the line is an empty one at the end of the text. -/

namespace EventScript

/-! ## Reported places -/

/-- The place behind some beginning of a text. -/
def Position.Within (place : Position) (text : List Char) : Prop :=
  ∃ passed, passed <+: text ∧ place = .counted passed

theorem Position.within_after {passed text : List Char} (isPrefix : passed <+: text) :
    (start.after passed).Within text :=
  ⟨passed, isPrefix, after_start passed⟩

theorem Position.Within.line_pos {place : Position} {text : List Char} (within : place.Within text) :
    0 < place.line := by
  rcases within with ⟨passed, _, rfl⟩
  exact Nat.lt_of_lt_of_le Nat.zero_lt_one (Nat.le_add_right 1 _)

theorem Position.Within.line_le {place : Position} {text : List Char} (within : place.Within text) :
    place.line ≤ (Text.allLines text).length := by
  rcases within with ⟨passed, isPrefix, rfl⟩
  rw [Text.length_allLines, Nat.add_comm]
  exact line_counted_le isPrefix

theorem Scan.isPrefix_of_read (text : List Char) :
    (read text).lexemeText ++ (read text).blanks <+: text := by
  fun_induction read text with
  | case1 text blanks ahead => exact List.takeWhile_prefix _
  | case2 text blanks first rest ahead kind value source tail found shorter induction =>
      have whole := text_of_ahead ahead
      rw [← Reading.source_append_rest found, ← List.append_assoc] at whole
      have behind : ((read tail).cons ⟨blanks, kind, value, source⟩).lexemeText ++
          ((read tail).cons ⟨blanks, kind, value, source⟩).blanks =
            blanks ++ source ++ ((read tail).lexemeText ++ (read tail).blanks) := by
        simp [cons, lexemeText]
      rw [behind, whole]
      exact (List.prefix_append_right_inj _).2 induction
  | case3 text blanks => exact List.takeWhile_prefix _
  | case4 text blanks => exact List.takeWhile_prefix _

namespace Tokens

variable {text : String} {tokens : Tokens}

theorem within_of_ofText_error {error : LexicalError} (failed : ofText text = .error error) :
    error.place.Within text.toList := by
  unfold ofText at failed
  simp only at failed
  split at failed
  · contradiction
  · injection failed with same
    subst same
    exact Position.within_after (Scan.isPrefix_of_read text.toList)

theorem within_of_mem (lexed : ofText text = .ok tokens) {token : Token}
    (member : token ∈ tokens.toList) : token.place.Within text.toList := by
  rcases Scan.row_of_read (list_of_ofText lexed).1 with ⟨row, spelled, blank⟩
  have layout := layout_of_row row blank
  rw [ofText_of_row row blank spelled] at lexed
  injection lexed with same
  rw [same, ← spelled] at layout
  rw [toList, layout.placed, List.mem_append, List.mem_map, List.mem_singleton] at member
  rcases member with ⟨spot, _, rfl⟩ | rfl
  · exact ⟨_, List.take_prefix _ _, rfl⟩
  · exact ⟨_, List.prefix_refl _, layout.finish⟩

end Tokens

theorem exists_atPosition_of_refused {file : Path} {text : String} {diagnostic : Diagnostic}
    (refused : parseSections file text = .error diagnostic) :
    ∃ message place, place.Within text.toList ∧
      diagnostic = .atPosition message file text place := by
  cases lexed : Tokens.ofText text with
  | error error =>
      rw [parseSections, lexed] at refused
      injection refused with same
      exact ⟨_, _, Tokens.within_of_ofText_error lexed, same.symm⟩
  | ok tokens =>
      rcases (parseSections_eq_error lexed).1 refused with ⟨fault, failed, rfl⟩
      rcases Parser.readSections_error_of_alike rfl failed with ⟨_, index, _, _, found, _, _⟩
      exact ⟨_, _, Tokens.within_of_mem lexed (List.mem_of_getElem? found), rfl⟩

/-! ## Descriptions -/

namespace Diagnostic

def StandsAt (diagnostic : Diagnostic) (place : Position) : Prop :=
  ∃ context, diagnostic.context = some context ∧
    context.line = place.line ∧ context.column = place.column

/-- The description of a diagnostic shows a place of the text: behind the location stand numbered
lines with a marker under the place, and then the message. -/
def ShowsPlace (diagnostic : Diagnostic) (text : List Char) (place : Position) : Prop :=
  ∃ context shown, diagnostic.context = some context ∧ Text.MarksPlace text place shown ∧
    diagnostic.description.toList = context.location.toList ++
      '\n' :: (Text.joinLines shown ++ '\n' :: diagnostic.message.toList)

variable {message : String} {file : Path} {text : String} {place : Position}

theorem description_of_blank
    (blank : Text.joinLines (Text.window (Text.sourceLines text.toList) place.line) = []) :
    ∃ context, (atPosition message file text place).context = some context ∧
      (atPosition message file text place).description.toList =
        context.location.toList ++ '\n' :: message.toList := by
  refine ⟨_, rfl, ?_⟩
  have excerpt : (Text.excerpt text place.line).isEmpty = true := by
    rw [Text.excerpt_eq, blank]
    rfl
  by_cases noText : text.isEmpty = true
  · simp [description, atPosition, Context.description, Context.location, noText]
  · simp [description, atPosition, Context.description, Context.location, noText, excerpt]

theorem description_of_shown
    (shown : Text.joinLines (Text.window (Text.sourceLines text.toList) place.line) ≠ []) :
    ∃ context, (atPosition message file text place).context = some context ∧
      (atPosition message file text place).description.toList = context.location.toList ++
        '\n' :: (Text.joinLines (Text.shownLines text.toList place) ++ '\n' :: message.toList) := by
  refine ⟨_, rfl, ?_⟩
  have noText : text.isEmpty = false := by
    rw [Bool.eq_false_iff, Ne, String.isEmpty_iff]
    rintro rfl
    exact shown (by simp [Text.sourceLines, Text.pieces, Text.withoutReturn, Text.window, Text.joinLines])
  have excerpt : (Text.excerpt text place.line).isEmpty = false := by
    rw [Bool.eq_false_iff, Ne, String.isEmpty_iff, Text.excerpt_eq]
    simpa using shown
  simp [description, atPosition, Context.description, Context.location, noText, excerpt,
    Text.numberedExcerpt_excerpt shown]

theorem not_showsPlace_of_beyond
    (beyond : (Text.sourceLines text.toList).length < place.line) :
    ¬(atPosition message file text place).ShowsPlace text.toList place := by
  rintro ⟨context, shown, isContext, marks, described⟩
  by_cases blank : Text.joinLines (Text.window (Text.sourceLines text.toList) place.line) = []
  · rcases @description_of_blank message file text place blank with ⟨context', isContext', plain⟩
    rw [isContext, Option.some.injEq] at isContext'
    rw [plain, isContext', List.append_cancel_left_eq, List.cons.injEq] at described
    have lengths := congrArg List.length described.2
    simp [atPosition] at lengths
    omega
  · rcases @description_of_shown message file text place blank with ⟨context', isContext', listed⟩
    rw [isContext, Option.some.injEq] at isContext'
    rw [listed, isContext', List.append_cancel_left_eq, List.cons.injEq] at described
    have shows := Text.showsLines_shownLines beyond
    have nonempty : Text.shownLines text.toList place ≠ [] :=
      Text.numberedLines_ne_nil (fun nothing => blank (by rw [nothing]; rfl)) _ _ _
    have lines := congrArg (Text.pieces '\n') (List.append_cancel_right described.2)
    rw [Text.pieces_joinLines nonempty shows.feed_not_mem,
      Text.pieces_joinLines marks.ne_nil marks.feed_not_mem] at lines
    exact marks.not_showsLines (lines ▸ shows)

theorem showsPlace_of_within (positive : 0 < place.line)
    (within : place.line ≤ (Text.sourceLines text.toList).length)
    (shown : Text.joinLines (Text.window (Text.sourceLines text.toList) place.line) ≠ []) :
    (atPosition message file text place).ShowsPlace text.toList place := by
  rcases @description_of_shown message file text place shown with ⟨context, isContext, listed⟩
  exact ⟨context, _, isContext, Text.marksPlace_shownLines positive within, listed⟩

end Diagnostic

/-! ## Refused texts -/

theorem compile_eq_error {file : Path} {text : String} {diagnostic : Diagnostic} :
    compile file text = .error diagnostic ↔ parseSections file text = .error diagnostic := by
  unfold compile
  cases parseSections file text <;> simp [Except.map]

theorem parseSections_of_terminator (file : Path) :
    parseSections file "\n" = .ok [] ∧ parseSections file "\r\n" = .ok [] := by
  constructor
  · exact parseSections_eq_ok.2 ⟨⟨[⟨.newline, "\n", ⟨1, 1⟩⟩], ⟨2, 1⟩⟩,
      by decide +kernel, by decide +kernel⟩
  · exact parseSections_eq_ok.2 ⟨⟨[⟨.newline, "\r\n", ⟨1, 1⟩⟩], ⟨2, 1⟩⟩,
      by decide +kernel, by decide +kernel⟩

theorem Tokens.ofText_of_stray_return : ∀ text ∈ ["\n\r", "\r\n\r"],
    ofText text = .error ⟨.unexpected '\r', ⟨2, 1⟩⟩ := by
  decide +kernel

/-- Where a text has nothing but a line terminator and a carriage return, only the return can be at
fault, which stands on the second line. -/
theorem line_of_blank {file : Path} {text : String} {message : String} {place : Position}
    (blank : Text.sourceLines text.toList = [[]])
    (refused : parseSections file text = .error (.atPosition message file text place)) :
    place.line = 2 := by
  have line_of_return (member : text ∈ ["\n\r", "\r\n\r"]) : place.line = 2 := by
    rw [parseSections, Tokens.ofText_of_stray_return text member] at refused
    injection refused with same
    injection same with _ context
    injection Option.some.inj context with _ line _ _
    exact Int.ofNat_inj.1 line.symm
  have written {characters : List Char} (same : text.toList = characters) :
      text = String.ofList characters := by
    rw [← same, String.ofList_toList]
  have member := Text.text_of_blank blank
  simp only [List.mem_cons, List.not_mem_nil, or_false] at member
  rcases member with same | same | same | same
  · have text_eq : text = "\n" := written same
    rw [text_eq, (parseSections_of_terminator file).1] at refused
    contradiction
  · have text_eq : text = "\r\n" := written same
    rw [text_eq, (parseSections_of_terminator file).2] at refused
    contradiction
  · exact line_of_return (by simp [written same])
  · exact line_of_return (by simp [written same])

/-- A refused text is reported at a place of it, and the description shows that place exactly if it
is not on an empty last line. -/
theorem showsPlace_iff_of_refused {file : Path} {text : String} {diagnostic : Diagnostic}
    (refused : compile file text = .error diagnostic) :
    ∃ place source, place.Within text.toList ∧ diagnostic.StandsAt place ∧
      Text.line? text.toList place.line = some source ∧
      (diagnostic.ShowsPlace text.toList place ↔
        ¬(place.line = (Text.allLines text.toList).length ∧ source = [])) := by
  have failed := compile_eq_error.1 refused
  rcases exists_atPosition_of_refused failed with ⟨message, place, within, rfl⟩
  have positive := within.line_pos
  rcases Text.exists_line? positive within.line_le with ⟨source, isLine⟩
  refine ⟨place, source, within, ⟨_, rfl, rfl, rfl⟩, isLine, ?_⟩
  rw [← Text.length_sourceLines_lt_iff isLine, Nat.not_lt]
  constructor
  · intro shows
    by_contra beyond
    exact Diagnostic.not_showsPlace_of_beyond (Nat.lt_of_not_le beyond) shows
  · intro inside
    refine Diagnostic.showsPlace_of_within positive inside fun blank => ?_
    rcases Text.sourceLines_of_blank positive inside blank with ⟨first, onlyLine⟩
    have second := line_of_blank onlyLine failed
    omega

theorem Diagnostic.StandsAt.eq {diagnostic : Diagnostic} {place place' : Position}
    (stands : diagnostic.StandsAt place) (stands' : diagnostic.StandsAt place') : place = place' := by
  rcases stands with ⟨context, isContext, line, column⟩
  rcases stands' with ⟨context', isContext', line', column'⟩
  rw [isContext, Option.some.injEq] at isContext'
  subst isContext'
  exact congrArg₂ Position.mk (Int.ofNat_inj.1 (line.symm.trans line'))
    (Int.ofNat_inj.1 (column.symm.trans column'))

/-- A misspelled keyword is shown on its line. -/
theorem showsPlace_misspelled : ∃ diagnostic,
    compile unnamedFile "--- a\njmp(b)\n" = .error diagnostic ∧ diagnostic.StandsAt ⟨2, 1⟩ ∧
      diagnostic.ShowsPlace "--- a\njmp(b)\n".toList ⟨2, 1⟩ := by
  have lexed : Tokens.ofText "--- a\njmp(b)\n" = .ok
      ⟨[⟨.sectionMarker, "---", ⟨1, 1⟩⟩, ⟨.identifier, "a", ⟨1, 5⟩⟩, ⟨.newline, "\n", ⟨1, 6⟩⟩,
        ⟨.identifier, "jmp", ⟨2, 1⟩⟩, ⟨.leftParen, "(", ⟨2, 4⟩⟩, ⟨.identifier, "b", ⟨2, 5⟩⟩,
        ⟨.rightParen, ")", ⟨2, 6⟩⟩, ⟨.newline, "\n", ⟨2, 7⟩⟩], ⟨3, 1⟩⟩ := by decide +kernel
  have refused : parseSections unnamedFile "--- a\njmp(b)\n" =
      .error (Fault.diagnostic ⟨.expectedStatement, ⟨.identifier, "jmp", ⟨2, 1⟩⟩⟩ unnamedFile
        "--- a\njmp(b)\n") :=
    (parseSections_eq_error lexed).2 ⟨_, by decide +kernel, rfl⟩
  rcases showsPlace_iff_of_refused (compile_eq_error.2 refused) with
    ⟨place, source, _, stands, _, shows⟩
  have same : place = ⟨2, 1⟩ := stands.eq ⟨_, rfl, rfl, rfl⟩
  subst same
  refine ⟨_, compile_eq_error.2 refused, stands, shows.2 fun last => ?_⟩
  exact absurd last.1 (by decide)

/-- The end of a text behind its last line feed is reported there, and not shown. -/
theorem not_showsPlace_unfinished : ∃ diagnostic,
    compile unnamedFile "--- a\njump(\n" = .error diagnostic ∧ diagnostic.StandsAt ⟨3, 1⟩ ∧
      ¬diagnostic.ShowsPlace "--- a\njump(\n".toList ⟨3, 1⟩ := by
  have lexed : Tokens.ofText "--- a\njump(\n" = .ok
      ⟨[⟨.sectionMarker, "---", ⟨1, 1⟩⟩, ⟨.identifier, "a", ⟨1, 5⟩⟩, ⟨.newline, "\n", ⟨1, 6⟩⟩,
        ⟨.identifier, "jump", ⟨2, 1⟩⟩, ⟨.leftParen, "(", ⟨2, 5⟩⟩, ⟨.newline, "\n", ⟨2, 6⟩⟩],
        ⟨3, 1⟩⟩ := by decide +kernel
  have refused : parseSections unnamedFile "--- a\njump(\n" =
      .error (Fault.diagnostic ⟨.expected .identifier, .atEnd ⟨3, 1⟩⟩ unnamedFile
        "--- a\njump(\n") :=
    (parseSections_eq_error lexed).2 ⟨_, by decide +kernel, rfl⟩
  exact ⟨_, compile_eq_error.2 refused, ⟨_, rfl, rfl, rfl⟩,
    Diagnostic.not_showsPlace_of_beyond (by decide)⟩

end EventScript
