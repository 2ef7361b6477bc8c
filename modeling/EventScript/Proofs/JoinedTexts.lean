import EventScript.Proofs.Continuations
import EventScript.Proofs.ScriptText

/-! Texts put together. A script with another one behind it is a script: the sections of both follow
one another, and of a section that both define the later one counts. -/

namespace EventScript

open TokenStream

/-! ## Statements behind other sections -/

theorem Section.addInstruction_append (instruction : Instruction) (earlier : List Section)
    {sections : List Section} (inSection : sections ≠ []) :
    addInstruction instruction (earlier ++ sections) =
      earlier ++ addInstruction instruction sections := by
  rcases List.eq_nil_or_concat' sections with rfl | ⟨front, last, rfl⟩
  · contradiction
  · rw [← List.append_assoc, addInstruction_append_singleton, addInstruction_append_singleton,
      List.append_assoc]

theorem Statement.behind {sections after : List Section} {line : List Token}
    (statement : Statement sections line after) (earlier : List Section) :
    Statement (earlier ++ sections) line (earlier ++ after) := by
  cases statement with
  | header headed =>
      rw [← List.append_assoc]
      exact .header headed
  | instruction inSection written =>
      rw [← Section.addInstruction_append _ earlier inSection]
      exact .instruction (List.append_ne_nil_of_right_ne_nil earlier inSection) written

namespace Stage

def behind (earlier : List Section) (stage : Stage) : Stage :=
  ⟨earlier ++ stage.sections, stage.place⟩

theorem Next.behind {stage next : Stage} (passes : stage.Next next) (earlier : List Section) :
    (stage.behind earlier).Next (next.behind earlier) := by
  rcases next_iff_statement.1 passes with ⟨line, rest, passed, statement, place⟩
  exact next_iff_statement.2 ⟨line, rest, passed, statement.behind earlier, place⟩

theorem Reached.behind_whole {tokens tokens' whole : Tokens} {last last' : Stage}
    (reached : Reached tokens.stream last) (atEnd : last.place.ahead = [])
    (reached' : Reached tokens'.stream last') (atEnd' : last'.place.ahead = []) {back : List Token}
    (list : whole.list = tokens.list ++ back) (alike : Alike tokens'.list back) :
    ∃ final, Reached whole.stream final ∧ final.Finished ∧
      final.sections = last.sections ++ last'.sections := by
  rcases Passed.exists_of_ahead (show whole.stream.ahead = tokens.list ++ back from list) with
    ⟨middle, passed, ahead⟩
  have front := (reached.continues atEnd).2 whole.stream tokens.list middle passed rfl
  rcases Passed.exists_of_ahead (ahead.trans (List.append_nil back).symm) with
    ⟨rest, passedBack, nothing⟩
  have finished : rest.current.kind = .endOfInput := by simp [current, nothing, Token.atEnd]
  rcases exists_passed_of_skipped reached' with ⟨read, passed', leads⟩
  have readAll : read = tokens'.list := by
    have ahead' := passed'.ahead
    rw [atEnd', List.append_nil] at ahead'
    exact ahead'.symm
  have leads' := leads middle back rest passedBack (readAll ▸ alike) (by simp [finished])
  have lifted : Relation.ReflTransGen Next ⟨last.sections ++ [], middle.skipNewlines⟩
      ⟨last.sections ++ last'.sections, rest⟩ :=
    leads'.lift (behind last.sections) fun _ _ passes => passes.behind last.sections
  rw [List.append_nil] at lifted
  exact ⟨_, front.trans lifted, finished, rfl⟩

end Stage

/-! ## Lexemes behind a text -/

/-- The blanks at the end of a text come to stand before the first lexeme of the next one. -/
theorem Tokens.exists_ofText_append {first second : String} {tokens tokens' : Tokens}
    (lexed : ofText first = .ok tokens) (lexed' : ofText second = .ok tokens')
    (ends : ∀ token ∈ tokens.list.getLast?, token.kind = .newline) :
    ∃ whole back, ofText (first ++ second) = .ok whole ∧ whole.list = tokens.list ++ back ∧
      Alike tokens'.list back := by
  rcases list_of_ofText lexed with ⟨sound, list⟩
  rcases list_of_ofText lexed' with ⟨sound', list'⟩
  rcases Scan.row_of_read sound with ⟨row, spelled, blank⟩
  rcases Scan.row_of_read sound' with ⟨row', spelled', blank'⟩
  rw [list] at ends ⊢
  have joined := fun tail => Lexeme.row_of_lineEnd row (Scan.kind_of_getLast_locate ends) tail
  cases lexemes : (Scan.read second.toList).lexemes with
  | nil =>
      have noTokens : tokens'.list = [] := by rw [list', lexemes, Scan.locate_nil]
      rw [lexemes, Lexeme.textOf_nil, List.nil_append] at spelled'
      refine ⟨_, [], ofText_of_row (joined _) (List.forall_mem_append.2 ⟨blank, blank'⟩) ?_,
        (List.append_nil _).symm, noTokens ▸ rfl⟩
      rw [String.toList_append]
      conv_lhs => rw [spelled, spelled']
      exact List.append_assoc _ _ _
  | cons lexeme others =>
      rw [lexemes] at row' spelled' list'
      have backRow := Lexeme.row_indent row' blank
      have wholeLexed := @ofText_of_row (first ++ second) _ _
        (Lexeme.row_append.2 ⟨joined _, backRow⟩) blank' (by
          rw [String.toList_append]
          conv_lhs => rw [spelled, spelled']
          simp [Lexeme.textOf_indent])
      rw [Scan.locate_append] at wholeLexed
      refine ⟨_, _, wholeLexed, rfl, ?_⟩
      rw [Alike, list', glyphs_locate _ (Lexeme.wellFormed_of_row row'),
        glyphs_locate _ (Lexeme.wellFormed_of_row backRow)]
      cases others <;> rfl

/-! ## Joined scripts -/

section

variable {file file' again : Path} {first second : String}

theorem parseSections_append {sections sections' : List Section}
    (parsed : parseSections file first = .ok sections)
    (parsed' : parseSections file' second = .ok sections') :
    parseSections again (first ++ second) = .ok (sections ++ sections') := by
  rcases parseSections_eq_ok_iff_reached.1 parsed with ⟨tokens, last, lexed, reached, finished, rfl⟩
  rcases parseSections_eq_ok_iff_reached.1 parsed' with
    ⟨tokens', last', lexed', reached', finished', rfl⟩
  have atEnd := reached.ahead_eq_nil lexed finished
  have atEnd' := reached'.ahead_eq_nil lexed' finished'
  rcases Tokens.exists_ofText_append lexed lexed' (reached.continues atEnd).1 with
    ⟨whole, back, wholeLexed, list, alike⟩
  rcases reached.behind_whole atEnd reached' atEnd' list alike with
    ⟨final, wholeReached, wholeFinished, same⟩
  exact parseSections_eq_ok_iff_reached.2
    ⟨whole, final, wholeLexed, wholeReached, wholeFinished, same⟩

/-- Two scripts, one behind the other, are a script with the sections of both. A name stands for
what the second one makes of it, and for what the first one does if the second one has no section
of that name. -/
theorem compile_append {compilation compilation' : Compilation}
    (compiled : compile file first = .ok compilation)
    (compiled' : compile file' second = .ok compilation') :
    ∃ sections sections' whole, parseSections file first = .ok sections ∧
      parseSections file' second = .ok sections' ∧
      parseSections again (first ++ second) = .ok (sections ++ sections') ∧
      compile again (first ++ second) = .ok whole ∧
      ∀ name, whole.script.find? name =
        (compilation'.script.find? name).or (compilation.script.find? name) := by
  rcases compile_eq_ok.1 compiled with ⟨tokens, sections, lexed, read, rfl⟩
  rcases compile_eq_ok.1 compiled' with ⟨tokens', sections', lexed', read', rfl⟩
  have parsed : parseSections file first = .ok sections := parseSections_eq_ok.2 ⟨_, lexed, read⟩
  have parsed' : parseSections file' second = .ok sections' :=
    parseSections_eq_ok.2 ⟨_, lexed', read'⟩
  have joined := @parseSections_append _ _ again _ _ _ _ parsed parsed'
  refine ⟨sections, sections', assemble again (sections ++ sections'), parsed, parsed', joined, ?_,
    fun name => Script.find?_ofSections_append sections sections' name⟩
  rw [compile, joined, Except.map]

end

/-- The blanks at the end of the first text do no harm to the header behind them, and its section
takes the place of the earlier one of its name. -/
theorem compile_append_redefined : ∃ compilation compilation' whole,
    compile unnamedFile "--- a\njump(b)\n--- b\n  " = .ok compilation ∧
      compile unnamedFile "--- a\njump(c)\n" = .ok compilation' ∧
      parseSections unnamedFile ("--- a\njump(b)\n--- b\n  " ++ "--- a\njump(c)\n") =
        .ok [⟨"a", [.jump "b"]⟩, ⟨"b", []⟩, ⟨"a", [.jump "c"]⟩] ∧
      compile unnamedFile ("--- a\njump(b)\n--- b\n  " ++ "--- a\njump(c)\n") = .ok whole ∧
      whole.script.find? "a" = some [.jump "c"] ∧ whole.script.find? "b" = some [] := by
  have parsed : parseSections unnamedFile "--- a\njump(b)\n--- b\n  " =
      .ok [⟨"a", [.jump "b"]⟩, ⟨"b", []⟩] :=
    parseSections_eq_ok.2 ⟨⟨[⟨.sectionMarker, "---", ⟨1, 1⟩⟩, ⟨.identifier, "a", ⟨1, 5⟩⟩,
      ⟨.newline, "\n", ⟨1, 6⟩⟩, ⟨.identifier, "jump", ⟨2, 1⟩⟩, ⟨.leftParen, "(", ⟨2, 5⟩⟩,
      ⟨.identifier, "b", ⟨2, 6⟩⟩, ⟨.rightParen, ")", ⟨2, 7⟩⟩, ⟨.newline, "\n", ⟨2, 8⟩⟩,
      ⟨.sectionMarker, "---", ⟨3, 1⟩⟩, ⟨.identifier, "b", ⟨3, 5⟩⟩, ⟨.newline, "\n", ⟨3, 6⟩⟩],
      ⟨4, 3⟩⟩, by decide +kernel, by decide +kernel⟩
  have parsed' : parseSections unnamedFile "--- a\njump(c)\n" = .ok [⟨"a", [.jump "c"]⟩] :=
    parseSections_eq_ok.2 ⟨⟨[⟨.sectionMarker, "---", ⟨1, 1⟩⟩, ⟨.identifier, "a", ⟨1, 5⟩⟩,
      ⟨.newline, "\n", ⟨1, 6⟩⟩, ⟨.identifier, "jump", ⟨2, 1⟩⟩, ⟨.leftParen, "(", ⟨2, 5⟩⟩,
      ⟨.identifier, "c", ⟨2, 6⟩⟩, ⟨.rightParen, ")", ⟨2, 7⟩⟩, ⟨.newline, "\n", ⟨2, 8⟩⟩], ⟨3, 1⟩⟩,
      by decide +kernel, by decide +kernel⟩
  have compiled : compile unnamedFile "--- a\njump(b)\n--- b\n  " =
      .ok (assemble unnamedFile [⟨"a", [.jump "b"]⟩, ⟨"b", []⟩]) := by
    rw [compile, parsed, Except.map]
  have compiled' : compile unnamedFile "--- a\njump(c)\n" =
      .ok (assemble unnamedFile [⟨"a", [.jump "c"]⟩]) := by
    rw [compile, parsed', Except.map]
  rcases @compile_append _ _ unnamedFile _ _ _ _ compiled compiled' with
    ⟨sections, sections', whole, same, same', joined, wholeCompiled, found⟩
  rw [parsed, Except.ok.injEq] at same
  rw [parsed', Except.ok.injEq] at same'
  subst same same'
  exact ⟨_, _, whole, compiled, compiled', joined, wholeCompiled, (found "a").trans rfl,
    (found "b").trans rfl⟩

end EventScript
