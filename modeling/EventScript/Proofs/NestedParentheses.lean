import EventScript.Proofs.EmbeddedExpressions
import EventScript.Proofs.ExpressionRoundTrip
import EventScript.Proofs.GuardedCompilation

/-! Nested parentheses. A script takes them to any depth, and every one that opens takes nine calls,
which last until it closes. -/

namespace EventScript

/-! ## The room that parentheses take -/

/-- So many parentheses open here, one behind another. -/
def TokenStream.Opens : Nat → TokenStream → Prop
  | 0, _ => True
  | depth + 1, stream => stream.current.kind = .leftParen ∧ Opens depth stream.step

theorem TokenStream.opens_of_ahead {stream : TokenStream} {opening rest : List Token}
    (ahead : stream.ahead = opening ++ rest) (opens : ∀ token ∈ opening, token.kind = .leftParen) :
    stream.Opens opening.length := by
  induction opening generalizing stream with
  | nil => trivial
  | cons token others induction =>
      have current : stream.current = token := TokenStream.current_eq ahead
      have isOpening := opens token List.mem_cons_self
      refine ⟨current ▸ isOpening, ?_⟩
      cases others with
      | nil => trivial
      | cons next behind =>
          have advanced : stream.advance.ahead = next :: behind ++ rest := by
            rw [TokenStream.advance, ahead]
            rfl
          have notBreak : stream.advance.current.kind ≠ .newline := by
            rw [TokenStream.current_eq advanced, opens next (by simp)]
            decide
          have stepped : stream.step = stream.advance :=
            TokenStream.skipNewlines_eq TokenStream.breaks_nil (.nothing _) notBreak
          rw [stepped]
          exact induction advanced fun other member => opens other (List.mem_cons_of_mem _ member)

theorem TokenStream.Opens.skipNewlines {depth : Nat} {stream : TokenStream}
    (opens : stream.Opens depth) : stream.skipNewlines.Opens depth := by
  cases depth with
  | zero => trivial
  | succ depth =>
      have notBreak : stream.current.kind ≠ .newline := by simp [opens.1]
      rw [skipNewlines_eq breaks_nil (.nothing _) notBreak]
      exact opens

namespace Guarded

open Run

variable {α β : Type}

namespace Run

variable {ι σ ε : Type} {run : Run ι σ ε α} {input : ι} {state : σ}

theorem ended_of_tooDeep (deep : (run input state).1 = .error .tooDeep) :
    run input state = (.error .tooDeep, (run input state).2) :=
  Prod.ext deep rfl

theorem bind_tooDeep {next : α → Run ι σ ε β} (deep : (run input state).1 = .error .tooDeep) :
    ((run >>= next) input state).1 = .error .tooDeep := by
  rw [bind_error (ended_of_tooDeep deep)]

theorem handle_tooDeep {handler : Break ε → Run ι σ ε α}
    (deep : (run input state).1 = .error .tooDeep)
    (letsPass : handler .tooDeep = fail .tooDeep) :
    (handle run handler input state).1 = .error .tooDeep := by
  rw [handle_error (ended_of_tooDeep deep), letsPass]
  rfl

theorem rounds_tooDeep {ahead : ι → σ → Nat} {round : β → Run ι σ ε (β ⊕ α)} {carried : β}
    (deep : (round carried input state).1 = .error .tooDeep) :
    (rounds ahead round carried input state).1 = .error .tooDeep := by
  rw [rounds_error (ended_of_tooDeep deep)]

end Run

namespace Reader

variable {tokens : Tokens} {room index depth : Nat}

theorem ok_of_follows {Shows : Showing} {reader : Reader α} {rule : Rule α} {value : α}
    {rest : TokenStream} (follows : Follows Shows tokens reader rule)
    (within : index ≤ tokens.list.length)
    (accepted : rule (tokens.streamAt index) = .accepted value rest) :
    ∃ next, next ≤ tokens.list.length ∧ rest = tokens.streamAt next ∧
      reader tokens.toArray index = (.ok value, next) := by
  have agrees := follows index within
  generalize reader tokens.toArray index = outcome at agrees
  rw [accepted] at agrees
  cases agrees with
  | accepted _ within' => exact ⟨_, within', rfl, rfl⟩

/-- A parenthesis is read by the operand, which all other levels call one within the other. -/
theorem read_tooDeep (level : Level) (within : index ≤ tokens.list.length)
    (opens : (tokens.streamAt index).current.kind = .leftParen)
    (inside : ∀ next less, less + level.rank < room → next ≤ tokens.list.length →
      (tokens.streamAt index).step = tokens.streamAt next →
      (whole less tokens.toArray next).1 = .error .tooDeep) :
    (read room level tokens.toArray index).1 = .error .tooDeep := by
  induction room generalizing level with
  | zero => rfl
  | succ room induction =>
      have tight : level ≠ .operand →
          (read room level.tighter tokens.toArray index).1 = .error .tooDeep := by
        intro _
        apply induction
        intro next less fewer
        have nextRank : level.rank ≤ level.tighter.rank + 1 := by cases level <;> decide
        exact inside next less (by omega)
      cases level with
      | operand =>
          rcases step_eq within (by simp [opens]) with ⟨next, _, within', stepped, same⟩
          have deep := inside next room (Nat.lt_succ_self room) within' same
          change (operand (whole room) tokens.toArray index).1 = _
          rw [operand, bind_current within]
          simp only [opens]
          rw [bind_ok stepped]
          exact bind_tooDeep deep
      | sign =>
          change (prefixed _ _ _ _ tokens.toArray index).1 = _
          rw [prefixed, bind_current within, if_neg (by simp [opens])]
          exact tight (by decide)
      | negation =>
          change (prefixed _ _ _ _ tokens.toArray index).1 = _
          rw [prefixed, bind_current within, if_neg (by simp [Token.isWord, opens])]
          exact tight (by decide)
      | comparison => exact bind_tooDeep (tight (by decide))
      | disjunction => exact bind_tooDeep (tight (by decide))
      | conjunction => exact bind_tooDeep (tight (by decide))
      | sum => exact bind_tooDeep (tight (by decide))
      | product => exact bind_tooDeep (tight (by decide))

theorem whole_tooDeep (within : index ≤ tokens.list.length)
    (opens : (tokens.streamAt index).Opens depth) (shallow : room < 9 * depth) :
    (whole room tokens.toArray index).1 = .error .tooDeep := by
  induction depth generalizing room index with
  | zero => omega
  | succ depth induction =>
      cases room with
      | zero => rfl
      | succ room =>
          apply read_tooDeep .disjunction within opens.1
          intro next less fewer within' same
          have rank : Level.disjunction.rank = 7 := rfl
          exact induction within' (same ▸ opens.2) (by omega)

theorem form_refused {keyword : String} {inside : Reader Instruction}
    (within : index ≤ tokens.list.length)
    (other : ¬(tokens.streamAt index).current.isWord keyword = true) :
    ∃ fault, form keyword inside tokens.toArray index = (.error (.refused fault), index) := by
  have refused : expectWord keyword tokens.toArray index =
      (.error (.refused ⟨.expectedWord keyword, (tokens.streamAt index).current⟩), index) := by
    rw [expectWord, token, bind_current within, if_neg other]
    rfl
  exact ⟨_, bind_error (bind_error refused)⟩

theorem form_tooDeep {keyword : String} {inside : Reader Instruction} {next : Nat}
    (opened : openArguments keyword tokens.toArray index = (.ok (), next))
    (deep : (inside tokens.toArray next).1 = .error .tooDeep) :
    (form keyword inside tokens.toArray index).1 = .error .tooDeep := by
  rw [form, bind_ok opened]
  exact bind_tooDeep deep

theorem expression_tooDeep (within : index ≤ tokens.list.length)
    (opens : (tokens.streamAt index).skipNewlines.Opens depth) (shallow : room < 9 * depth) :
    (expression room tokens.toArray index).1 = .error .tooDeep := by
  rcases skipNewlines_eq within with ⟨next, _, within', skipped, same⟩
  have ahead : (expressionAhead room tokens.toArray index).1 = .error .tooDeep := by
    rw [expressionAhead, bind_ok skipped]
    exact whole_tooDeep within' (same ▸ opens) shallow
  exact handle_tooDeep ahead rfl

end Reader

namespace Tracker

variable {tokens : Tokens} {room : Nat} {progress : Progress}

theorem attempt_refused {reader : Reader α} {fault : Fault}
    (refused : reader tokens.toArray progress.index = (.error (.refused fault), progress.index)) :
    ∃ furthest, attempt (run reader) tokens.toArray progress =
      (.ok none, ⟨progress.index, furthest⟩) := by
  have ran : run reader tokens.toArray progress = (.error (.refused fault), progress) := by
    rw [run, refused]
  exact ⟨_, by rw [attempt, bind_state]; exact handle_error (bind_error ran)⟩

theorem attempt_tooDeep {action : Tracker α}
    (deep : (action tokens.toArray progress).1 = .error .tooDeep) :
    (attempt action tokens.toArray progress).1 = .error .tooDeep :=
  handle_tooDeep (bind_tooDeep deep) rfl

theorem attemptAny_tooDeep {before behind : List (Reader α)} {reader : Reader α}
    (refused : ∀ other ∈ before, ∃ fault,
      other tokens.toArray progress.index = (.error (.refused fault), progress.index))
    (deep : (reader tokens.toArray progress.index).1 = .error .tooDeep) :
    (attemptAny (before ++ reader :: behind) tokens.toArray progress).1 = .error .tooDeep := by
  induction before generalizing progress with
  | nil => exact bind_tooDeep (attempt_tooDeep deep)
  | cons first others induction =>
      rcases refused first List.mem_cons_self with ⟨fault, ended⟩
      rcases attempt_refused ended with ⟨furthest, attempted⟩
      rw [List.cons_append, attemptAny, bind_ok attempted]
      exact induction (fun other member => refused other (List.mem_cons_of_mem _ member)) deep

theorem skipNewlines_of_other (within : progress.index ≤ tokens.list.length)
    (notBreak : (tokens.streamAt progress.index).current.kind ≠ .newline) :
    run Reader.skipNewlines tokens.toArray progress = (.ok (), progress) := by
  rw [run, Reader.skipNewlines_of_other within notBreak]

/-- Before the form of a payment there are only forms that expect other words. -/
theorem instructionRound_tooDeep (found : List Instruction)
    (within : progress.index ≤ tokens.list.length)
    (pays : (tokens.streamAt progress.index).current.isWord "receive_money" = true)
    (deep : (Reader.form "receive_money" (Reader.ofExpression room .receiveMoney) tokens.toArray
      progress.index).1 = .error .tooDeep) :
    (instructionRound room found tokens.toArray progress).1 = .error .tooDeep := by
  have word := pays
  simp only [Token.isWord, Bool.and_eq_true, beq_iff_eq] at word
  rw [instructionRound, bind_ok (skipNewlines_of_other within (by simp [word.1]))]
  apply bind_tooDeep
  have refused : ∀ other ∈ (Reader.instructionForms room).take 5, ∃ fault,
      other tokens.toArray progress.index = (.error (.refused fault), progress.index) := by
    intro other member
    simp only [Reader.instructionForms, List.take_succ_cons, List.take_zero, List.mem_cons,
      List.not_mem_nil, or_false] at member
    rcases member with rfl | rfl | rfl | rfl | rfl
    all_goals exact Reader.form_refused within (by simp [Token.isWord, word.2])
  exact attemptAny_tooDeep refused deep

end Tracker

theorem readTokens_tooDeep {tokens : Tokens} {title : String} {start behind : TokenStream}
    {room depth : Nat} (headed : Rule.sectionHeader tokens.stream = .accepted title start)
    (opened : Rule.openArguments "receive_money" start = .accepted () behind)
    (opens : behind.skipNewlines.Opens depth) (shallow : room < 9 * depth) :
    readTokens room tokens.toList = .error .tooDeep := by
  have first : (⟨0, none⟩ : Progress).index ≤ tokens.list.length := Nat.zero_le _
  rcases Parser.sectionHeader_accepted_iff_passed.1 headed with
    ⟨marker, _, _, isMarker, _, _, _, headerPassed, _⟩
  rcases Rule.openArguments_accepted.1 opened with ⟨word, _, isWord, wordPassed, _⟩
  rcases Reader.ok_of_follows Reader.follows_sectionHeader first headed with
    ⟨line, within, rfl, header⟩
  rcases Reader.ok_of_follows (Reader.follows_openArguments _) within opened with
    ⟨inside, within', rfl, arguments⟩
  have current : (tokens.streamAt 0).current = marker := TokenStream.current_eq headerPassed.ahead
  have deepForm : (Reader.form "receive_money" (Reader.ofExpression room .receiveMoney)
      tokens.toArray line).1 = .error .tooDeep :=
    Reader.form_tooDeep arguments (bind_tooDeep (Reader.expression_tooDeep within' opens shallow))
  have pays : (tokens.streamAt line).current.isWord "receive_money" = true := by
    rw [TokenStream.current_eq wordPassed.ahead]
    exact isWord
  have readHeader : Tracker.run Reader.sectionHeader tokens.toArray ⟨0, none⟩ =
      (.ok title, ⟨line, none⟩) := by
    rw [Tracker.run, header]
  have deepSection : (Tracker.readSection room tokens.toArray ⟨0, none⟩).1 = .error .tooDeep := by
    rw [Tracker.readSection, bind_ok readHeader]
    exact bind_tooDeep (rounds_tooDeep (Tracker.instructionRound_tooDeep [] within pays deepForm))
  have round : (Tracker.sectionRound room [] tokens.toArray ⟨0, none⟩).1 = .error .tooDeep := by
    rw [Tracker.sectionRound, bind_ok (Tracker.current_eq first),
      if_neg (by simp [current, isMarker])]
    exact bind_tooDeep (Tracker.attempt_tooDeep deepSection)
  have skipped := Tracker.skipNewlines_of_other first (by simp [current, isMarker])
  have read : Tracker.readSections room tokens.toArray ⟨0, none⟩ =
      rounds Tracker.left (Tracker.sectionRound room) [] tokens.toArray ⟨0, none⟩ :=
    bind_ok skipped
  exact (congrArg Prod.fst read).trans (rounds_tooDeep round)

end Guarded

/-! ## Scripts with nested parentheses -/

def nested : Nat → String
  | 0 => "1"
  | depth + 1 => "(" ++ nested depth ++ ")"

def nestedText (depth : Nat) : String :=
  "--- a\nreceive_money(" ++ nested depth ++ ")\n"

def nestedLexemes : Nat → List Lexeme
  | 0 => [.plain .integer "1" []]
  | depth + 1 => .sign .leftParen [] :: (nestedLexemes depth ++ [.sign .rightParen []])

def nestedPayment : Instruction :=
  .receiveMoney (.literal (.integer 1))

variable (depth : Nat)

theorem textOf_nestedLexemes : Lexeme.textOf (nestedLexemes depth) = (nested depth).toList := by
  induction depth with
  | zero => rfl
  | succ depth induction =>
      simp [nestedLexemes, nested, induction, Lexeme.sign, Lexeme.plain, TokenKind.text]

theorem row_nestedLexemes {tail : List Char} (ends : Text.EndsRun Text.isNamePart tail) :
    Lexeme.Row (nestedLexemes depth) tail := by
  induction depth generalizing tail with
  | zero =>
      have digits : "1".toList = ['1'] := by simp
      have isDigit : ∀ c ∈ "1".toList, Text.isDigit c = true := by simp [digits, Text.isDigit]
      exact ⟨Lexeme.standsBefore_integer (by simp) (by simp) isDigit ends, trivial⟩
  | succ depth induction =>
      have closes : Lexeme.Row [.sign .rightParen []] tail :=
        ⟨Lexeme.standsBefore_closed (by simp) rfl, trivial⟩
      have inside : Lexeme.Row (nestedLexemes depth)
          (Lexeme.textOf [.sign .rightParen []] ++ tail) :=
        induction (.cons (by decide) _)
      exact ⟨Lexeme.standsBefore_closed (by simp) rfl, Lexeme.row_append.2 ⟨inside, closes⟩⟩

theorem spells_nestedLexemes (place : Position) :
    Expr.Spells (.literal (.integer 1)) (Scan.locate place (nestedLexemes depth)) := by
  apply Expr.Spells.of_derives
  induction depth generalizing place with
  | zero =>
      have located : Scan.locate place (nestedLexemes 0) = [⟨.integer, "1", place.after []⟩] := by
        simp [nestedLexemes, Scan.locate_cons, Lexeme.plain]
      have short : "1".length ≤ Text.Decimal.maxDigits := by decide
      have number : Expr.Derives .operand [⟨.integer, "1", place.after []⟩]
          (.literal (.integer 1)) := by
        have derived := @Expr.Derives.integer ⟨.integer, "1", place.after []⟩ rfl short
        have digits : "1".toList = ['1'] := by simp
        rwa [digits] at derived
      rw [located]
      exact number.loosen (by decide)
  | succ depth induction =>
      have enclosed : Expr.Derives .operand (Scan.locate place (nestedLexemes (depth + 1)))
          (.literal (.integer 1)) := by
        rw [nestedLexemes, Scan.locate_cons, Scan.locate_append]
        exact .enclosed rfl (induction _) rfl
      exact enclosed.loosen (by decide)

def nestedLine : List Lexeme :=
  nestedPayment.opening [.sign .leftParen] ++ (nestedLexemes depth ++ Instruction.closing [])

theorem row_nestedLine : Lexeme.Row (nestedLine depth) [] := by
  have rowClosing : Lexeme.Row (Instruction.closing []) [] :=
    ⟨Lexeme.standsBefore_closed (by simp) rfl, Lexeme.standsBefore_lineEnd (by simp), trivial⟩
  have ends : Text.EndsRun Text.isNamePart (Lexeme.textOf (Instruction.closing []) ++ []) :=
    .cons (by decide) _
  exact Lexeme.row_append.2 ⟨Instruction.row_opening_only _ _,
    Lexeme.row_append.2 ⟨row_nestedLexemes depth ends, rowClosing⟩⟩

theorem toList_nestedText : (nestedText depth).toList =
    Lexeme.textOf (Script.headerLexemes "a" ++ nestedLine depth) := by
  have closing : Lexeme.textOf (Instruction.closing []) = ")\n".toList := by
    simp [Instruction.closing, Lexeme.sign, Lexeme.plain, TokenKind.text]
  have kind : nestedPayment.kind = "receive_money" := rfl
  change ("--- a\nreceive_money(" ++ nested depth ++ ")\n").toList = _
  simp only [nestedLine, Lexeme.textOf_append, Script.textOf_headerLexemes,
    Instruction.textOf_opening_only, textOf_nestedLexemes, closing, kind]
  simp

theorem compile_nestedText (file : Path) :
    (compile file (nestedText depth)).map Compilation.script = .ok ⟨[("a", [nestedPayment])]⟩ := by
  have isTitle : Text.IsName "a" := by decide
  have pieces : nestedPayment.pieces =
      [.sign .leftParen] ++ [.expression (.literal (.integer 1)), .sign .rightParen] := rfl
  exact compile_of_written isTitle (row_nestedLine depth)
    (Instruction.written_of_spells pieces (by simp) (spells_nestedLexemes depth))
    (toList_nestedText depth) file

theorem exists_nestedLexemes :
    ∃ rest, nestedLexemes depth = List.replicate depth (.sign .leftParen []) ++ rest := by
  induction depth with
  | zero => exact ⟨_, rfl⟩
  | succ depth induction =>
      rcases induction with ⟨rest, split⟩
      exact ⟨rest ++ [.sign .rightParen []], by simp [nestedLexemes, split, List.replicate_succ]⟩

theorem opens_nestedLexemes {place : Position} {behind : List Lexeme} {stream after : TokenStream}
    (passed : stream.Passed (Scan.locate place (nestedLexemes depth ++ behind)) after) :
    stream.Opens depth := by
  have ahead := passed.ahead
  rcases exists_nestedLexemes depth with ⟨rest, split⟩
  rw [split, List.append_assoc, Scan.locate_append, List.append_assoc] at ahead
  have opens : ∀ token ∈ Scan.locate place (List.replicate depth (.sign .leftParen [])),
      token.kind = .leftParen := by
    intro token member
    rcases Scan.exists_lexeme_of_mem_locate member with ⟨lexeme, listed, same, _⟩
    rw [same, List.eq_of_mem_replicate listed, Lexeme.kind_sign]
  have counted := TokenStream.opens_of_ahead ahead opens
  rwa [Scan.length_locate, List.length_replicate] at counted

theorem locate_nestedLine (place : Position) :
    ∃ word opening inside, Scan.locate place (nestedLine depth) = word :: opening ::
        Scan.locate inside (nestedLexemes depth ++ Instruction.closing []) ∧
      word.isWord "receive_money" = true ∧ opening.kind = .leftParen := by
  have located : Scan.locate place (nestedLine depth) = _ := Scan.locate_cons _ _ _
  refine ⟨_, _, _, located.trans (congrArg _ (Scan.locate_cons _ _ _)), ?_, rfl⟩
  simp [Token.isWord, Lexeme.name, Lexeme.plain, nestedPayment, Instruction.kind]

theorem Guarded.compile_nestedText_tooDeep {room : Nat} (shallow : room < 9 * depth)
    (file : Path) : Guarded.compile room file (nestedText depth) = .error .tooDeep := by
  have isTitle : Text.IsName "a" := by decide
  have row : Lexeme.Row (Script.headerLexemes "a" ++ nestedLine depth) [] :=
    Lexeme.row_append.2 ⟨Script.row_headerLexemes isTitle _, row_nestedLine depth⟩
  let tokens : Tokens := ⟨Scan.locate .start (Script.headerLexemes "a" ++ nestedLine depth),
    Position.start.after (Lexeme.textOf (Script.headerLexemes "a" ++ nestedLine depth))⟩
  have lexed : Tokens.ofText (nestedText depth) = .ok tokens :=
    Tokens.ofText_row row (toList_nestedText depth)
  rcases Script.locate_headerLexemes .start "a" with
    ⟨marker, name, lineEnd, located, isMarker, isName, title, apart, isEnd⟩
  rcases locate_nestedLine depth (Position.start.after (Lexeme.textOf (Script.headerLexemes "a")))
    with ⟨word, opening, inside, locatedLine, isWord, isOpening⟩
  have list : tokens.list = [marker, name, lineEnd] ++ ([word] ++ ([opening] ++
      Scan.locate inside (nestedLexemes depth ++ Instruction.closing []))) := by
    rw [← located, List.singleton_append, List.singleton_append, ← locatedLine]
    exact Scan.locate_append _ _ _
  have passed := TokenStream.Passed.whole tokens
  rw [list] at passed
  rcases passed.split with ⟨start, headerPassed, linePassed⟩
  rcases linePassed.split with ⟨middle, wordPassed, openingPassed⟩
  rcases openingPassed.split with ⟨behind, signPassed, insidePassed⟩
  have headed : Rule.sectionHeader tokens.stream = .accepted "a" start :=
    (Parser.sectionHeader_accepted (Parser.genuine_of_ofText lexed)).2
      ⟨marker, name, lineEnd, isMarker, isName, apart, isEnd, headerPassed, title⟩
  have opened : Rule.openArguments "receive_money" start = .accepted () behind :=
    Rule.openArguments_accepted.2 ⟨word, middle, isWord, wordPassed,
      isOpening ▸ .sign TokenStream.breaks_nil signPassed⟩
  have opens : behind.Opens depth := opens_nestedLexemes depth insidePassed
  have deep := readTokens_tooDeep headed opened opens.skipNewlines shallow
  simp only [compile_of_lexed lexed, deep, Except.map, Except.mapError, Break.map]

end EventScript
