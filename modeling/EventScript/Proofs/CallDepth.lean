import EventScript.Proofs.NestedParentheses

/-! The depth of calls. With less room for calls, compilation comes to the same as with more, or it
breaks off for want of room. So there is a depth for every text from which on it ends as it is meant
to, and below which it does not end so. -/

namespace EventScript

namespace Guarded

open Run

variable {ι σ ε α β : Type}

namespace Run

/-- A run that comes to the same as another, unless its calls nest too deep. -/
def Approximates (shallow deep : Run ι σ ε α) : Prop :=
  ∀ input state,
    shallow input state = deep input state ∨ (shallow input state).1 = .error .tooDeep

namespace Approximates

variable {shallow deep : Run ι σ ε α}

theorem refl (run : Run ι σ ε α) : Approximates run run :=
  fun _ _ => .inl rfl

theorem of_tooDeep (run : Run ι σ ε α) : Approximates (fail .tooDeep) run :=
  fun _ _ => .inr rfl

theorem bind {next next' : α → Run ι σ ε β} (first : Approximates shallow deep)
    (second : ∀ value, Approximates (next value) (next' value)) :
    Approximates (shallow >>= next) (deep >>= next') := by
  intro input state
  cases first input state with
  | inr tooDeep => exact .inr (bind_tooDeep tooDeep)
  | inl same =>
      cases ended : deep input state with
      | mk outcome after =>
          cases outcome with
          | ok value =>
              rw [bind_ok (same.trans ended), bind_ok ended]
              exact second value input after
          | error broken =>
              left
              rw [bind_error (same.trans ended), bind_error ended]

/-- A handler that lets calls nest too deep hides nothing of it. -/
theorem handle {handler : Break ε → Run ι σ ε α} (first : Approximates shallow deep)
    (letsPass : handler .tooDeep = fail .tooDeep) :
    Approximates (Run.handle shallow handler) (Run.handle deep handler) := by
  intro input state
  cases first input state with
  | inr tooDeep => exact .inr (handle_tooDeep tooDeep letsPass)
  | inl same =>
      left
      unfold Run.handle
      rw [same]

theorem rounds {ahead : ι → σ → Nat} {round round' : β → Run ι σ ε (β ⊕ α)}
    (each : ∀ carried, Approximates (round carried) (round' carried)) (carried : β) :
    Approximates (Run.rounds ahead round carried) (Run.rounds ahead round' carried) := by
  intro input state
  induction left : ahead input state using Nat.strong_induction_on generalizing carried state with
  | _ left induction =>
      cases each carried input state with
      | inr tooDeep => exact .inr (rounds_tooDeep tooDeep)
      | inl same =>
          cases ended : round' carried input state with
          | mk outcome after =>
              cases outcome with
              | error broken =>
                  left
                  rw [rounds_error (same.trans ended), rounds_error ended]
              | ok result =>
                  cases result with
                  | inr result =>
                      left
                      rw [rounds_done (same.trans ended), rounds_done ended]
                  | inl next =>
                      by_cases fewer : ahead input after < ahead input state
                      · rw [rounds_again (same.trans ended) fewer, rounds_again ended fewer]
                        exact induction _ (left ▸ fewer) next after rfl
                      · left
                        rw [Run.rounds, same, ended, Run.rounds, ended]
                        simp only [fewer, if_false]

end Approximates

end Run

/-! ## Readers with less room -/

namespace Reader

open Approximates

variable {inside inside' again again' tighter tighter' : Reader Expr} {room more : Nat}

theorem approximates_operand (enclosed : Approximates inside inside') :
    Approximates (operand inside) (operand inside') := by
  apply bind (refl _)
  intro token
  cases token.kind with
  | leftParen =>
      apply bind (refl _)
      intro _
      exact bind enclosed fun _ => refl _
  | _ => exact refl _

theorem approximates_prefixed {applies : Token → Bool} {op : UnaryOp}
    (repeated : Approximates again again') (tight : Approximates tighter tighter') :
    Approximates (prefixed applies op again tighter) (prefixed applies op again' tighter') := by
  apply bind (refl _)
  intro token
  cases applies token with
  | true => exact bind (refl _) fun _ => bind repeated fun _ => refl _
  | false => exact tight

theorem approximates_compared (tight : Approximates tighter tighter') :
    Approximates (compared tighter) (compared tighter') := by
  apply bind tight
  intro first
  apply bind (refl _)
  intro token
  cases token.binaryOpAt? .comparison with
  | none => exact refl _
  | some op => exact bind (refl _) fun _ => bind tight fun _ => refl _

theorem approximates_joined {level : Level} (tight : Approximates tighter tighter') :
    Approximates (joined level tighter) (joined level tighter') := by
  have round : ∀ value,
      Approximates (joinRound level tighter value) (joinRound level tighter' value) := by
    intro value
    apply bind (refl _)
    intro token
    cases token.binaryOpAt? level with
    | none => exact refl _
    | some op => exact bind (refl _) fun _ => bind tight fun _ => refl _
  exact bind tight (rounds round)

mutual

theorem approximates_read {room more : Nat} (fewer : room ≤ more) (level : Level) :
    Approximates (read room level) (read more level) := by
  cases room with
  | zero => exact of_tooDeep _
  | succ room =>
      cases more with
      | zero => omega
      | succ more =>
          have fewer := Nat.le_of_succ_le_succ fewer
          cases level with
          | operand => exact approximates_operand (approximates_whole fewer)
          | sign =>
              exact approximates_prefixed (approximates_read fewer _) (approximates_read fewer _)
          | negation =>
              exact approximates_prefixed (approximates_read fewer _) (approximates_read fewer _)
          | comparison => exact approximates_compared (approximates_read fewer _)
          | disjunction => exact approximates_joined (approximates_read fewer _)
          | conjunction => exact approximates_joined (approximates_read fewer _)
          | sum => exact approximates_joined (approximates_read fewer _)
          | product => exact approximates_joined (approximates_read fewer _)

theorem approximates_whole {room more : Nat} (fewer : room ≤ more) :
    Approximates (whole room) (whole more) := by
  cases room with
  | zero => exact of_tooDeep _
  | succ room =>
      cases more with
      | zero => omega
      | succ more => exact approximates_read (Nat.le_of_succ_le_succ fewer) _

end

/-- A statement takes over what is wrong in an expression, but not that there is no room for it. -/
theorem approximates_expression (fewer : room ≤ more) :
    Approximates (expression room) (expression more) :=
  handle (bind (refl _) fun _ => approximates_whole fewer) rfl

theorem approximates_form {inside inside' : Reader Instruction} (keyword : String)
    (arguments : Approximates inside inside') :
    Approximates (form keyword inside) (form keyword inside') :=
  bind (refl _) fun _ => bind arguments fun _ => refl _

theorem approximates_ofNameAndExpression (fewer : room ≤ more)
    (make : String → Expr → Instruction) :
    Approximates (ofNameAndExpression room make) (ofNameAndExpression more make) :=
  bind (refl _) fun _ => bind (refl _) fun _ => bind (approximates_expression fewer) fun _ => refl _

theorem approximates_ofExpression (fewer : room ≤ more) (make : Expr → Instruction) :
    Approximates (ofExpression room make) (ofExpression more make) :=
  bind (approximates_expression fewer) fun _ => refl _

theorem approximates_instructionForms (fewer : room ≤ more) :
    List.Forall₂ Approximates (instructionForms room) (instructionForms more) :=
  .cons (refl _)
    (.cons (approximates_form _ (approximates_ofNameAndExpression fewer _))
    (.cons (refl _) (.cons (refl _)
    (.cons (approximates_form _ (approximates_ofNameAndExpression fewer _))
    (.cons (approximates_form _ (approximates_ofExpression fewer _))
    (.cons (refl _) (.cons (refl _) .nil)))))))

end Reader

/-! ## Trackers with less room -/

namespace Tracker

open Approximates

variable {room more : Nat}

theorem approximates_run {reader reader' : Reader α} (read : Approximates reader reader') :
    Approximates (run reader) (run reader') := by
  intro tokens progress
  apply (read tokens progress.index).imp
  · intro same
    unfold run
    rw [same]
  · exact id

theorem approximates_attempt {action action' : Tracker α} (acts : Approximates action action') :
    Approximates (attempt action) (attempt action') :=
  bind (refl _) fun _ => handle (bind acts fun _ => refl _) rfl

theorem approximates_attemptAny {readers readers' : List (Reader α)}
    (read : List.Forall₂ Approximates readers readers') :
    Approximates (attemptAny readers) (attemptAny readers') := by
  induction read with
  | nil => exact refl _
  | cons first _ others =>
      apply bind (approximates_attempt (approximates_run first))
      intro found
      cases found with
      | some value => exact refl _
      | none => exact others

theorem approximates_readSection (fewer : room ≤ more) :
    Approximates (readSection room) (readSection more) := by
  have round : ∀ found,
      Approximates (instructionRound room found) (instructionRound more found) := by
    intro found
    apply bind (refl _)
    intro _
    have forms := Reader.approximates_instructionForms fewer
    exact bind (approximates_attemptAny forms) fun _ => refl _
  apply bind (refl _)
  intro name
  exact bind (rounds round []) fun _ => refl _

theorem approximates_readSections (fewer : room ≤ more) :
    Approximates (readSections room) (readSections more) := by
  have round : ∀ found, Approximates (sectionRound room found) (sectionRound more found) := by
    intro found
    apply bind (refl _)
    intro token
    by_cases atEnd : token.kind = .endOfInput
    · rw [if_pos atEnd, if_pos atEnd]
      exact refl _
    · rw [if_neg atEnd, if_neg atEnd]
      exact bind (approximates_attempt (approximates_readSection fewer)) fun _ => refl _
  exact bind (refl _) fun _ => rounds round []

end Tracker

theorem readTokens_of_le {room more : Nat} (fewer : room ≤ more) (tokens : List Token) :
    readTokens room tokens = readTokens more tokens ∨ readTokens room tokens = .error .tooDeep := by
  apply (Tracker.approximates_readSections fewer tokens.toArray ⟨0, none⟩).imp
  · exact congrArg Prod.fst
  · exact id

/-! ## Texts -/

end Guarded

theorem Lexeme.length_le_textOf {lexemes : List Lexeme} {tail : List Char}
    (row : Row lexemes tail) : lexemes.length ≤ (textOf lexemes).length := by
  induction lexemes with
  | nil => exact Nat.le_refl _
  | cons lexeme others induction =>
      have nonempty := List.length_pos_iff.2 row.1.source_ne_nil
      have behind := induction row.2
      simp only [textOf_cons, List.length_append, List.length_cons]
      omega

theorem Tokens.length_le_of_ofText {text : String} {tokens : Tokens}
    (lexed : ofText text = .ok tokens) : tokens.list.length ≤ text.length := by
  rcases list_of_ofText lexed with ⟨sound, list⟩
  rcases Scan.row_of_read sound with ⟨row, whole, _⟩
  have shorter := Lexeme.length_le_textOf row
  have length := congrArg List.length whole
  rw [List.length_append, String.length_toList] at length
  rw [list, Scan.length_locate]
  omega

namespace Guarded

variable {room more : Nat} {text : String} {tokens : Tokens}

theorem compile_of_le (fewer : room ≤ more) (file : Path) (text : String) :
    compile room file text = compile more file text ∨
      compile room file text = .error .tooDeep := by
  cases lexed : Tokens.ofText text with
  | error error =>
      left
      rw [compile_of_refused lexed, compile_of_refused lexed]
  | ok tokens =>
      rw [compile_of_lexed lexed, compile_of_lexed lexed]
      apply (readTokens_of_le fewer tokens.toList).imp
      · intro same
        rw [same]
      · intro deep
        rw [deep]
        rfl

/-- With nine calls for every character there is room for all. -/
theorem compile_eq (ample : 9 * (text.length + 1) ≤ room) (file : Path) :
    compile room file text = (EventScript.compile file text).mapError Break.refused := by
  cases lexed : Tokens.ofText text with
  | error error =>
      simp only [compile_of_refused lexed, EventScript.compile, parseSections, lexed, Except.map,
        Except.mapError]
  | ok tokens =>
      have shorter := Tokens.length_le_of_ofText lexed
      have enough : Reader.Ample tokens room := by
        unfold Reader.Ample
        omega
      rw [compile_of_lexed lexed, readTokens_eq enough, EventScript.compile,
        parseSections_of_ofText lexed]
      cases (Parser.start tokens).readSections.1 with
      | ok sections => simp only [Except.map, Except.mapError]
      | error fault => simp only [Except.map, Except.mapError, Break.map]

theorem compile_ne_tooDeep (ample : 9 * (text.length + 1) ≤ room) (file : Path) :
    compile room file text ≠ .error .tooDeep := by
  rw [compile_eq ample]
  cases EventScript.compile file text <;> nofun

theorem nestsTooDeep_iff (file : Path) :
    nestsTooDeep room text = true ↔ compile room file text = .error .tooDeep := by
  unfold nestsTooDeep
  cases lexed : Tokens.ofText text with
  | error error =>
      simp [compile_of_refused lexed]
  | ok tokens =>
      rw [compile_of_lexed lexed]
      simp only
      cases readTokens room tokens.toList with
      | ok sections => simp [Except.map, Except.mapError]
      | error broken => cases broken <;> simp [Except.map, Except.mapError, Break.map]

/-- Compilation ends in one of two ways, with a script or with a diagnostic that refuses the text,
as long as there is room for a depth of calls that depends on the text and is at most nine for every
character of it. With less room neither comes of it. No other guard is ever in the way: no index has
nothing there, no complaint about an expression is left over, no digits make no number, and every
round of a loop passes something. -/
theorem compile_ends (file : Path) (text : String) :
    ∃ depth ≤ 9 * (text.length + 1), ∀ room,
      (depth ≤ room →
        (∃ compilation, compile room file text = .ok compilation ∧
          EventScript.compile file text = .ok compilation) ∨
        (∃ diagnostic, compile room file text = .error (.refused diagnostic) ∧
          EventScript.compile file text = .error diagnostic)) ∧
      (room < depth → compile room file text = .error .tooDeep) := by
  classical
  have exists_room : ∃ room, compile room file text ≠ .error .tooDeep :=
    ⟨_, compile_ne_tooDeep (Nat.le_refl _) file⟩
  have least : Nat.find exists_room ≤ 9 * (text.length + 1) :=
    Nat.find_min' exists_room (compile_ne_tooDeep (Nat.le_refl _) file)
  refine ⟨Nat.find exists_room, least, fun room => ⟨?_, ?_⟩⟩
  · intro enough
    let ample := max room (9 * (text.length + 1))
    have same : compile room file text = compile ample file text := by
      apply (compile_of_le (Nat.le_max_left _ _) file text).resolve_right
      intro deep
      have deeper := compile_of_le enough file text
      rw [deep, or_self] at deeper
      exact Nat.find_spec exists_room deeper
    rw [same, compile_eq (Nat.le_max_right _ _)]
    cases EventScript.compile file text with
    | ok compilation => exact .inl ⟨compilation, rfl, rfl⟩
    | error diagnostic => exact .inr ⟨diagnostic, rfl, rfl⟩
  · intro less
    exact not_not.1 (Nat.find_min exists_room less)

/-- A script can nest too deep for the calls that an interpreter allows, and then neither comes of
it. -/
theorem compile_breaks_off :
    ¬((∃ compilation, compile maxCalls unnamedFile (nestedText 2000) = .ok compilation) ∨
      ∃ diagnostic,
        compile maxCalls unnamedFile (nestedText 2000) = .error (.refused diagnostic)) := by
  have shallow : maxCalls < 9 * 2000 := by decide
  rw [compile_nestedText_tooDeep 2000 shallow]
  intro ends
  cases ends with
  | inl accepted => exact nomatch accepted
  | inr refused => exact nomatch refused

end Guarded

end EventScript
