import EventScript.Proofs.GuardedRules

/-! Guarded statements. The forms of instructions and the headers of sections, read by index, do at
every token what their rules do there. -/

namespace EventScript.Guarded

open Run

namespace Reader

variable {tokens : Tokens} {room index : Nat}

/-! ## Tokens of statements -/

theorem follows_token {condition : Token → Bool} {complaint : Complaint}
    (notEnd : ∀ token, condition token = true → token.kind ≠ .endOfInput) :
    Follows Plainly tokens (token condition complaint) (Rule.token condition complaint) := by
  intro index within
  rw [token, bind_current within, Rule.token]
  by_cases holds : condition (tokens.streamAt index).current = true
  · have behind := streamAt_advance (notEnd _ holds)
    rw [if_pos holds, if_pos holds, advance_eq within (notEnd _ holds), behind.2]
    exact .accepted _ behind.1
  · rw [if_neg holds, if_neg holds]
    exact .refused ⟨rfl, within, rfl⟩

theorem follows_expect {kind : TokenKind} (notEnd : kind ≠ .endOfInput) :
    Follows Plainly tokens (expect kind) (Rule.expect kind) :=
  follows_token fun _ holds => eq_of_beq holds ▸ notEnd

theorem follows_expectWord (word : String) :
    Follows Plainly tokens (expectWord word) (Rule.expectWord word) :=
  follows_token fun _ => Token.kind_ne_endOfInput_of_isWord

theorem follows_expectEndOfLine : Follows Plainly tokens expectEndOfLine Rule.expectEndOfLine :=
  follows_token fun _ holds => by
    rw [eq_of_beq holds]
    decide

/-! ## Argument lists -/

theorem follows_openArguments (keyword : String) :
    Follows Plainly tokens (openArguments keyword) (Rule.openArguments keyword) :=
  (follows_expectWord keyword).bind fun _ => follows_skipNewlines.bind fun _ =>
    (follows_expect (by decide)).bind fun _ => follows_pure ()

theorem follows_closeArguments : Follows Plainly tokens closeArguments Rule.closeArguments :=
  follows_skipNewlines.bind fun _ => (follows_expect (by decide)).bind fun _ =>
    follows_expectEndOfLine.bind fun _ => follows_pure ()

theorem follows_argument {kind : TokenKind} (notEnd : kind ≠ .endOfInput) :
    Follows Plainly tokens (argument kind) (Rule.argument kind) :=
  follows_skipNewlines.bind fun _ => follows_expect notEnd

theorem follows_name : Follows Plainly tokens name Rule.name :=
  (follows_argument (by decide)).bind fun token => follows_pure token.value

theorem follows_comma : Follows Plainly tokens comma Rule.comma :=
  (follows_argument (by decide)).bind fun _ => follows_pure ()

/-! ## Choices -/

theorem follows_choice : Follows Plainly tokens choice Rule.choice :=
  (follows_argument (by decide)).bind fun _ => follows_name.bind fun label =>
    follows_comma.bind fun _ => follows_name.bind fun target =>
      (follows_argument (by decide)).bind fun _ => follows_pure (Choice.mk label target)

theorem choicesAhead_done {stream : TokenStream} {found : List Choice}
    (noComma : stream.current.kind ≠ .comma) :
    (Rule.choicesAhead >>= fun others => pure (found ++ others)) stream =
      .accepted found stream := by
  rw [Rule.bind_apply, Rule.choicesAhead, if_neg noComma]
  dsimp only
  rw [Rule.pure_apply, List.append_nil]

theorem choicesAhead_comma {stream : TokenStream} {found : List Choice}
    (isComma : stream.current.kind = .comma) :
    (Rule.choicesAhead >>= fun others => pure (found ++ others)) stream =
      (Rule.choice >>= fun next => Rule.skipNewlines >>= fun _ =>
        Rule.choicesAhead >>= fun others => pure (found ++ [next] ++ others)) stream.advance := by
  have behind : ∀ next : List Choice → Rule (List Choice),
      (Rule.choicesAhead >>= next) stream = (Rule.choicesBehindComma >>= next) stream.advance := by
    intro next
    rw [Rule.bind_apply, Rule.bind_apply, Rule.choicesAhead, if_pos isComma]
  rw [behind, Rule.choicesBehindComma, Rule.moreChoices_eq]
  simp only [bind_assoc, pure_bind, List.append_assoc, List.singleton_append]

theorem matches_choiceRounds (found : List Choice) {index : Nat}
    (within : index ≤ tokens.list.length) :
    Matches Plainly tokens (rounds left choiceRound found tokens.toArray index)
      ((Rule.choicesAhead >>= fun others => pure (found ++ others)) (tokens.streamAt index)) := by
  by_cases isComma : (tokens.streamAt index).current.kind = .comma
  · have notEnd : (tokens.streamAt index).current.kind ≠ .endOfInput := by simp [isComma]
    have behind := streamAt_advance notEnd
    have round : choiceRound found tokens.toArray index =
        (do
          let next ← choice
          skipNewlines
          return .inl (found ++ [next]) : Reader (List Choice ⊕ List Choice))
            tokens.toArray (index + 1) := by
      rw [choiceRound, bind_current within, if_pos isComma]
      exact bind_ok (advance_eq within notEnd)
    have chosen := follows_choice (index + 1) behind.1
    rw [choicesAhead_comma isComma, behind.2, Rule.bind_apply]
    generalize outcome : choice tokens.toArray (index + 1) = result at chosen
    generalize replied : Rule.choice (tokens.streamAt (index + 1)) = reply at chosen
    cases chosen with
    | @accepted next last inside =>
        have further := le_of_advances Rule.advances_choice behind.1 replied
        rcases skipNewlines_eq inside with ⟨after, skips, within', skipped, same⟩
        rw [bind_ok outcome, bind_ok skipped] at round
        rw [rounds_again round (left_lt (by omega) within)]
        dsimp only
        rw [Rule.bind_apply, Rule.skipNewlines, same]
        exact matches_choiceRounds (found ++ [next]) within'
    | refused shows =>
        rw [bind_error outcome] at round
        rw [rounds_error round]
        exact .refused shows
  · have done : choiceRound found tokens.toArray index = (.ok (.inr found), index) := by
      rw [choiceRound, bind_current within, if_neg isComma]
      rfl
    rw [rounds_done done, choicesAhead_done isComma]
    exact .accepted found within
termination_by tokens.list.length - index

theorem follows_moreChoices (first : Choice) : Follows Plainly tokens (moreChoices first)
    (bind (m := Rule) Rule.moreChoices fun others => pure (first :: others)) := by
  rw [Rule.moreChoices_eq, bind_assoc]
  exact follows_skipNewlines.bind fun _ _ => matches_choiceRounds [first]

/-! ## Instruction forms -/

theorem follows_form {inside : Reader Instruction} {rule : Rule Instruction} (keyword : String)
    (follows : Follows Plainly tokens inside rule) :
    Follows Plainly tokens (form keyword inside) (Rule.form keyword rule) :=
  (follows_openArguments keyword).bind fun _ => follows.bind fun instruction =>
    follows_closeArguments.bind fun _ => follows_pure instruction

theorem follows_ofName (make : String → Instruction) :
    Follows Plainly tokens (ofName make) (Rule.ofName make) :=
  follows_name.bind fun word => follows_pure (make word)

theorem follows_ofNameAndExpression (ample : Ample tokens room)
    (make : String → Expr → Instruction) :
    Follows Plainly tokens (ofNameAndExpression room make) (Rule.ofNameAndExpression make) :=
  follows_name.bind fun word => follows_comma.bind fun _ =>
    (follows_expression ample).bind fun value => follows_pure (make word value)

theorem follows_ofExpression (ample : Ample tokens room) (make : Expr → Instruction) :
    Follows Plainly tokens (ofExpression room make) (Rule.ofExpression make) :=
  (follows_expression ample).bind fun value => follows_pure (make value)

theorem follows_ofChoices : Follows Plainly tokens ofChoices Rule.ofChoices := by
  -- The rule joins the first choice to the others only behind the bracket.
  have joined : Rule.ofChoices = (do
      let textId ← Rule.name
      Rule.comma
      let _ ← Rule.argument .leftBracket
      let first ← Rule.choice
      let choices ← bind (m := Rule) Rule.moreChoices fun others => pure (first :: others)
      let _ ← Rule.argument .rightBracket
      return .talk textId choices) := by
    have assoc : ∀ (next : List Choice → Rule (List Choice))
        (last : List Choice → Rule Instruction),
        (bind (m := Rule) Rule.moreChoices next) >>= last =
          bind (m := Rule) Rule.moreChoices fun others => next others >>= last :=
      bind_assoc (m := Rule) Rule.moreChoices
    simp only [Rule.ofChoices, assoc, pure_bind]
  rw [joined]
  exact follows_name.bind fun textId => follows_comma.bind fun _ =>
    (follows_argument (by decide)).bind fun _ => follows_choice.bind fun first =>
      (follows_moreChoices first).bind fun choices =>
        (follows_argument (by decide)).bind fun _ => follows_pure (Instruction.talk textId choices)

theorem follows_ofSymbol : Follows Plainly tokens ofSymbol Rule.ofSymbol := by
  refine (follows_argument (by decide)).bind fun symbol index within => ?_
  rw [Rule.behaviour]
  cases Special.ofSymbol? symbol.value with
  | none => exact .refused ⟨rfl, within, rfl⟩
  | some behaviour => exact .accepted (Instruction.special behaviour) within

theorem follows_instructionForms (ample : Ample tokens room) :
    List.Forall₂ (Follows Plainly tokens) (instructionForms room) Rule.instructionForms := by
  rw [Rule.instructionForms, Rule.jump_eq_form, Rule.jumpIf_eq_form, Rule.talkWithChoices_eq_form,
    Rule.talk_eq_form, Rule.assign_eq_form, Rule.receiveMoney_eq_form, Rule.removeItem_eq_form,
    Rule.special_eq_form]
  exact .cons (follows_form _ (follows_ofName .jump))
    (.cons (follows_form _ (follows_ofNameAndExpression ample .jumpIf))
    (.cons (follows_form _ follows_ofChoices)
    (.cons (follows_form _ (follows_ofName (.talk · [])))
    (.cons (follows_form _ (follows_ofNameAndExpression ample .assign))
    (.cons (follows_form _ (follows_ofExpression ample .receiveMoney))
    (.cons (follows_form _ (follows_ofName .removeItem))
    (.cons (follows_form _ follows_ofSymbol) .nil)))))))

/-! ## Section headers -/

theorem follows_sectionHeader : Follows Plainly tokens sectionHeader Rule.sectionHeader := by
  refine (follows_expect (by decide)).bind fun marker index within => ?_
  rw [bind_current within, Rule.bind_apply]
  dsimp only [Rule.current]
  by_cases noName : (tokens.streamAt index).current.kind ≠ .identifier
  · rw [if_pos noName, if_pos noName]
    exact .refused ⟨rfl, within, rfl⟩
  rw [if_neg noName, if_neg noName]
  by_cases close : !Rule.spacedFrom marker (tokens.streamAt index).current
  · rw [if_pos close, if_pos close]
    exact .refused ⟨rfl, within, rfl⟩
  have notEnd : (tokens.streamAt index).current.kind ≠ .endOfInput := by
    simp [not_not.1 noName]
  have behind := streamAt_advance notEnd
  rw [if_neg close, if_neg close, bind_ok (advance_eq within notEnd), Rule.bind_apply]
  dsimp only [Rule.advance]
  rw [behind.2]
  exact (follows_expectEndOfLine.bind fun _ => follows_pure _) (index + 1) behind.1

end Reader

end EventScript.Guarded
