import EventScript.Proofs.ParserRuns

/-! Places of expressions. An expression that begins at a token of a text ends at a later one, and
what is no expression is refused at a token from there on; neither of them is a line terminator.
What is read, and how far, is settled by the tokens up to the one that it ends at. -/

namespace EventScript

open TokenStream

/-! ## Where rules stop -/

namespace Rule

variable {α β : Type}

/-- A rule that does not stop at a line terminator where it does not start at one, whether it
accepts or refuses. -/
def UnbrokenAt (rule : Rule α) (stream : TokenStream) : Prop :=
  stream.current.kind ≠ .newline → (rule stream).rest.current.kind ≠ .newline

namespace UnbrokenAt

variable {rule : Rule α} {stream : TokenStream}

theorem bind {next : α → Rule β} (first : rule.UnbrokenAt stream)
    (second : ∀ value middle, rule stream = .accepted value middle →
      (next value).UnbrokenAt middle) : (rule >>= next).UnbrokenAt stream := by
  intro starts
  have stops := first starts
  rw [bind_apply]
  cases reply : rule stream with
  | accepted value middle =>
      rw [reply] at stops
      exact second value middle reply stops
  | refused fault rest =>
      rw [reply] at stops
      exact stops

theorem pure (value : α) (stream : TokenStream) : (Pure.pure value : Rule α).UnbrokenAt stream :=
  fun starts => starts

theorem of_step {branch : Rule α} (followed : rule stream = branch stream.step)
    (unbroken : branch.UnbrokenAt stream.step) : rule.UnbrokenAt stream := by
  intro _
  rw [followed]
  exact unbroken (current_skipNewlines _)

theorem of_eq {branch : Rule α} (followed : rule stream = branch stream)
    (unbroken : branch.UnbrokenAt stream) : rule.UnbrokenAt stream := by
  intro starts
  rw [followed]
  exact unbroken starts

end UnbrokenAt

end Rule

namespace Expr

theorem unbroken_expect (kind : TokenKind) (stream : TokenStream) :
    (expect kind).UnbrokenAt stream := by
  intro starts
  cases reply : expect kind stream with
  | accepted token rest =>
      rcases expect_accepted.1 reply with ⟨_, _, rfl⟩
      exact current_skipNewlines _
  | refused fault rest =>
      rcases expect_refused reply with ⟨_, rfl, _⟩
      exact starts

theorem unbroken_itemQuestion (stream : TokenStream) : itemQuestion.UnbrokenAt stream :=
  (unbroken_expect _ _).bind fun _ _ _ => (unbroken_expect _ _).bind fun _ _ _ =>
    (unbroken_expect _ _).bind fun _ _ _ => .pure _ _

theorem unbroken_simpleOperand (stream : TokenStream) : simpleOperand.UnbrokenAt stream := by
  intro starts
  unfold simpleOperand
  split
  · split
    · exact unbroken_itemQuestion _ (current_skipNewlines _)
    · exact starts
  · split
    · exact current_skipNewlines _
    · exact starts

mutual

theorem unbroken_parse (level : Level) (stream : TokenStream) : (parse level).UnbrokenAt stream := by
  by_cases last : level = .operand
  · subst last
    by_cases opening : stream.current.kind = .leftParen
    · have stepped : stream.step.remaining < stream.remaining :=
        remaining_step_lt (by simp [opening])
      refine .of_step (parse_enclosed opening) ?_
      exact (unbroken_parse .disjunction stream.step).bind fun _ _ _ =>
        (unbroken_expect _ _).bind fun _ _ _ => .pure _ _
    · exact .of_eq (parse_simple opening) (unbroken_simpleOperand stream)
  by_cases signed : level = .sign ∧ stream.current.kind = .minus
  · rcases signed with ⟨rfl, sign⟩
    have stepped : stream.step.remaining < stream.remaining :=
      remaining_step_lt (by simp [sign])
    refine .of_step (parse_negative sign) ?_
    exact (unbroken_parse .sign stream.step).bind fun _ _ _ => .pure _ _
  by_cases negated : level = .negation ∧ stream.current.isWord "not" = true
  · rcases negated with ⟨rfl, denial⟩
    have stepped := remaining_step_lt (Token.kind_ne_endOfInput_of_isWord denial)
    refine .of_step (parse_denied denial) ?_
    exact (unbroken_parse .negation stream.step).bind fun _ _ _ => .pure _ _
  have tighter := Level.rank_tighter_lt last
  refine .of_eq (parse_tighter last signed negated) ?_
  refine (unbroken_parse level.tighter stream).bind fun left middle reached => ?_
  have passed : middle.remaining < stream.remaining :=
    (read level.tighter stream).property left middle reached
  exact unbroken_parseMore level left middle
termination_by (stream.remaining, level.rank)

theorem unbroken_parseMore (level : Level) (left : Expr) (stream : TokenStream) :
    (parseMore level left).UnbrokenAt stream := by
  cases operator : stream.current.binaryOpAt? level with
  | none =>
      intro starts
      rw [parseMore_done operator]
      exact starts
  | some op =>
      have stepped := remaining_step_lt (Token.kind_ne_endOfInput_of_binaryOpAt? operator)
      refine .of_step (parseMore_joined operator) ?_
      refine (unbroken_parse level.tighter stream.step).bind fun right middle reached => ?_
      have passed : middle.remaining < stream.step.remaining :=
        (read level.tighter stream.step).property right middle reached
      by_cases once : level = .comparison
      · rw [if_pos once]
        exact .pure _ middle
      · rw [if_neg once]
        exact unbroken_parseMore level (.binary op left right) middle
termination_by (stream.remaining, level.rank)

end

theorem current_rest_rule (stream : TokenStream) : (rule stream).rest.current.kind ≠ .newline :=
  unbroken_parse .disjunction stream.skipNewlines (current_skipNewlines stream)

end Expr

/-! ## Texts with tokens in common -/

theorem take_glyphs (previous : Option Token) (tokens : List Token) (count : Nat) :
    (glyphs previous tokens).take count = glyphs previous (tokens.take count) := by
  induction tokens generalizing previous count with
  | nil => simp [glyphs]
  | cons token tokens induction =>
      cases count with
      | zero => rfl
      | succ count => simp [glyphs, induction]

namespace Tokens

variable {tokens others : Tokens} {first last : Nat}

/-- Two texts have the same tokens from one index up to another, the end of input included. -/
def SharesBetween (tokens others : Tokens) (first last : Nat) : Prop :=
  ∀ index, first ≤ index → index ≤ last → others.toList[index]? = tokens.toList[index]?

theorem length_toList (tokens : Tokens) : tokens.toList.length = tokens.list.length + 1 := by
  simp [toList]

theorem toList_streamAt (within : first ≤ tokens.list.length) :
    (tokens.streamAt first).toList = tokens.toList.drop first := by
  rw [toList, List.drop_append_of_le_length within]
  rfl

theorem getElem?_streamAt (within : first ≤ tokens.list.length) :
    tokens.toList[first]? = some (tokens.streamAt first).current := by
  rw [← TokenStream.head?_toList, toList_streamAt within, List.head?_drop]

theorem SharesBetween.within (shares : tokens.SharesBetween others first last)
    (inOrder : first ≤ last) (within : first ≤ tokens.list.length) :
    first ≤ others.list.length := by
  have same := shares first (Nat.le_refl _) inOrder
  rw [getElem?_streamAt within] at same
  rcases List.getElem?_eq_some_iff.1 same with ⟨inside, _⟩
  rw [length_toList] at inside
  exact Nat.le_of_lt_succ inside

theorem SharesBetween.agrees (shares : tokens.SharesBetween others first last)
    (inOrder : first ≤ last) (within : first ≤ tokens.list.length) :
    (tokens.streamAt first).Agrees (last + 1) (others.streamAt first) where
  index := rfl
  alike := by
    have shared : (others.toList.drop first).take (last + 1 - first) =
        (tokens.toList.drop first).take (last + 1 - first) := by
      apply List.ext_getElem?
      intro offset
      rw [List.getElem?_take, List.getElem?_take, List.getElem?_drop, List.getElem?_drop]
      split
      · exact shares (first + offset) (by omega) (by omega)
      · rfl
    rw [toList_streamAt within, toList_streamAt (shares.within inOrder within), take_glyphs,
      take_glyphs]
    exact congrArg (glyphs none) shared

end Tokens

/-! ## Expressions in a text -/

namespace Expr

/-- An expression that begins at one token of a text, maybe with line terminators before it, and
ends at another. Whatever text has the same tokens there has the same expression there. -/
structure StandsBetween (value : Expr) (tokens : Tokens) (first last : Nat) : Prop where
  accepted : rule (tokens.streamAt first) = .accepted value (tokens.streamAt last)
  further : first < last
  within : last ≤ tokens.list.length
  unbroken : ∃ token, tokens.toList[last]? = some token ∧ token.kind ≠ .newline
  settled : ∀ others, tokens.SharesBetween others first last →
    rule (others.streamAt first) = .accepted value (others.streamAt last)

/-- No expression begins at one token of a text, and what is wrong shows at another. -/
structure FailsBetween (fault : Fault) (tokens : Tokens) (first last : Nat) : Prop where
  refused : rule (tokens.streamAt first) = .refused fault (tokens.streamAt last)
  notBefore : first ≤ last
  within : last ≤ tokens.list.length
  found : tokens.toList[last]? = some fault.token
  unbroken : fault.token.kind ≠ .newline

variable {tokens : Tokens} {first : Nat}

theorem rest_rule_streamAt (within : first ≤ tokens.list.length) :
    ∃ last, last ≤ tokens.list.length ∧
      (rule (tokens.streamAt first)).rest = tokens.streamAt last := by
  have stays := Rule.OfGrammar.expression.stays tokens _ (standsIn_streamAt within)
  exact ⟨_, stays.within, stays.eq_streamAt⟩

theorem standsBetween_of_accepted (within : first ≤ tokens.list.length) {value : Expr}
    {rest : TokenStream} (reply : rule (tokens.streamAt first) = .accepted value rest) :
    ∃ last, value.StandsBetween tokens first last := by
  rcases rest_rule_streamAt within with ⟨last, lastWithin, stands⟩
  have notBreak := current_rest_rule (tokens.streamAt first)
  rw [reply] at stands notBreak
  simp only [Reply.rest] at stands notBreak
  subst stands
  have fewer := consumes_rule _ _ _ reply
  simp only [TokenStream.remaining, Tokens.streamAt, List.length_drop] at fewer
  refine ⟨last, reply, by omega, lastWithin,
    ⟨_, Tokens.getElem?_streamAt lastWithin, notBreak⟩, fun others shares => ?_⟩
  have inOrder : first ≤ last := by omega
  have mirrored := (local_rule (tokens.streamAt first)).mirrors (shares.agrees inOrder within)
    (by rw [reply]; exact Nat.le_refl _)
  rcases rest_rule_streamAt (shares.within inOrder within) with ⟨last', _, stands'⟩
  rw [reply] at mirrored
  generalize rule (others.streamAt first) = reply' at mirrored stands'
  cases mirrored with
  | accepted agrees =>
      simp only [Reply.rest] at stands'
      have sameIndex := agrees.index
      rw [stands'] at sameIndex ⊢
      rw [show last' = last from sameIndex]

theorem failsBetween_of_refused (within : first ≤ tokens.list.length) {fault : Fault}
    {rest : TokenStream} (reply : rule (tokens.streamAt first) = .refused fault rest) :
    ∃ last, FailsBetween fault tokens first last := by
  rcases rest_rule_streamAt within with ⟨last, lastWithin, stands⟩
  rcases opens_of_parse reply with ⟨standsAt, _, _, _, _, passed, _⟩
  have notBreak := current_rest_rule (tokens.streamAt first)
  have skipped := index_le_skipNewlines (tokens.streamAt first)
  rw [reply] at stands notBreak
  simp only [Reply.rest] at stands notBreak
  subst stands
  have token := standsAt.token
  refine ⟨last, reply, Nat.le_trans skipped passed.index_le, lastWithin, ?_, ?_⟩
  · rw [← token]
    exact Tokens.getElem?_streamAt lastWithin
  · rw [← token]
    exact notBreak

/-- At every token of a text, and at its end, either an expression begins or what stands there is
refused. The expression ends at a later token and depends on no token behind that one; the refusal
is for a token that is not before the first. Neither token is a line terminator. -/
theorem standsBetween_or_failsBetween (tokens : Tokens) (first : Nat)
    (within : first ≤ tokens.list.length) :
    (∃ value last, StandsBetween value tokens first last) ∨
      ∃ fault last, FailsBetween fault tokens first last := by
  cases reply : rule (tokens.streamAt first) with
  | accepted value rest => exact .inl ⟨value, standsBetween_of_accepted within reply⟩
  | refused fault rest => exact .inr ⟨fault, failsBetween_of_refused within reply⟩

/-- A sum over two lines ends at the parenthesis behind it. -/
theorem standsBetween_broken_sum :
    let tokens : Tokens := ⟨[⟨.leftParen, "(", ⟨1, 1⟩⟩, ⟨.newline, "\n", ⟨1, 2⟩⟩,
      ⟨.identifier, "gold", ⟨2, 1⟩⟩, ⟨.newline, "\n", ⟨2, 5⟩⟩, ⟨.plus, "+", ⟨3, 1⟩⟩,
      ⟨.integer, "1", ⟨3, 3⟩⟩, ⟨.rightParen, ")", ⟨3, 4⟩⟩], ⟨3, 5⟩⟩
    1 ≤ tokens.list.length ∧
      StandsBetween (.binary .add (.global "gold") (.literal (.integer 1))) tokens 1 6 := by
  intro tokens
  have within : 1 ≤ tokens.list.length := by decide
  have reply : rule (tokens.streamAt 1) = .accepted
      (.binary .add (.global "gold") (.literal (.integer 1))) (tokens.streamAt 6) := by cbv
  refine ⟨within, ?_⟩
  rcases standsBetween_or_failsBetween tokens 1 within with ⟨value, last, stands⟩ | ⟨_, _, fails⟩
  · have same := stands.accepted
    rw [reply] at same
    injection same with sameValue sameStream
    have sameIndex : 6 = last := congrArg TokenStream.index sameStream
    rw [sameValue, sameIndex]
    exact stands
  · have refused := fails.refused
    rw [reply] at refused
    contradiction

end Expr

end EventScript
