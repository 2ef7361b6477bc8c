import EventScript.Guarded.Reader
import EventScript.Proofs.Lookahead

/-! Guarded rules. Where there is room for the calls of its levels, an expression is read by index
into the tokens of a text as the rules of the grammar read it. -/

namespace EventScript

abbrev Tokens.toArray (tokens : Tokens) : Array Token :=
  tokens.toList.toArray

namespace Guarded

open Run

namespace Reader

variable {α β : Type}

/-! ## Tokens that are found -/

variable {tokens : Tokens} {room index : Nat}

theorem size_toArray : tokens.toArray.size = tokens.list.length + 1 := by
  simp [Tokens.toList]

theorem tokenAt_eq (within : index ≤ tokens.list.length) (here : Nat) :
    tokenAt index tokens.toArray here = (.ok (tokens.streamAt index).current, here) := by
  have found : tokens.toArray[index]? = some (tokens.streamAt index).current := by
    rw [List.getElem?_toArray, Tokens.toList, TokenStream.current, Tokens.streamAt,
      List.headD_eq_head?_getD, List.head?_drop]
    rcases Nat.lt_or_eq_of_le within with inside | last
    · rw [List.getElem?_append_left inside, List.getElem?_eq_getElem inside]
      rfl
    · rw [last, List.getElem?_append_right (Nat.le_refl _), List.getElem?_eq_none (Nat.le_refl _)]
      simp
  rw [tokenAt, bind_input, found]
  rfl

theorem bind_current {next : Token → Reader α} (within : index ≤ tokens.list.length) :
    (current >>= next) tokens.toArray index =
      next (tokens.streamAt index).current tokens.toArray index :=
  bind_ok (tokenAt_eq within index)

theorem streamAt_advance (notEnd : (tokens.streamAt index).current.kind ≠ .endOfInput) :
    index + 1 ≤ tokens.list.length ∧
      (tokens.streamAt index).advance = tokens.streamAt (index + 1) := by
  rcases TokenStream.ahead_of_current notEnd with ⟨rest, ahead⟩
  have behind : tokens.list.drop (index + 1) = rest := by
    rw [← List.tail_drop]
    exact congrArg List.tail ahead
  have length := congrArg List.length ahead
  simp only [Tokens.streamAt, List.length_drop, List.length_cons] at length
  refine ⟨by omega, ?_⟩
  rw [TokenStream.advance, ahead, Tokens.streamAt, Tokens.streamAt, behind]

theorem moveTo_eq {next : Nat} (within : next ≤ tokens.list.length) (here : Nat) :
    moveTo next tokens.toArray here = (.ok (), next) := by
  have inside : next < tokens.toArray.size := size_toArray ▸ Nat.lt_succ_of_le within
  rw [moveTo, bind_input, if_pos inside]
  rfl

theorem advance_eq (within : index ≤ tokens.list.length)
    (notEnd : (tokens.streamAt index).current.kind ≠ .endOfInput) :
    advance tokens.toArray index = (.ok (tokens.streamAt index).current, index + 1) := by
  rw [advance, bind_current within, if_neg notEnd, bind_state,
    bind_ok (moveTo_eq (streamAt_advance notEnd).1 index)]
  rfl

theorem left_lt {after : Nat} (further : index < after) (within : index ≤ tokens.list.length) :
    left tokens.toArray after < left tokens.toArray index := by
  simp only [left, size_toArray]
  omega

theorem skipNewlines_of_other (within : index ≤ tokens.list.length)
    (notBreak : (tokens.streamAt index).current.kind ≠ .newline) :
    skipNewlines tokens.toArray index = (.ok (), index) := by
  apply rounds_done
  rw [newlineRound, bind_current within, if_neg notBreak]
  rfl

theorem skipNewlines_eq {index : Nat} (within : index ≤ tokens.list.length) :
    ∃ next, index ≤ next ∧ next ≤ tokens.list.length ∧
      skipNewlines tokens.toArray index = (.ok (), next) ∧
      (tokens.streamAt index).skipNewlines = tokens.streamAt next := by
  by_cases isBreak : (tokens.streamAt index).current.kind = .newline
  · have notEnd : (tokens.streamAt index).current.kind ≠ .endOfInput := by simp [isBreak]
    have behind := streamAt_advance notEnd
    have again : newlineRound () tokens.toArray index = (.ok (.inl ()), index + 1) := by
      rw [newlineRound, bind_current within, if_pos isBreak, bind_ok (advance_eq within notEnd)]
      rfl
    rcases skipNewlines_eq behind.1 with ⟨next, further, inside, skipped, same⟩
    refine ⟨next, by omega, inside, ?_, ?_⟩
    · rw [skipNewlines, rounds_again again (left_lt (Nat.lt_succ_self _) within)]
      exact skipped
    · rw [TokenStream.skipNewlines_of_current isBreak, behind.2, same]
  · exact ⟨index, Nat.le_refl _, within, skipNewlines_of_other within isBreak,
      TokenStream.skipNewlines_eq TokenStream.breaks_nil (.nothing _) isBreak⟩
termination_by tokens.list.length - index

/-- It is the end of input that line terminators are skipped up to at the latest. -/
example : skipNewlines #[⟨.newline, "\n", ⟨1, 1⟩⟩] 0 = (.error .outOfRange, 0) := by cbv

theorem step_eq (within : index ≤ tokens.list.length)
    (notEnd : (tokens.streamAt index).current.kind ≠ .endOfInput) :
    ∃ next, index < next ∧ next ≤ tokens.list.length ∧
      step tokens.toArray index = (.ok (tokens.streamAt index).current, next) ∧
      (tokens.streamAt index).step = tokens.streamAt next := by
  have behind := streamAt_advance notEnd
  rcases skipNewlines_eq behind.1 with ⟨next, further, inside, skipped, same⟩
  refine ⟨next, further, inside, ?_, ?_⟩
  · rw [step, bind_ok (advance_eq within notEnd), bind_ok skipped]
    rfl
  · rw [TokenStream.step, behind.2, same]

/-! ## Readers and rules -/

abbrev Showing : Type :=
  Tokens → Break Fault → Nat → Fault → TokenStream → Prop

/-- A refusal of a statement is shown as it is, by a reader that stands where the rule gives up. -/
def Plainly : Showing := fun tokens broken index fault rest =>
  broken = .refused fault ∧ index ≤ tokens.list.length ∧ rest = tokens.streamAt index

/-- A refusal inside an expression is shown as a complaint about the token where the rule gives up.
-/
def AsComplaint : Showing := fun tokens broken _ fault rest =>
  ∃ place, place ≤ tokens.list.length ∧ rest = tokens.streamAt place ∧
    fault.token = rest.current ∧ broken = .complaint fault.complaint place

inductive Matches (Shows : Showing) (tokens : Tokens) :
    Except (Break Fault) α × Nat → Reply α → Prop
  | accepted (value : α) {next : Nat} (within : next ≤ tokens.list.length) :
      Matches Shows tokens (.ok value, next) (.accepted value (tokens.streamAt next))
  | refused {broken : Break Fault} {after : Nat} {fault : Fault} {rest : TokenStream}
      (shows : Shows tokens broken after fault rest) :
      Matches Shows tokens (.error broken, after) (.refused fault rest)

theorem Matches.bind {Shows : Showing} {run : Reader α} {more : α → Reader β} {rule : Rule α}
    {others : α → Rule β}
    (first : Matches Shows tokens (run tokens.toArray index) (rule (tokens.streamAt index)))
    (second : ∀ value next, next ≤ tokens.list.length →
      rule (tokens.streamAt index) = .accepted value (tokens.streamAt next) →
      Matches Shows tokens (more value tokens.toArray next) (others value (tokens.streamAt next))) :
    Matches Shows tokens ((run >>= more) tokens.toArray index)
      ((rule >>= others) (tokens.streamAt index)) := by
  rw [Rule.bind_apply]
  generalize outcome : run tokens.toArray index = result at first
  generalize reply : rule (tokens.streamAt index) = replied at first second
  cases first with
  | accepted value within =>
      rw [bind_ok outcome]
      exact second value _ within rfl
  | refused shows =>
      rw [bind_error outcome]
      exact .refused shows

/-- A reader does at every token of a text what a rule does there. -/
def Follows (Shows : Showing) (tokens : Tokens) (run : Reader α) (rule : Rule α) : Prop :=
  ∀ index, index ≤ tokens.list.length →
    Matches Shows tokens (run tokens.toArray index) (rule (tokens.streamAt index))

variable {Shows : Showing} {run : Reader α} {rule : Rule α}

theorem Follows.bind {more : α → Reader β} {others : α → Rule β} (first : Follows Shows tokens run rule)
    (second : ∀ value, Follows Shows tokens (more value) (others value)) :
    Follows Shows tokens (run >>= more) (rule >>= others) :=
  fun index within => (first index within).bind fun value next inside _ =>
    second value next inside

theorem follows_pure (value : α) : Follows Shows tokens (pure value) (pure value) :=
  fun _ within => .accepted value within

theorem follows_skipNewlines : Follows Shows tokens skipNewlines Rule.skipNewlines := by
  intro index within
  rcases skipNewlines_eq within with ⟨next, _, inside, skipped, same⟩
  rw [skipped, Rule.skipNewlines, same]
  exact .accepted () inside

theorem le_of_advances {value : α} {next : Nat} (advances : rule.Advances)
    (within : index ≤ tokens.list.length)
    (accepted : rule (tokens.streamAt index) = .accepted value (tokens.streamAt next)) :
    index ≤ next := by
  have fewer := advances _ _ _ accepted
  simp only [TokenStream.remaining, Tokens.streamAt, List.length_drop] at fewer
  omega

/-! ## Operands -/

theorem complain_eq (within : index ≤ tokens.list.length) (what : Complaint) :
    Matches AsComplaint tokens ((complain what : Reader α) tokens.toArray index)
      (.refused ⟨what, (tokens.streamAt index).current⟩ (tokens.streamAt index)) :=
  .refused ⟨index, within, rfl, rfl, rfl⟩

theorem step_then (within : index ≤ tokens.list.length)
    (notEnd : (tokens.streamAt index).current.kind ≠ .endOfInput) (value : α) :
    Matches Shows tokens ((do let _ ← step; return value : Reader α) tokens.toArray index)
      (.accepted value (tokens.streamAt index).step) := by
  rcases step_eq within notEnd with ⟨next, _, inside, stepped, same⟩
  rw [bind_ok stepped, same]
  exact .accepted value inside

theorem follows_expectInside {kind : TokenKind} (notEnd : kind ≠ .endOfInput) :
    Follows AsComplaint tokens (expectInside kind) (Expr.expect kind) := by
  intro index within
  rw [expectInside, bind_current within]
  by_cases isKind : (tokens.streamAt index).current.kind = kind
  · rcases step_eq within (isKind ▸ notEnd) with ⟨next, _, inside, stepped, same⟩
    rw [if_pos isKind, stepped, Expr.expect_accepted.2 ⟨isKind, rfl, same⟩]
    exact .accepted _ inside
  · have refused : Expr.expect kind (tokens.streamAt index) =
        .refused ⟨.expected kind, (tokens.streamAt index).current⟩ (tokens.streamAt index) := by
      rw [Expr.expect, Rule.bind_refused]
      exact .inl (Rule.token_refused.2 ⟨by simpa using isKind, rfl, rfl⟩)
    rw [if_neg isKind, refused]
    exact complain_eq within _

theorem simpleOperand_literal {stream : TokenStream} {value : Literal}
    (found : Expr.atom? stream.current = some (.literal value)) :
    Expr.simpleOperand stream = .accepted (.literal value) stream.step := by
  simp [Expr.simpleOperand, Expr.atCall, found]

theorem simpleOperand_none {stream : TokenStream} (found : Expr.atom? stream.current = none) :
    Expr.simpleOperand stream =
      .refused ⟨Expr.operandComplaint stream.current, stream.current⟩ stream := by
  simp [Expr.simpleOperand, Expr.atCall, found]

theorem simpleOperand_called {stream : TokenStream} {name : String}
    (found : Expr.atom? stream.current = some (.global name))
    (opens : stream.advance.current.kind = .leftParen) :
    Expr.simpleOperand stream =
      if stream.current.value = "has_item" then Expr.itemQuestion stream.step
      else .refused ⟨.unknownFunction, stream.current⟩ stream := by
  simp [Expr.simpleOperand, Expr.atCall, found, opens]

theorem simpleOperand_name {stream : TokenStream} {name : String}
    (found : Expr.atom? stream.current = some (.global name))
    (unopened : stream.advance.current.kind ≠ .leftParen) :
    Expr.simpleOperand stream = .accepted (.global name) stream.step := by
  simp [Expr.simpleOperand, Expr.atCall, found, unopened]

theorem matches_call (within : index ≤ tokens.list.length)
    (notEnd : (tokens.streamAt index).current.kind ≠ .endOfInput) :
    Matches AsComplaint tokens (call tokens.toArray index)
      (if (tokens.streamAt index).current.value = "has_item" then
        Expr.itemQuestion (tokens.streamAt index).step
      else .refused ⟨.unknownFunction, (tokens.streamAt index).current⟩
        (tokens.streamAt index)) := by
  rcases step_eq within notEnd with ⟨next, _, inside, stepped, same⟩
  rw [call, bind_state, bind_ok stepped, same]
  by_cases asks : (tokens.streamAt index).current.value = "has_item"
  · rw [if_pos asks, if_pos asks]
    exact ((follows_expectInside (by decide)).bind fun _ =>
      (follows_expectInside (by decide)).bind fun item =>
        (follows_expectInside (by decide)).bind fun _ => follows_pure _) next inside
  · rw [if_neg asks, if_neg asks]
    exact .refused ⟨index, within, rfl, rfl, rfl⟩

theorem matches_word (within : index ≤ tokens.list.length)
    (isName : (tokens.streamAt index).current.kind = .identifier) :
    Matches AsComplaint tokens
      (word (tokens.streamAt index).current.value tokens.toArray index)
      (Expr.simpleOperand (tokens.streamAt index)) := by
  have notEnd : (tokens.streamAt index).current.kind ≠ .endOfInput := by simp [isName]
  unfold word
  by_cases isTrue : (tokens.streamAt index).current.value = "true"
  · have found : Expr.atom? (tokens.streamAt index).current = some (.literal (.boolean true)) := by
      simp [Expr.atom?, isName, isTrue]
    rw [if_pos isTrue, simpleOperand_literal found]
    exact step_then within notEnd _
  rw [if_neg isTrue]
  by_cases isFalse : (tokens.streamAt index).current.value = "false"
  · have found : Expr.atom? (tokens.streamAt index).current = some (.literal (.boolean false)) := by
      simp [Expr.atom?, isName, isFalse]
    rw [if_pos isFalse, simpleOperand_literal found]
    exact step_then within notEnd _
  rw [if_neg isFalse]
  by_cases isOperator : (tokens.streamAt index).current.value = "and" ∨
      (tokens.streamAt index).current.value = "or" ∨
        (tokens.streamAt index).current.value = "not"
  · have found : Expr.atom? (tokens.streamAt index).current = none := by
      simp [Expr.atom?, isName, isTrue, isFalse, isOperator]
    rw [if_pos isOperator, simpleOperand_none found]
    simp only [Expr.operandComplaint, isName]
    exact complain_eq within _
  rw [if_neg isOperator]
  have found : Expr.atom? (tokens.streamAt index).current =
      some (.global (tokens.streamAt index).current.value) := by
    simp [Expr.atom?, isName, isTrue, isFalse, isOperator]
  have behind := streamAt_advance notEnd
  rw [bind_state, bind_ok (tokenAt_eq behind.1 index), ← behind.2]
  by_cases opens : (tokens.streamAt index).advance.current.kind = .leftParen
  · rw [if_pos opens, simpleOperand_called found opens]
    exact matches_call within notEnd
  · rw [if_neg opens, simpleOperand_name found opens]
    exact step_then within notEnd _

theorem matches_number (within : index ≤ tokens.list.length)
    (isInteger : (tokens.streamAt index).current.kind = .integer) :
    Matches AsComplaint tokens
      ((do
        let value ← number (tokens.streamAt index).current.value
        let _ ← step
        return .literal (.integer value) : Reader Expr) tokens.toArray index)
      (Expr.simpleOperand (tokens.streamAt index)) := by
  have notEnd : (tokens.streamAt index).current.kind ≠ .endOfInput := by simp [isInteger]
  by_cases short : (tokens.streamAt index).current.value.length ≤ Text.Decimal.maxDigits
  · have converted : toNumber (tokens.streamAt index).current.value tokens.toArray index =
        (.ok (Text.Decimal.toNat (tokens.streamAt index).current.value.toList), index) := by
      rw [toNumber, if_pos short]
      rfl
    have found : Expr.atom? (tokens.streamAt index).current = some (.literal (.integer
        (Text.Decimal.toNat (tokens.streamAt index).current.value.toList))) := by
      simp [Expr.atom?, isInteger, short]
    have reported : number (tokens.streamAt index).current.value tokens.toArray index =
        (.ok (Text.Decimal.toNat (tokens.streamAt index).current.value.toList), index) :=
      handle_ok converted
    rw [bind_ok reported, simpleOperand_literal found]
    exact step_then within notEnd _
  · have failed : toNumber (tokens.streamAt index).current.value tokens.toArray index =
        (.error .conversion, index) := by
      rw [toNumber, if_neg short]
      rfl
    have reported : number (tokens.streamAt index).current.value tokens.toArray index =
        (.error (.complaint .integerTooLong index), index) :=
      handle_error failed
    have found : Expr.atom? (tokens.streamAt index).current = none := by
      simp [Expr.atom?, isInteger, short]
    rw [bind_error reported, simpleOperand_none found]
    simp only [Expr.operandComplaint, isInteger]
    exact complain_eq within _

theorem matches_operand {inside : Reader Expr} (within : index ≤ tokens.list.length)
    (enclosed : ∀ next, index < next → next ≤ tokens.list.length →
      Matches AsComplaint tokens (inside tokens.toArray next)
        (Expr.parse .disjunction (tokens.streamAt next))) :
    Matches AsComplaint tokens (operand inside tokens.toArray index)
      (Expr.parse .operand (tokens.streamAt index)) := by
  rw [operand, bind_current within]
  by_cases opening : (tokens.streamAt index).current.kind = .leftParen
  · rcases step_eq within (by simp [opening]) with ⟨next, further, within', stepped, same⟩
    rw [Expr.parse_enclosed opening, same]
    simp only [opening]
    rw [bind_ok stepped]
    exact (enclosed next further within').bind fun value last inside _ =>
      ((follows_expectInside (by decide)).bind fun _ => follows_pure value) last inside
  rw [Expr.parse_simple opening]
  cases kind : (tokens.streamAt index).current.kind with
  | leftParen => exact absurd kind opening
  | integer => exact matches_number within kind
  | string =>
      have found : Expr.atom? (tokens.streamAt index).current =
          some (.literal (.text (tokens.streamAt index).current.value)) := by
        simp [Expr.atom?, kind]
      rw [simpleOperand_literal found]
      exact step_then within (by simp [kind]) _
  | identifier => exact matches_word within kind
  | _ =>
      have found : Expr.atom? (tokens.streamAt index).current = none := by simp [Expr.atom?, kind]
      rw [simpleOperand_none found]
      simp only [Expr.operandComplaint, kind]
      exact complain_eq within _

/-! ## Levels -/

theorem parseMore_eq_pure {level : Level} (noOperators : ∀ op : BinaryOp, op.level ≠ level) :
    Expr.parseMore level = pure := by
  funext left stream
  exact Expr.parseMore_done (Expr.binaryOpAt?_eq_none noOperators _)

theorem parse_unsigned {stream : TokenStream} (unsigned : stream.current.kind ≠ .minus) :
    Expr.parse .sign stream = Expr.parse .operand stream := by
  rw [Expr.parse_tighter (by decide) (fun signed => unsigned signed.2) (by simp),
    parseMore_eq_pure Expr.level_ne_sign, bind_pure]
  rfl

theorem parse_undenied {stream : TokenStream} (undenied : ¬stream.current.isWord "not" = true) :
    Expr.parse .negation stream = Expr.parse .comparison stream := by
  rw [Expr.parse_tighter (by decide) (by simp) (fun denied => undenied denied.2),
    parseMore_eq_pure Expr.level_ne_negation, bind_pure]
  rfl

theorem lt_of_parse {level : Level} {value : Expr} {next : Nat}
    (accepted : Expr.parse level (tokens.streamAt index) = .accepted value (tokens.streamAt next)) :
    index < next := by
  have fewer := (Expr.read level (tokens.streamAt index)).property value _ accepted
  simp only [TokenStream.remaining, Tokens.streamAt, List.length_drop] at fewer
  omega

theorem matches_rounds {level : Level} {tighter : Reader Expr} {index : Nat} (value : Expr)
    (repeats : level ≠ .comparison) (within : index ≤ tokens.list.length)
    (operands : ∀ next, index < next → next ≤ tokens.list.length →
      Matches AsComplaint tokens (tighter tokens.toArray next)
        (Expr.parse level.tighter (tokens.streamAt next))) :
    Matches AsComplaint tokens
      (rounds left (joinRound level tighter) value tokens.toArray index)
      (Expr.parseMore level value (tokens.streamAt index)) := by
  cases operator : (tokens.streamAt index).current.binaryOpAt? level with
  | none =>
      have done : joinRound level tighter value tokens.toArray index =
          (.ok (.inr value), index) := by
        rw [joinRound, bind_current within, operator]
        rfl
      rw [rounds_done done, Expr.parseMore_done operator]
      exact .accepted value within
  | some op =>
      rcases step_eq within (Token.kind_ne_endOfInput_of_binaryOpAt? operator) with
        ⟨next, further, inside, stepped, same⟩
      have operand := operands next further inside
      have round : joinRound level tighter value tokens.toArray index =
          (do
            let right ← tighter
            return .inl (.binary op value right) : Reader (Expr ⊕ Expr)) tokens.toArray next := by
        rw [joinRound, bind_current within, operator]
        exact bind_ok stepped
      rw [Expr.parseMore_joined operator, same, Rule.bind_apply]
      generalize outcome : tighter tokens.toArray next = result at operand
      generalize reply : Expr.parse level.tighter (tokens.streamAt next) = replied at operand
      cases operand with
      | @accepted right last within' =>
          -- An operator and an operand have been passed, so the round is no stall.
          have behind := lt_of_parse reply
          rw [bind_ok outcome] at round
          rw [rounds_again round (left_lt (by omega) within)]
          simp only [repeats, ↓reduceIte]
          exact matches_rounds (.binary op value right) repeats within' fun later further' =>
            operands later (by omega)
      | refused shows =>
          rw [bind_error outcome] at round
          rw [rounds_error round]
          exact .refused shows
termination_by tokens.list.length - index

theorem matches_joined {level : Level} {tighter : Reader Expr} (repeats : level ≠ .comparison)
    (others : level ≠ .operand ∧ level ≠ .sign ∧ level ≠ .negation)
    (within : index ≤ tokens.list.length)
    (operands : ∀ next, index ≤ next → next ≤ tokens.list.length →
      Matches AsComplaint tokens (tighter tokens.toArray next)
        (Expr.parse level.tighter (tokens.streamAt next))) :
    Matches AsComplaint tokens (joined level tighter tokens.toArray index)
      (Expr.parse level (tokens.streamAt index)) := by
  rw [Expr.parse_tighter others.1 (fun signed => others.2.1 signed.1)
    fun denied => others.2.2 denied.1]
  refine (operands index (Nat.le_refl _) within).bind fun value next inside reply => ?_
  have behind := lt_of_parse reply
  exact matches_rounds value repeats inside fun later further => operands later (by omega)

theorem matches_compared {tighter : Reader Expr} (within : index ≤ tokens.list.length)
    (operands : ∀ next, index ≤ next → next ≤ tokens.list.length →
      Matches AsComplaint tokens (tighter tokens.toArray next)
        (Expr.parse .sum (tokens.streamAt next))) :
    Matches AsComplaint tokens (compared tighter tokens.toArray index)
      (Expr.parse .comparison (tokens.streamAt index)) := by
  rw [Expr.parse_tighter (by decide) (by simp) (by simp)]
  refine (operands index (Nat.le_refl _) within).bind fun first next inside reply => ?_
  have behind := lt_of_parse reply
  rw [bind_current inside]
  cases operator : (tokens.streamAt next).current.binaryOpAt? .comparison with
  | none =>
      rw [Expr.parseMore_done operator]
      exact .accepted first inside
  | some op =>
      rcases step_eq inside (Token.kind_ne_endOfInput_of_binaryOpAt? operator) with
        ⟨last, further, inside', stepped, same⟩
      dsimp only
      rw [bind_ok stepped, Expr.parseMore_joined operator, same]
      exact (operands last (by omega) inside').bind fun second _ within' _ =>
        .accepted (Expr.binary op first second) within'

theorem matches_prefixed {level : Level} {applies : Token → Bool} {op : UnaryOp}
    {again tighter : Reader Expr} (within : index ≤ tokens.list.length)
    (notEnd : applies (tokens.streamAt index).current = true →
      (tokens.streamAt index).current.kind ≠ .endOfInput)
    (applied : applies (tokens.streamAt index).current = true →
      Expr.parse level (tokens.streamAt index) =
        (do
          let value ← Expr.parse level
          return .unary op value : Rule Expr) (tokens.streamAt index).step)
    (unapplied : ¬applies (tokens.streamAt index).current = true →
      Expr.parse level (tokens.streamAt index) = Expr.parse level.tighter (tokens.streamAt index))
    (operand : ∀ next, index < next → next ≤ tokens.list.length →
      Matches AsComplaint tokens (again tokens.toArray next)
        (Expr.parse level (tokens.streamAt next)))
    (tight : Matches AsComplaint tokens (tighter tokens.toArray index)
      (Expr.parse level.tighter (tokens.streamAt index))) :
    Matches AsComplaint tokens (prefixed applies op again tighter tokens.toArray index)
      (Expr.parse level (tokens.streamAt index)) := by
  rw [prefixed, bind_current within]
  by_cases applies : applies (tokens.streamAt index).current = true
  · rcases step_eq within (notEnd applies) with ⟨next, further, inside, stepped, same⟩
    rw [if_pos applies, bind_ok stepped, applied applies, same]
    exact (operand next further inside).bind fun value _ within' _ =>
      .accepted (Expr.unary op value) within'
  · rw [if_neg applies, unapplied applies]
    exact tight

mutual

/-- Every call of a level is one of a tighter level, or it has fewer tokens ahead and is made anew
from the loosest level. So nine calls for every token are enough. -/
theorem matches_read (level : Level) {room index : Nat} (within : index ≤ tokens.list.length)
    (ample : 9 * (tokens.list.length - index) + level.rank < room) :
    Matches AsComplaint tokens (read room level tokens.toArray index)
      (Expr.parse level (tokens.streamAt index)) := by
  cases room with
  | zero => omega
  | succ room =>
      -- A tighter level may begin at the same token; any other call has a token behind it.
      have tight : level ≠ .operand → ∀ next, index ≤ next → next ≤ tokens.list.length →
          Matches AsComplaint tokens (read room level.tighter tokens.toArray next)
            (Expr.parse level.tighter (tokens.streamAt next)) := by
        intro notLast next further inside
        have lower := Level.rank_tighter_lt notLast
        exact matches_read level.tighter inside (by omega)
      have again : ∀ next, index < next → next ≤ tokens.list.length →
          Matches AsComplaint tokens (read room level tokens.toArray next)
            (Expr.parse level (tokens.streamAt next)) := by
        intro next further inside
        exact matches_read level inside (by omega)
      cases level with
      | operand =>
          have enclosed : ∀ next, index < next → next ≤ tokens.list.length →
              Matches AsComplaint tokens (whole room tokens.toArray next)
                (Expr.parse .disjunction (tokens.streamAt next)) := by
            intro next further inside
            exact matches_whole inside (by omega)
          exact matches_operand within enclosed
      | sign =>
          refine matches_prefixed within (fun isMinus => ?_) (fun isMinus => ?_)
            (fun unsigned => ?_) again (tight (by decide) index (Nat.le_refl _) within)
          · rw [eq_of_beq isMinus]
            decide
          · exact Expr.parse_negative (eq_of_beq isMinus)
          · exact parse_unsigned (by simpa using unsigned)
      | negation =>
          exact matches_prefixed within Token.kind_ne_endOfInput_of_isWord Expr.parse_denied
            parse_undenied again (tight (by decide) index (Nat.le_refl _) within)
      | comparison => exact matches_compared within (tight (by decide))
      | disjunction => exact matches_joined (by decide) (by decide) within (tight (by decide))
      | conjunction => exact matches_joined (by decide) (by decide) within (tight (by decide))
      | sum => exact matches_joined (by decide) (by decide) within (tight (by decide))
      | product => exact matches_joined (by decide) (by decide) within (tight (by decide))
termination_by room

theorem matches_whole {room index : Nat} (within : index ≤ tokens.list.length)
    (ample : 9 * (tokens.list.length - index) + 8 < room) :
    Matches AsComplaint tokens (whole room tokens.toArray index)
      (Expr.parse .disjunction (tokens.streamAt index)) := by
  cases room with
  | zero => omega
  | succ room =>
      have rank : Level.disjunction.rank = 7 := rfl
      exact matches_read .disjunction within (by omega)
termination_by room

end

def Ample (tokens : Tokens) (room : Nat) : Prop :=
  9 * (tokens.list.length + 1) ≤ room

theorem ample_enough (tokens : Tokens) : Ample tokens (9 * (tokens.list.length + 1)) :=
  Nat.le_refl _

theorem follows_expressionAhead (ample : Ample tokens room) :
    Follows AsComplaint tokens (expressionAhead room) Expr.rule := by
  have ahead : Expr.rule = Rule.skipNewlines >>= fun _ => Expr.parse .disjunction := rfl
  rw [ahead]
  refine follows_skipNewlines.bind fun _ index within => ?_
  unfold Ample at ample
  exact matches_whole within (by omega)

/-- What is wrong in an expression is taken over by the statement around it, at the same token. -/
theorem follows_expression (ample : Ample tokens room) :
    Follows Plainly tokens (expression room) Expr.rule := by
  intro index within
  have inside := follows_expressionAhead ample index within
  generalize outcome : expressionAhead room tokens.toArray index = result at inside
  generalize Expr.rule (tokens.streamAt index) = reply at inside
  cases inside with
  | accepted value within' =>
      rw [expression, handle_ok outcome]
      exact .accepted value within'
  | refused shows =>
      rcases shows with ⟨place, within', rfl, about, rfl⟩
      rw [expression, handle_error outcome]
      dsimp only
      rw [bind_ok (moveTo_eq within' _), bind_current within', ← about]
      exact .refused ⟨rfl, within', rfl⟩

end Reader

end Guarded

end EventScript
