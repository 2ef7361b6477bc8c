import EventScript.Proofs.Completions
import EventScript.Proofs.FurthestRefusal
import EventScript.Proofs.Glyphs

/-! How far rules look. What a rule replies is settled by the tokens that it has passed and by
the one behind them, or the one that it refuses at; an unknown function takes one more.
Where other tokens look the same up to there, the reply is the same. -/

namespace EventScript

open TokenStream

/-! ## Streams that agree -/

namespace TokenStream

def toList (stream : TokenStream) : List Token :=
  stream.ahead ++ [.atEnd stream.finish]

theorem head?_toList (stream : TokenStream) : stream.toList.head? = some stream.current := by
  unfold toList current
  cases stream.ahead <;> rfl

theorem toList_of_current {stream : TokenStream} (notEnd : stream.current.kind ≠ .endOfInput) :
    stream.toList = stream.current :: stream.advance.toList := by
  rcases ahead_of_current notEnd with ⟨rest, ahead⟩
  simp [toList, advance, ahead]

theorem index_advance {stream : TokenStream} (notEnd : stream.current.kind ≠ .endOfInput) :
    stream.advance.index = stream.index + 1 :=
  (passed_current notEnd).index

/-- Streams at one index, with tokens that look the same before the index `bound`. -/
structure Agrees (bound : Nat) (stream other : TokenStream) : Prop where
  index : other.index = stream.index
  alike : (glyphs none other.toList).take (bound - stream.index) =
    (glyphs none stream.toList).take (bound - stream.index)

namespace Agrees

variable {bound : Nat} {stream other : TokenStream}

theorem essence (agrees : stream.Agrees bound other) (within : stream.index < bound) :
    other.current.essence = stream.current.essence := by
  have head : ∀ place : TokenStream,
      ((glyphs none place.toList).take (bound - stream.index)).head?.map Glyph.essence =
        some place.current.essence := by
    intro place
    rw [List.head?_take, if_neg (by omega), ← List.head?_map, map_essence_glyphs, List.head?_map,
      head?_toList, Option.map_some]
  have same := head other
  rw [agrees.alike, head stream] at same
  injection same with same
  exact same.symm

theorem kind (agrees : stream.Agrees bound other) (within : stream.index < bound) :
    other.current.kind = stream.current.kind :=
  Token.kind_of_essence (agrees.essence within)

theorem glyphs_advance (agrees : stream.Agrees bound other) (within : stream.index < bound)
    (notEnd : stream.current.kind ≠ .endOfInput) :
    (glyphs (some other.current) other.advance.toList).take (bound - (stream.index + 1)) =
      (glyphs (some stream.current) stream.advance.toList).take (bound - (stream.index + 1)) := by
  have notEnd' : other.current.kind ≠ .endOfInput := agrees.kind within ▸ notEnd
  have alike := agrees.alike
  rw [toList_of_current notEnd, toList_of_current notEnd',
    show bound - stream.index = bound - (stream.index + 1) + 1 by omega, glyphs, glyphs,
    List.take_succ_cons, List.take_succ_cons] at alike
  injection alike

theorem advance (agrees : stream.Agrees bound other) (within : stream.index < bound)
    (notEnd : stream.current.kind ≠ .endOfInput) : stream.advance.Agrees bound other.advance := by
  have notEnd' : other.current.kind ≠ .endOfInput := agrees.kind within ▸ notEnd
  have behind := agrees.glyphs_advance within notEnd
  refine ⟨by rw [index_advance notEnd, index_advance notEnd', agrees.index], ?_⟩
  rw [index_advance notEnd, glyphs_none (some other.current), glyphs_none (some stream.current),
    List.take_modifyHead, List.take_modifyHead, behind]

theorem spacedFrom (agrees : stream.Agrees bound other) (within : stream.index + 1 < bound)
    (isMarker : stream.current.kind = .sectionMarker) :
    Rule.spacedFrom other.current other.advance.current =
      Rule.spacedFrom stream.current stream.advance.current := by
  have head : ∀ place : TokenStream, place.current.kind = .sectionMarker →
      ((glyphs (some place.current) place.advance.toList).take
        (bound - (stream.index + 1))).head?.map Glyph.apart =
          some (Rule.spacedFrom place.current place.advance.current) := by
    intro place isMarker
    rw [List.head?_take, if_neg (by omega)]
    cases tokens : place.advance.toList with
    | nil => simp [toList] at tokens
    | cons token others =>
        have current := head?_toList place.advance
        rw [tokens, List.head?_cons, Option.some.injEq] at current
        simp [glyphs, isMarker, current]
  have isMarker' : other.current.kind = .sectionMarker := by
    rw [agrees.kind (by omega), isMarker]
  have same := head other isMarker'
  rw [agrees.glyphs_advance (by omega) (by simp [isMarker]), head stream isMarker] at same
  injection same with same
  exact same.symm

end Agrees

theorem skipNewlines_of_current {stream : TokenStream} (isBreak : stream.current.kind = .newline) :
    stream.skipNewlines = stream.advance.skipNewlines := by
  have notEnd : stream.current.kind ≠ .endOfInput := by simp [isBreak]
  rcases passed_skipNewlines stream.advance with ⟨run, breaks, passed⟩
  have whole : Breaks (stream.current :: run) := List.forall_mem_cons.2 ⟨isBreak, breaks⟩
  exact skipNewlines_eq whole ((passed_current notEnd).trans passed) (current_skipNewlines _)

theorem index_le_skipNewlines (stream : TokenStream) : stream.index ≤ stream.skipNewlines.index := by
  rcases passed_skipNewlines stream with ⟨_, _, passed⟩
  exact passed.index_le

theorem index_lt_step {stream : TokenStream} (notEnd : stream.current.kind ≠ .endOfInput) :
    stream.index < stream.step.index := by
  have behind := stream.advance.index_le_skipNewlines
  rwa [index_advance notEnd] at behind

theorem Agrees.skipNewlines {bound : Nat} {stream other : TokenStream}
    (agrees : stream.Agrees bound other) (within : stream.skipNewlines.index < bound) :
    stream.skipNewlines.Agrees bound other.skipNewlines := by
  have inside : stream.index < bound := Nat.lt_of_le_of_lt stream.index_le_skipNewlines within
  by_cases isBreak : stream.current.kind = .newline
  · have isBreak' := (agrees.kind inside).trans isBreak
    have notEnd : stream.current.kind ≠ .endOfInput := by simp [isBreak]
    have fewer := remaining_advance_lt notEnd
    rw [skipNewlines_of_current isBreak] at within ⊢
    rw [skipNewlines_of_current isBreak']
    exact (agrees.advance inside notEnd).skipNewlines within
  · have isBreak' : other.current.kind ≠ .newline := agrees.kind inside ▸ isBreak
    rw [skipNewlines_eq breaks_nil (.nothing stream) isBreak,
      skipNewlines_eq breaks_nil (.nothing other) isBreak']
    exact agrees
termination_by stream.remaining

theorem Agrees.step {bound : Nat} {stream other : TokenStream} (agrees : stream.Agrees bound other)
    (notEnd : stream.current.kind ≠ .endOfInput) (within : stream.step.index < bound) :
    stream.step.Agrees bound other.step := by
  have stepped := index_lt_step notEnd
  exact (agrees.advance (by omega) notEnd).skipNewlines within

end TokenStream

/-! ## What a reply has looked at -/

/-- The index behind the tokens that a refusal was settled by. An unknown symbol has been passed,
and a function is told by the parenthesis behind it. -/
def Refusal.reach (refusal : Refusal) : Nat :=
  match refusal.fault.complaint with
  | .unknownSpecial => refusal.index
  | .unknownFunction => refusal.index + 2
  | _ => refusal.index + 1

namespace Reply

variable {α : Type}

def reach : Reply α → Nat
  | .accepted _ rest => rest.index + 1
  | .refused fault rest => Refusal.reach ⟨rest.index, fault⟩

/-- Replies that accept the same and go on where tokens look the same, or that both refuse at one
index with one complaint. -/
inductive Mirrors (bound : Nat) : Reply α → Reply α → Prop
  | accepted {value : α} {rest rest' : TokenStream} (agrees : rest.Agrees bound rest') :
      Mirrors bound (.accepted value rest) (.accepted value rest')
  | refused {fault fault' : Fault} {rest rest' : TokenStream}
      (complaint : fault'.complaint = fault.complaint) (index : rest'.index = rest.index) :
      Mirrors bound (.refused fault rest) (.refused fault' rest')

end Reply

namespace Rule

variable {α β : Type}

/-- A rule that goes onward from a stream, and replies the same wherever the tokens that have
settled its reply look the same. -/
structure LocalAt (rule : Rule α) (stream : TokenStream) : Prop where
  onward : stream.index < (rule stream).reach
  mirrors : ∀ {bound : Nat} {other : TokenStream}, stream.Agrees bound other →
    (rule stream).reach ≤ bound → (rule stream).Mirrors bound (rule other)

def Local (rule : Rule α) : Prop :=
  ∀ stream, rule.LocalAt stream

namespace LocalAt

variable {rule : Rule α} {stream : TokenStream}

theorem bind {next : α → Rule β} (first : rule.LocalAt stream)
    (second : ∀ value middle, rule stream = .accepted value middle → (next value).LocalAt middle) :
    (rule >>= next).LocalAt stream := by
  have onward := first.onward
  have mirrors := @first.mirrors
  cases replied : rule stream with
  | accepted value middle =>
      have behind := second value middle replied
      have whole : (rule >>= next) stream = next value middle := by rw [bind_apply, replied]
      have further := behind.onward
      rw [replied, Reply.reach] at onward mirrors
      refine ⟨by rw [whole]; omega, fun {bound other} agrees reached => ?_⟩
      rw [whole] at reached ⊢
      have same := mirrors agrees (by omega)
      rw [bind_apply]
      cases replied' : rule other with
      | accepted value' middle' =>
          rw [replied'] at same
          cases same with
          | accepted agrees' => exact behind.mirrors agrees' reached
      | refused fault' middle' =>
          rw [replied'] at same
          contradiction
  | refused fault rest =>
      have whole : (rule >>= next) stream = .refused fault rest := by rw [bind_apply, replied]
      rw [replied] at onward mirrors
      refine ⟨by rw [whole]; exact onward, fun {bound other} agrees reached => ?_⟩
      rw [whole] at reached ⊢
      have same := mirrors agrees reached
      rw [bind_apply]
      cases replied' : rule other with
      | accepted value' middle' =>
          rw [replied'] at same
          contradiction
      | refused fault' middle' =>
          rw [replied'] at same
          cases same with
          | refused complaint index => exact .refused complaint index

theorem pure (value : α) (stream : TokenStream) : (Pure.pure value : Rule α).LocalAt stream where
  onward := Nat.lt_succ_self _
  mirrors agrees _ := .accepted agrees

theorem of_current {branch : Rule α} (followed : ∀ other : TokenStream,
    other.current.essence = stream.current.essence → rule other = branch other)
    (isLocal : branch.LocalAt stream) : rule.LocalAt stream := by
  have onward := isLocal.onward
  rw [← followed stream rfl] at onward
  refine ⟨onward, fun agrees reached => ?_⟩
  rw [followed _ (agrees.essence (by omega)), followed stream rfl]
  rw [followed stream rfl] at reached
  exact isLocal.mirrors agrees reached

theorem of_advance {branch : Rule α} (notEnd : stream.current.kind ≠ .endOfInput)
    (followed : ∀ other : TokenStream, other.current.essence = stream.current.essence →
      rule other = branch other.advance) (isLocal : branch.LocalAt stream.advance) :
    rule.LocalAt stream := by
  have onward := isLocal.onward
  rw [index_advance notEnd, ← followed stream rfl] at onward
  refine ⟨by omega, fun agrees reached => ?_⟩
  rw [followed _ (agrees.essence (by omega)), followed stream rfl]
  rw [followed stream rfl] at reached
  exact isLocal.mirrors (agrees.advance (by rw [followed stream rfl] at onward; omega) notEnd) reached

theorem of_refused {complaint : Complaint} (plain : complaint ≠ .unknownSpecial)
    (refused : ∀ other : TokenStream, other.current.essence = stream.current.essence →
      rule other = .refused ⟨complaint, other.current⟩ other) : rule.LocalAt stream := by
  have onward : stream.index < (rule stream).reach := by
    rw [refused stream rfl, Reply.reach, Refusal.reach]
    split
    · contradiction
    · exact Nat.lt_add_of_pos_right (by decide)
    · exact Nat.lt_succ_self _
  refine ⟨onward, fun agrees reached => ?_⟩
  rw [refused stream rfl, refused _ (agrees.essence (by omega))]
  exact .refused rfl agrees.index

end LocalAt

/-! ## Tokens and line terminators -/

theorem local_skipNewlines : Local skipNewlines := fun stream =>
  { onward := Nat.lt_succ_of_le stream.index_le_skipNewlines
    mirrors := fun agrees reached => .accepted (agrees.skipNewlines reached) }

theorem LocalAt.of_step {rule branch : Rule α} {stream : TokenStream}
    (notEnd : stream.current.kind ≠ .endOfInput)
    (followed : ∀ other : TokenStream, other.current.essence = stream.current.essence →
      rule other = branch other.step) (isLocal : branch.LocalAt stream.step) :
    rule.LocalAt stream := by
  have behind : (skipNewlines >>= fun _ => branch).LocalAt stream.advance := by
    refine (local_skipNewlines stream.advance).bind fun _ middle skipped => ?_
    exact skipNewlines_accepted.1 skipped ▸ isLocal
  exact .of_advance notEnd followed behind

theorem local_token_bind {condition : Token → Bool} {complaint : Complaint}
    (plain : complaint ≠ .unknownSpecial)
    (notEnd : ∀ token, condition token = true → token.kind ≠ .endOfInput)
    (blind : ∀ token other : Token, other.essence = token.essence →
      condition other = condition token) {next : Token → Rule β}
    (same : ∀ token other : Token, other.essence = token.essence → condition token = true →
      next other = next token) (second : ∀ token, (next token).Local) :
    (token condition complaint >>= next).Local := by
  intro stream
  cases holds : condition stream.current with
  | true =>
      refine .of_advance (notEnd _ holds) (fun other alike => ?_) (second stream.current stream.advance)
      have holds' := (blind _ _ alike).trans holds
      rw [bind_apply, token, if_pos holds']
      exact congrFun (same _ _ alike holds) other.advance
  | false =>
      refine .of_refused plain fun other alike => ?_
      have fails := (blind _ _ alike).trans holds
      rw [bind_apply, token, if_neg (by simp [fails])]

theorem local_expect_bind {kind : TokenKind} (notEnd : kind ≠ .endOfInput)
    {next : Token → Rule β} (same : ∀ token other : Token, other.essence = token.essence →
      token.kind = kind → next other = next token) (second : ∀ token, (next token).Local) :
    (expect kind >>= next).Local := by
  refine local_token_bind (by simp) (fun token holds => ?_) (fun token other alike => ?_)
    (fun token other alike holds => same token other alike (by simpa using holds)) second
  · rw [beq_iff_eq] at holds
    exact holds ▸ notEnd
  · rw [Token.kind_of_essence alike]

theorem local_expectWord_bind {word : String} {next : Rule β} (second : next.Local) :
    (expectWord word >>= fun _ => next).Local :=
  local_token_bind (by simp) (fun _ => Token.kind_ne_endOfInput_of_isWord)
    (fun _ _ alike => Token.isWord_of_essence alike word) (fun _ _ _ _ => rfl) fun _ => second

theorem local_expectEndOfLine_bind {next : Rule β} (second : next.Local) :
    (expectEndOfLine >>= fun _ => next).Local := by
  refine local_token_bind (by simp) (fun token holds => ?_) (fun token other alike => ?_)
    (fun _ _ _ _ => rfl) fun _ => second
  · rw [beq_iff_eq] at holds
    simp [holds]
  · rw [Token.kind_of_essence alike]

theorem Local.bind {rule : Rule α} {next : α → Rule β} (first : rule.Local)
    (second : ∀ value, (next value).Local) : (rule >>= next).Local := fun stream =>
  (first stream).bind fun value middle _ => second value middle

theorem local_pure (value : α) : (pure value : Rule α).Local :=
  LocalAt.pure value

theorem local_argument_bind {kind : TokenKind} (notEnd : kind ≠ .endOfInput)
    {next : Token → Rule β} (same : ∀ token other : Token, other.essence = token.essence →
      token.kind = kind → next other = next token) (second : ∀ token, (next token).Local) :
    (argument kind >>= next).Local := by
  rw [argument, bind_assoc]
  exact local_skipNewlines.bind fun _ => local_expect_bind notEnd same second

theorem local_sign_bind {kind : TokenKind} (notEnd : kind ≠ .endOfInput) {next : Rule β}
    (second : next.Local) : (argument kind >>= fun _ => next).Local :=
  local_argument_bind notEnd (fun _ _ _ _ => rfl) fun _ => second

theorem local_name : name.Local := by
  refine local_argument_bind (by decide) (fun token other alike isName => ?_) fun _ => local_pure _
  rw [Token.value_of_essence alike (by simp [isName])]

theorem local_comma : comma.Local :=
  local_sign_bind (by decide) (local_pure ())

theorem local_choice : Rule.choice.Local :=
  local_sign_bind (by decide) <| local_name.bind fun _ => local_comma.bind fun _ =>
    local_name.bind fun _ => local_sign_bind (by decide) (local_pure _)

def choicesBehindComma : Rule (List Choice) :=
  Rule.choice >>= fun first => bind (m := Rule) moreChoices fun others => pure (first :: others)

def choicesAhead : Rule (List Choice) := fun stream =>
  if stream.current.kind = .comma then choicesBehindComma stream.advance else .accepted [] stream

theorem moreChoices_eq : moreChoices = skipNewlines >>= fun _ => choicesAhead := by
  funext stream
  change moreChoices stream = choicesAhead stream.skipNewlines
  rw [moreChoices.eq_def, choicesAhead]
  by_cases isComma : stream.skipNewlines.current.kind = .comma
  · simp only [isComma, ↓reduceDIte, ↓reduceIte, choicesBehindComma, bind_apply]
    split
    · next replied => rw [replied]
    · next first rest replied =>
        rw [replied]
        refine Eq.trans ?_ (bind_apply moreChoices (fun others => pure (first :: others)) rest).symm
        cases moreChoices rest <;> rfl
  · simp only [isComma, ↓reduceDIte, ↓reduceIte]

theorem localAt_moreChoices (stream : TokenStream) : LocalAt moreChoices stream := by
  rw [moreChoices_eq]
  refine (local_skipNewlines stream).bind fun _ start skipped => ?_
  rw [skipNewlines_accepted] at skipped
  subst skipped
  by_cases isComma : stream.skipNewlines.current.kind = .comma
  · have notEnd : stream.skipNewlines.current.kind ≠ .endOfInput := by simp [isComma]
    have behind : choicesBehindComma.LocalAt stream.skipNewlines.advance := by
      refine (local_choice _).bind fun first rest chosen => ?_
      have fewer : stream.skipNewlines.advance.remaining < stream.remaining :=
        Nat.lt_of_lt_of_le (remaining_advance_lt notEnd) stream.remaining_skipNewlines_le
      have further := advances_choice _ _ _ chosen
      exact (localAt_moreChoices rest).bind fun others last _ => .pure (first :: others) last
    refine .of_advance notEnd (fun other alike => ?_) behind
    rw [choicesAhead, if_pos ((Token.kind_of_essence alike).trans isComma)]
  · refine .of_current (fun other alike => ?_) (.pure [] stream.skipNewlines)
    rw [choicesAhead, if_neg (Token.kind_of_essence alike ▸ isComma)]
    rfl
termination_by stream.remaining

end Rule

/-! ## Expressions -/

namespace Expr

theorem atom?_of_essence {token other : Token} (alike : other.essence = token.essence) :
    atom? other = atom? token := by
  have kind := Token.kind_of_essence alike
  by_cases isBreak : token.kind = .newline
  · simp [atom?, kind, isBreak]
  · rw [atom?, atom?, kind, Token.value_of_essence alike isBreak]

theorem binaryOpAt?_of_essence {token other : Token} (alike : other.essence = token.essence)
    (level : Level) : other.binaryOpAt? level = token.binaryOpAt? level := by
  have kind := Token.kind_of_essence alike
  by_cases isBreak : token.kind = .newline
  · simp [Token.binaryOpAt?, Token.binaryOp?, kind, isBreak]
  · rw [Token.binaryOpAt?, Token.binaryOpAt?, Token.binaryOp?, Token.binaryOp?, kind,
      Token.value_of_essence alike isBreak]

theorem local_expect_bind {α : Type} {kind : TokenKind} (notEnd : kind ≠ .endOfInput)
    {next : Token → Rule α} (same : ∀ token other : Token, other.essence = token.essence →
      token.kind = kind → next other = next token) (second : ∀ token, (next token).Local) :
    (expect kind >>= next).Local := by
  simp only [expect, bind_assoc, pure_bind]
  refine Rule.local_expect_bind notEnd (fun token other alike isKind => ?_) fun token =>
    Rule.local_skipNewlines.bind fun _ => second token
  rw [same token other alike isKind]

theorem local_itemQuestion : itemQuestion.Local := by
  refine local_expect_bind (by decide) (fun _ _ _ _ => rfl) fun _ =>
    local_expect_bind (by decide) (fun token other alike isName => ?_) fun _ =>
      local_expect_bind (by decide) (fun _ _ _ _ => rfl) fun _ => Rule.local_pure _
  rw [Token.value_of_essence alike (by simp [isName])]

theorem atCall_of_agrees {bound : Nat} {stream other : TokenStream}
    (agrees : stream.Agrees bound other) (within : stream.index + 1 < bound) :
    atCall other = atCall stream := by
  have alike := agrees.essence (by omega)
  unfold atCall
  rw [atom?_of_essence alike]
  split
  · next found =>
      have notEnd := kind_ne_endOfInput_of_atom? found
      have behind := agrees.advance (by omega) notEnd
      rw [behind.kind (by rw [index_advance notEnd]; exact within)]
  · rfl

theorem local_simpleOperand : simpleOperand.Local := by
  intro stream
  cases call : atCall stream with
  | true =>
      have notEnd : stream.current.kind ≠ .endOfInput := by simp [(isName_of_atCall call).1]
      have stepped := index_lt_step notEnd
      have notBreak : stream.current.kind ≠ .newline := by simp [(isName_of_atCall call).1]
      by_cases asks : stream.current.value = "has_item"
      · have question := local_itemQuestion stream.step
        have onward := question.onward
        have replied : simpleOperand stream = itemQuestion stream.step := by
          rw [simpleOperand, if_pos call, if_pos asks]
        refine ⟨by rw [replied]; omega, fun {bound other} agrees reached => ?_⟩
        rw [replied] at reached ⊢
        have alike := agrees.essence (by omega)
        rw [simpleOperand, if_pos ((atCall_of_agrees agrees (by omega)).trans call),
          if_pos ((Token.value_of_essence alike notBreak).trans asks)]
        exact question.mirrors (agrees.step notEnd (by omega)) reached
      · have replied : simpleOperand stream =
            .refused ⟨.unknownFunction, stream.current⟩ stream := by
          rw [simpleOperand, if_pos call, if_neg asks]
        have reach : (simpleOperand stream).reach = stream.index + 2 := by rw [replied]; rfl
        refine ⟨by omega, fun {bound other} agrees reached => ?_⟩
        rw [reach] at reached
        have alike := agrees.essence (by omega)
        rw [replied, simpleOperand, if_pos ((atCall_of_agrees agrees (by omega)).trans call),
          if_neg (Token.value_of_essence alike notBreak ▸ asks)]
        exact .refused rfl agrees.index
  | false =>
      cases found : atom? stream.current with
      | some operand =>
          have notEnd := kind_ne_endOfInput_of_atom? found
          have stepped := index_lt_step notEnd
          have replied : simpleOperand stream = .accepted operand stream.step := by
            simp [simpleOperand, call, found]
          have reach : (simpleOperand stream).reach = stream.step.index + 1 := by
            rw [replied]
            rfl
          refine ⟨by omega, fun {bound other} agrees reached => ?_⟩
          rw [reach] at reached
          have call' := (atCall_of_agrees agrees (by omega)).trans call
          have found' := (atom?_of_essence (agrees.essence (by omega))).trans found
          have replied' : simpleOperand other = .accepted operand other.step := by
            simp [simpleOperand, call', found']
          rw [replied, replied']
          exact .accepted (agrees.step notEnd reached)
      | none =>
          refine .of_refused (operandComplaint_ne stream.current).1 fun other alike => ?_
          have found' := (atom?_of_essence alike).trans found
          have kind := Token.kind_of_essence alike
          have noCall : atCall other = false := by simp [atCall, found']
          simp [simpleOperand, noCall, found', operandComplaint, kind]

mutual

theorem localAt_parse (level : Level) (stream : TokenStream) : (parse level).LocalAt stream := by
  by_cases last : level = .operand
  · subst last
    by_cases opening : stream.current.kind = .leftParen
    · have stepped : stream.step.remaining < stream.remaining :=
        remaining_step_lt (by simp [opening])
      refine .of_step (by simp [opening])
        (fun other alike => parse_enclosed ((Token.kind_of_essence alike).trans opening)) ?_
      refine (localAt_parse .disjunction stream.step).bind fun inner middle _ => ?_
      exact local_expect_bind (by decide) (fun _ _ _ _ => rfl) (fun _ => Rule.local_pure inner) middle
    · refine .of_current (fun other alike => parse_simple ?_) (local_simpleOperand stream)
      exact Token.kind_of_essence alike ▸ opening
  by_cases signed : level = .sign ∧ stream.current.kind = .minus
  · rcases signed with ⟨rfl, sign⟩
    have stepped : stream.step.remaining < stream.remaining :=
      remaining_step_lt (by simp [sign])
    refine .of_step (by simp [sign])
      (fun other alike => parse_negative ((Token.kind_of_essence alike).trans sign)) ?_
    exact (localAt_parse .sign stream.step).bind fun _ _ _ => .pure _ _
  by_cases negated : level = .negation ∧ stream.current.isWord "not" = true
  · rcases negated with ⟨rfl, denial⟩
    have notEnd := Token.kind_ne_endOfInput_of_isWord denial
    have stepped := remaining_step_lt notEnd
    refine .of_step notEnd
      (fun other alike => parse_denied ((Token.isWord_of_essence alike "not").trans denial)) ?_
    exact (localAt_parse .negation stream.step).bind fun _ _ _ => .pure _ _
  have tighter := Level.rank_tighter_lt last
  refine .of_current (fun other alike => parse_tighter last ?_ ?_)
    ((localAt_parse level.tighter stream).bind fun left middle reached => ?_)
  · rwa [Token.kind_of_essence alike]
  · rwa [Token.isWord_of_essence alike]
  · have passed : middle.remaining < stream.remaining :=
      (read level.tighter stream).property left middle reached
    exact localAt_parseMore level left middle
termination_by (stream.remaining, level.rank)

theorem localAt_parseMore (level : Level) (left : Expr) (stream : TokenStream) :
    (parseMore level left).LocalAt stream := by
  cases operator : stream.current.binaryOpAt? level with
  | none =>
      refine .of_current (fun other alike => parseMore_done ?_) (.pure left stream)
      exact (binaryOpAt?_of_essence alike level).trans operator
  | some op =>
      have notEnd := Token.kind_ne_endOfInput_of_binaryOpAt? operator
      have stepped := remaining_step_lt notEnd
      refine .of_step notEnd
        (fun other alike => parseMore_joined ((binaryOpAt?_of_essence alike level).trans operator)) ?_
      refine (localAt_parse level.tighter stream.step).bind fun right middle reached => ?_
      have passed : middle.remaining < stream.step.remaining :=
        (read level.tighter stream.step).property right middle reached
      by_cases once : level = .comparison
      · rw [if_pos once]
        exact .pure _ middle
      · rw [if_neg once]
        exact localAt_parseMore level (.binary op left right) middle
termination_by (stream.remaining, level.rank)

end

theorem local_rule : rule.Local := by
  have whole : rule = Rule.skipNewlines >>= fun _ => parse .disjunction := rfl
  rw [whole]
  exact Rule.local_skipNewlines.bind fun _ => localAt_parse .disjunction

end Expr

/-! ## Statements -/

namespace Rule

theorem local_closeArguments : closeArguments.Local := by
  rw [closeArguments_eq]
  exact local_sign_bind (by decide) (local_expectEndOfLine_bind (local_pure ()))

theorem local_form {keyword : String} {inside : Rule Instruction} (isLocal : inside.Local) :
    (form keyword inside).Local := by
  rw [form_eq]
  exact local_expectWord_bind <| local_sign_bind (by decide) <| isLocal.bind fun instruction =>
    local_closeArguments.bind fun _ => local_pure instruction

theorem local_ofName (make : String → Instruction) : (ofName make).Local :=
  local_name.bind fun word => local_pure (make word)

theorem local_ofNameAndExpression (make : String → Expr → Instruction) :
    (ofNameAndExpression make).Local :=
  local_name.bind fun word => local_comma.bind fun _ => Expr.local_rule.bind fun value =>
    local_pure (make word value)

theorem local_ofExpression (make : Expr → Instruction) : (ofExpression make).Local :=
  Expr.local_rule.bind fun value => local_pure (make value)

theorem local_ofChoices : ofChoices.Local :=
  local_name.bind fun textId => local_comma.bind fun _ => local_sign_bind (by decide) <|
    local_choice.bind fun first => Local.bind localAt_moreChoices fun others =>
      local_sign_bind (by decide) (local_pure (Instruction.talk textId (first :: others)))

theorem local_ofSymbol : ofSymbol.Local := by
  have unfolded : ofSymbol =
      skipNewlines >>= fun _ => expect .identifier >>= Rule.behaviour := by
    simp only [ofSymbol, argument, bind_assoc]
  rw [unfolded]
  refine local_skipNewlines.bind fun _ stream => ?_
  by_cases isName : stream.current.kind = .identifier
  · have notEnd : stream.current.kind ≠ .endOfInput := by simp [isName]
    have replied : ∀ other : TokenStream, other.current.essence = stream.current.essence →
        (expect .identifier >>= Rule.behaviour) other =
          Rule.behaviour other.current other.advance := by
      intro other alike
      have isName' := (Token.kind_of_essence alike).trans isName
      simp [bind_apply, expect, token, isName']
    have value : ∀ other : TokenStream, other.current.essence = stream.current.essence →
        other.current.value = stream.current.value :=
      fun other alike => Token.value_of_essence alike (by simp [isName])
    cases found : Special.ofSymbol? stream.current.value with
    | some known =>
        refine .of_advance notEnd (fun other alike => ?_) (.pure (.special known) stream.advance)
        rw [replied other alike, Rule.behaviour, value other alike, found]
    | none =>
        have refused : ∀ other : TokenStream, other.current.essence = stream.current.essence →
            (expect .identifier >>= Rule.behaviour) other =
              .refused ⟨.unknownSpecial, other.current⟩ other.advance := by
          intro other alike
          rw [replied other alike, Rule.behaviour, value other alike, found]
          rfl
        have reach : ((expect .identifier >>= Rule.behaviour) stream).reach = stream.index + 1 := by
          rw [refused stream rfl]
          exact index_advance notEnd
        refine ⟨by omega, fun agrees reached => ?_⟩
        have alike := agrees.essence (by omega)
        have notEnd' : _ ≠ TokenKind.endOfInput := Token.kind_of_essence alike ▸ notEnd
        rw [refused stream rfl, refused _ alike]
        exact .refused rfl (by rw [index_advance notEnd, index_advance notEnd', agrees.index])
  · refine @LocalAt.of_refused _ _ _ (.expected .identifier) (by simp) fun other alike => ?_
    have isName' : other.current.kind ≠ .identifier := Token.kind_of_essence alike ▸ isName
    simp [bind_apply, expect, token, isName']

theorem local_formOf (instruction : Instruction) : (formOf instruction).Local := by
  rw [formOf_eq_form]
  apply local_form
  cases instruction with
  | jump target => exact local_ofName .jump
  | jumpIf target condition => exact local_ofNameAndExpression .jumpIf
  | talk textId choices =>
      cases choices with
      | nil => exact local_ofName (.talk · [])
      | cons first others => exact local_ofChoices
  | assign name value => exact local_ofNameAndExpression .assign
  | receiveMoney amount => exact local_ofExpression .receiveMoney
  | removeItem item => exact local_ofName .removeItem
  | special behaviour => exact local_ofSymbol

theorem local_behindMarker (spaced : Bool) : (behindMarker spaced).Local := by
  intro stream
  by_cases isName : stream.current.kind = .identifier
  · cases spaced with
    | true =>
        have lineEnd := local_expectEndOfLine_bind (local_pure stream.current.value)
        refine .of_advance (by simp [isName]) (fun other alike => ?_) (lineEnd stream.advance)
        have isName' := (Token.kind_of_essence alike).trans isName
        rw [← Token.value_of_essence alike (by simp [isName])]
        simp only [behindMarker, bind_apply, current, isName']
        rfl
    | false =>
        refine @LocalAt.of_refused _ _ _ .unspacedSectionName (by simp) fun other alike => ?_
        have isName' := (Token.kind_of_essence alike).trans isName
        simp [behindMarker, bind_apply, current, refuse, isName']
  · refine @LocalAt.of_refused _ _ _ .expectedSectionName (by simp) fun other alike => ?_
    have isName' : other.current.kind ≠ .identifier := Token.kind_of_essence alike ▸ isName
    simp [behindMarker, bind_apply, current, refuse, isName']

/-- The name is seen with the blanks before it, so what is behind the marker is the same. -/
theorem local_sectionHeader : sectionHeader.Local := by
  intro stream
  by_cases isMarker : stream.current.kind = .sectionMarker
  · have notEnd : stream.current.kind ≠ .endOfInput := by simp [isMarker]
    have behind := local_behindMarker (spacedFrom stream.current stream.advance.current) stream.advance
    have onward := behind.onward
    rw [index_advance notEnd] at onward
    refine ⟨by rw [sectionHeader_of_marker isMarker]; omega, fun {bound other} agrees reached => ?_⟩
    rw [sectionHeader_of_marker isMarker] at reached
    have isMarker' := (agrees.kind (by omega)).trans isMarker
    rw [sectionHeader_of_marker isMarker, sectionHeader_of_marker isMarker',
      agrees.spacedFrom (by omega) isMarker]
    exact behind.mirrors (agrees.advance (by omega) notEnd) reached
  · refine @LocalAt.of_refused _ _ _ (.expected .sectionMarker) (by simp) fun other alike => ?_
    exact sectionHeader_of_other (Token.kind_of_essence alike ▸ isMarker)

/-! ## Refusals settled by one token -/

/-- A rule that is settled by the token it refuses at, whatever it refuses. -/
def Plain (rule : Rule α) : Prop :=
  ∀ stream rest fault, rule stream = .refused fault rest →
    fault.complaint ≠ .unknownSpecial ∧ fault.complaint ≠ .unknownFunction

theorem Plain.bind {rule : Rule α} {next : α → Rule β} (first : rule.Plain)
    (second : ∀ value, (next value).Plain) : (rule >>= next).Plain := by
  intro stream rest fault reply
  rcases (bind_refused rule).1 reply with refused | ⟨value, middle, _, refused⟩
  · exact first _ _ _ refused
  · exact second value _ _ _ refused

theorem plain_token {condition : Token → Bool} {complaint : Complaint}
    (plain : complaint ≠ .unknownSpecial ∧ complaint ≠ .unknownFunction) :
    (token condition complaint).Plain := by
  intro stream rest fault reply
  rcases token_refused.1 reply with ⟨_, rfl, _⟩
  exact plain

theorem plain_pure (value : α) : (pure value : Rule α).Plain := by
  intro stream rest fault reply
  contradiction

theorem plain_argument (kind : TokenKind) : (argument kind).Plain := by
  have skips : skipNewlines.Plain := by
    intro stream rest fault reply
    contradiction
  have sign : (expect kind).Plain := plain_token (by simp)
  exact skips.bind fun _ => sign

theorem plain_name : name.Plain :=
  (plain_argument _).bind fun _ => plain_pure _

theorem plain_comma : comma.Plain :=
  (plain_argument _).bind fun _ => plain_pure _

theorem plain_choice : Rule.choice.Plain :=
  (plain_argument _).bind fun _ => plain_name.bind fun _ => plain_comma.bind fun _ =>
    plain_name.bind fun _ => (plain_argument _).bind fun _ => plain_pure _

theorem plain_moreChoices : Plain moreChoices := by
  intro stream rest fault reply
  fun_induction moreChoices stream generalizing rest fault with
  | case1 stream start isComma fault' rest' refused =>
      injection reply with sameFault _
      exact sameFault ▸ plain_choice _ _ _ refused
  | case2 stream start isComma first middle chosen fewer fault' last refused induction =>
      injection reply with sameFault _
      exact sameFault ▸ induction _ _ refused
  | case3 => contradiction
  | case4 => contradiction

theorem plain_ofChoices : ofChoices.Plain :=
  plain_name.bind fun _ => plain_comma.bind fun _ => (plain_argument _).bind fun _ =>
    plain_choice.bind fun _ => Plain.bind plain_moreChoices fun _ =>
      (plain_argument _).bind fun _ => plain_pure _

theorem plain_form {keyword : String} {inside : Rule Instruction} (plain : inside.Plain) :
    (form keyword inside).Plain := by
  have closing : closeArguments.Plain := by
    have ends : expectEndOfLine.Plain := plain_token (by simp)
    rw [closeArguments_eq]
    exact (plain_argument _).bind fun _ => ends.bind fun _ => plain_pure _
  have word : (expectWord keyword).Plain := plain_token (by simp)
  rw [form_eq]
  exact word.bind fun _ => (plain_argument _).bind fun _ => plain.bind fun _ =>
    closing.bind fun _ => plain_pure _

/-- Both forms of a talk are settled by single tokens; they hold names and signs only. -/
theorem plain_talk {instruction : Instruction} (isTalk : instruction.kind = "talk") :
    (formOf instruction).Plain := by
  cases instruction with
  | talk textId choices =>
      cases choices with
      | nil =>
          rw [formOf, talk_eq_form]
          exact plain_form (plain_name.bind fun _ => plain_pure _)
      | cons first others =>
          rw [formOf, talkWithChoices_eq_form]
          exact plain_form plain_ofChoices
  | _ => simp [Instruction.kind] at isTalk

end Rule

end EventScript
