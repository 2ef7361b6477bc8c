import EventScript.Grammar.Script
import EventScript.Proofs.ExpressionCompleteness

/-! The grammar of statements. An instruction is its keyword and a row of pieces, each of
which may have line terminators before it. Every instruction form accepts exactly
the instructions that are spelled in this way. -/

namespace EventScript

open TokenStream

theorem intercalate_cons {α : Type} (separator first : List α) (others : List (List α)) :
    separator.intercalate (first :: others) = first ++ others.flatMap (separator ++ ·) := by
  induction others generalizing first with
  | nil => simp
  | cons second others induction =>
      rw [List.intercalate_cons_cons, induction, List.flatMap_cons]
      simp

/-! ## The pieces of instructions -/

/-- A piece of an instruction behind its keyword. -/
inductive Piece where
  | sign (kind : TokenKind)
  | name (word : String)
  | expression (value : Expr)
deriving DecidableEq, Repr

def Piece.separated (parts : List (List Piece)) : List Piece :=
  [sign .comma].intercalate parts

def Choice.pieces (choice : Choice) : List Piece :=
  [.sign .leftParen, .name choice.label, .sign .comma, .name choice.target, .sign .rightParen]

inductive Argument where
  | name (word : String)
  | expression (value : Expr)
  | choices (list : List Choice)
deriving DecidableEq, Repr

def Argument.pieces : Argument → List Piece
  | .name word => [.name word]
  | .expression value => [.expression value]
  | .choices list =>
      .sign .leftBracket :: (Piece.separated (list.map Choice.pieces) ++ [.sign .rightBracket])

namespace Instruction

/-- What an instruction takes. Only a talk that offers choices has an argument for them. -/
def arguments : Instruction → List Argument
  | .jump target => [.name target]
  | .jumpIf target condition => [.name target, .expression condition]
  | .talk textId [] => [.name textId]
  | .talk textId choices => [.name textId, .choices choices]
  | .assign name value => [.name name, .expression value]
  | .receiveMoney amount => [.expression amount]
  | .removeItem item => [.name item]
  | .special behaviour => [.name behaviour.symbol]

def pieces (instruction : Instruction) : List Piece :=
  .sign .leftParen ::
    (Piece.separated (instruction.arguments.map Argument.pieces) ++ [.sign .rightParen])

end Instruction

/-! ## Where pieces stand -/

namespace Piece

/-- The piece stands between two places of a text, behind line terminators. -/
inductive Spans : Piece → TokenStream → TokenStream → Prop
  | sign {run : List Token} {token : Token} {before after : TokenStream} (breaks : Breaks run)
      (passed : before.Passed (run ++ [token]) after) : Spans (.sign token.kind) before after
  | name {run : List Token} {token : Token} {before after : TokenStream} (breaks : Breaks run)
      (isName : token.kind = .identifier) (passed : before.Passed (run ++ [token]) after) :
      Spans (.name token.value) before after
  | expression {value : Expr} {before after : TokenStream}
      (accepted : Expr.rule before = .accepted value after) :
      Spans (.expression value) before after

inductive SpanAll : List Piece → TokenStream → TokenStream → Prop
  | nil {place : TokenStream} : SpanAll [] place place
  | cons {piece : Piece} {pieces : List Piece} {before between after : TokenStream}
      (first : piece.Spans before between) (others : SpanAll pieces between after) :
      SpanAll (piece :: pieces) before after

@[simp] theorem spanAll_nil {before after : TokenStream} :
    SpanAll [] before after ↔ before = after := by
  constructor
  · intro spans
    cases spans
    rfl
  · intro same
    subst same
    exact .nil

@[simp] theorem spanAll_cons {piece : Piece} {pieces : List Piece} {before after : TokenStream} :
    SpanAll (piece :: pieces) before after ↔
      ∃ between, piece.Spans before between ∧ SpanAll pieces between after := by
  constructor
  · intro spans
    cases spans with
    | cons first others => exact ⟨_, first, others⟩
  · intro holds
    rcases holds with ⟨between, first, others⟩
    exact .cons first others

theorem spanAll_append {first second : List Piece} {before after : TokenStream} :
    SpanAll (first ++ second) before after ↔
      ∃ between, SpanAll first before between ∧ SpanAll second between after := by
  induction first generalizing before with
  | nil => simp
  | cons piece pieces induction =>
      simp only [List.cons_append, spanAll_cons, induction]
      constructor
      · intro holds
        rcases holds with ⟨middle, piece, between, pieces, others⟩
        exact ⟨between, ⟨middle, piece, pieces⟩, others⟩
      · intro holds
        rcases holds with ⟨between, ⟨middle, piece, pieces⟩, others⟩
        exact ⟨middle, piece, between, pieces, others⟩

inductive Spelled (spelling : Expr → List Token → Prop) : Piece → List Token → Prop
  | sign {run : List Token} {token : Token} (breaks : Breaks run) :
      Spelled spelling (.sign token.kind) (run ++ [token])
  | name {run : List Token} {token : Token} (breaks : Breaks run)
      (isName : token.kind = .identifier) : Spelled spelling (.name token.value) (run ++ [token])
  | expression {value : Expr} {tokens : List Token} (spelled : spelling value tokens) :
      Spelled spelling (.expression value) tokens

inductive SpelledAll (spelling : Expr → List Token → Prop) : List Piece → List Token → Prop
  | nil : SpelledAll spelling [] []
  | cons {piece : Piece} {pieces : List Piece} {tokens others : List Token}
      (first : piece.Spelled spelling tokens) (rest : SpelledAll spelling pieces others) :
      SpelledAll spelling (piece :: pieces) (tokens ++ others)

@[simp] theorem spelledAll_nil {spelling : Expr → List Token → Prop} {tokens : List Token} :
    SpelledAll spelling [] tokens ↔ tokens = [] := by
  constructor
  · intro spelled
    cases spelled
    rfl
  · intro same
    subst same
    exact .nil

theorem spelledAll_cons {spelling : Expr → List Token → Prop} {piece : Piece}
    {pieces : List Piece} {tokens : List Token} :
    SpelledAll spelling (piece :: pieces) tokens ↔
      ∃ first others, tokens = first ++ others ∧ piece.Spelled spelling first ∧
        SpelledAll spelling pieces others := by
  constructor
  · intro spelled
    cases spelled with
    | cons first rest => exact ⟨_, _, rfl, first, rest⟩
  · intro holds
    rcases holds with ⟨_, _, rfl, first, rest⟩
    exact .cons first rest

theorem spelledAll_append {spelling : Expr → List Token → Prop} {left right : List Piece}
    {tokens : List Token} :
    SpelledAll spelling (left ++ right) tokens ↔
      ∃ first others, tokens = first ++ others ∧ SpelledAll spelling left first ∧
        SpelledAll spelling right others := by
  induction left generalizing tokens with
  | nil => simp
  | cons piece pieces induction =>
      simp only [List.cons_append, spelledAll_cons, induction]
      constructor
      · intro holds
        rcases holds with ⟨first, _, rfl, spelled, second, others, rfl, more, rest⟩
        exact ⟨first ++ second, others, by simp, ⟨first, second, rfl, spelled, more⟩, rest⟩
      · intro holds
        rcases holds with ⟨_, others, rfl, ⟨first, second, rfl, spelled, more⟩, rest⟩
        exact ⟨first, second ++ others, by simp, spelled, second, others, rfl, more, rest⟩

theorem Spans.spelled {piece : Piece} {before after : TokenStream}
    (spans : piece.Spans before after) :
    ∃ tokens, before.Passed tokens after ∧ piece.Spelled Expr.Spells tokens := by
  cases spans with
  | sign breaks passed => exact ⟨_, passed, .sign breaks⟩
  | name breaks isName passed => exact ⟨_, passed, .name breaks isName⟩
  | expression accepted =>
      rcases Expr.spells_of_rule_accepted accepted with ⟨tokens, passed, spells⟩
      exact ⟨tokens, passed, .expression spells⟩

theorem SpanAll.spelled {pieces : List Piece} {before after : TokenStream}
    (spans : SpanAll pieces before after) :
    ∃ tokens, before.Passed tokens after ∧ SpelledAll Expr.Spells pieces tokens := by
  induction spans with
  | nil => exact ⟨[], .nothing _, .nil⟩
  | cons first _ induction =>
      rcases first.spelled with ⟨tokens, passed, firstSpelled⟩
      rcases induction with ⟨others, othersPassed, othersSpelled⟩
      exact ⟨_, passed.trans othersPassed, .cons firstSpelled othersSpelled⟩

theorem separated_cons (first : List Piece) (others : List (List Piece)) :
    separated (first :: others) = first ++ others.flatMap (.sign .comma :: ·) :=
  intercalate_cons _ first others

end Piece

/-- An instruction fills a line between two places of a text: its keyword, its pieces, and
a line terminator. -/
def Instruction.Spans (instruction : Instruction) (before after : TokenStream) : Prop :=
  ∃ word opened closed lineEnd, word.isWord instruction.kind = true ∧
    before.Passed [word] opened ∧ Piece.SpanAll instruction.pieces opened closed ∧
    lineEnd.kind = .newline ∧ closed.Passed [lineEnd] after

theorem Instruction.Spans.passed {instruction : Instruction} {before after : TokenStream}
    (spans : instruction.Spans before after) : ∃ tokens, before.Passed tokens after := by
  rcases spans with ⟨word, _, _, _, _, wordPassed, pieces, _, endPassed⟩
  rcases pieces.spelled with ⟨tokens, passed, _⟩
  exact ⟨_, (wordPassed.trans passed).trans endPassed⟩

/-! ## Rules for pieces -/

namespace Rule

variable {α : Type} {stream rest : TokenStream} {value : α}

theorem argument_accepted (kind : TokenKind) (notEnd : kind ≠ .endOfInput)
    (notBreak : kind ≠ .newline) {token : Token} :
    argument kind stream = .accepted token rest ↔
      token.kind = kind ∧ ∃ run, Breaks run ∧ stream.Passed (run ++ [token]) rest := by
  simp only [argument, bind_accepted, skipNewlines_accepted, expect_accepted notEnd]
  constructor
  · intro holds
    rcases holds with ⟨_, _, rfl, isSign, passed⟩
    rcases passed_skipNewlines stream with ⟨run, breaks, skipped⟩
    exact ⟨isSign, run, breaks, skipped.trans passed⟩
  · intro holds
    rcases holds with ⟨isSign, run, breaks, passed⟩
    rcases passed.split with ⟨middle, skipped, signPassed⟩
    have stops : middle.current.kind ≠ .newline := by
      rw [current_eq signPassed.ahead, isSign]
      exact notBreak
    exact ⟨(), middle, skipNewlines_eq breaks skipped stops, isSign, signPassed⟩

theorem argument_accepted_iff_spans (kind : TokenKind) (notEnd : kind ≠ .endOfInput)
    (notBreak : kind ≠ .newline) :
    (∃ token, argument kind stream = .accepted token rest) ↔
      (Piece.sign kind).Spans stream rest := by
  simp only [argument_accepted kind notEnd notBreak]
  constructor
  · intro holds
    rcases holds with ⟨token, rfl, run, breaks, passed⟩
    exact .sign breaks passed
  · intro spans
    cases spans with
    | sign breaks passed => exact ⟨_, rfl, _, breaks, passed⟩

theorem name_accepted {word : String} :
    name stream = .accepted word rest ↔ (Piece.name word).Spans stream rest := by
  simp only [name, bind_accepted, pure_accepted, argument_accepted .identifier
    (by decide) (by decide)]
  constructor
  · intro holds
    rcases holds with ⟨token, _, ⟨isName, run, breaks, passed⟩, rfl, rfl⟩
    exact .name breaks isName passed
  · intro spans
    cases spans with
    | name breaks isName passed => exact ⟨_, _, ⟨isName, _, breaks, passed⟩, rfl, rfl⟩

theorem expression_accepted {value : Expr} :
    Expr.rule stream = .accepted value rest ↔ (Piece.expression value).Spans stream rest := by
  constructor
  · intro accepted
    exact .expression accepted
  · intro spans
    cases spans with
    | expression accepted => exact accepted

/-! Sequences begin with pieces. -/

theorem sign_then_accepted (kind : TokenKind) (notEnd : kind ≠ .endOfInput)
    (notBreak : kind ≠ .newline) {next : Rule α} :
    (argument kind >>= fun _ => next) stream = .accepted value rest ↔
      ∃ middle, (Piece.sign kind).Spans stream middle ∧ next middle = .accepted value rest := by
  simp only [bind_accepted, ← argument_accepted_iff_spans kind notEnd notBreak]
  constructor
  · intro holds
    rcases holds with ⟨token, middle, sign, others⟩
    exact ⟨middle, ⟨token, sign⟩, others⟩
  · intro holds
    rcases holds with ⟨middle, ⟨token, sign⟩, others⟩
    exact ⟨token, middle, sign, others⟩

theorem comma_then_accepted {next : Unit → Rule α} :
    (comma >>= next) stream = .accepted value rest ↔
      ∃ middle, (Piece.sign .comma).Spans stream middle ∧
        next () middle = .accepted value rest := by
  rw [comma, bind_assoc, sign_then_accepted .comma (by decide) (by decide)]
  rfl

theorem name_then_accepted {next : String → Rule α} :
    (name >>= next) stream = .accepted value rest ↔
      ∃ word middle, (Piece.name word).Spans stream middle ∧
        next word middle = .accepted value rest := by
  simp only [bind_accepted, name_accepted]

theorem expression_then_accepted {next : Expr → Rule α} :
    (Expr.rule >>= next) stream = .accepted value rest ↔
      ∃ argument middle, (Piece.expression argument).Spans stream middle ∧
        next argument middle = .accepted value rest := by
  simp only [bind_accepted, expression_accepted]

theorem openArguments_then_accepted {keyword : String} {next : Unit → Rule α} :
    (openArguments keyword >>= next) stream = .accepted value rest ↔
      ∃ word opened middle, word.isWord keyword = true ∧ stream.Passed [word] opened ∧
        (Piece.sign .leftParen).Spans opened middle ∧ next () middle = .accepted value rest := by
  have unfolded : openArguments keyword >>= next =
      expectWord keyword >>= fun _ => argument .leftParen >>= fun _ => next () := by
    simp only [openArguments, argument, bind_assoc, pure_bind]
  simp only [unfolded, bind_accepted (expectWord keyword), expectWord_accepted,
    sign_then_accepted .leftParen (by decide) (by decide)]
  constructor
  · intro holds
    rcases holds with ⟨word, opened, ⟨isWord, passed⟩, middle, opening, others⟩
    exact ⟨word, opened, middle, isWord, passed, opening, others⟩
  · intro holds
    rcases holds with ⟨word, opened, middle, isWord, passed, opening, others⟩
    exact ⟨word, opened, ⟨isWord, passed⟩, middle, opening, others⟩

theorem closeArguments_then_accepted {result : α} :
    (closeArguments >>= fun _ => pure result) stream = .accepted value rest ↔
      result = value ∧ ∃ closed lineEnd, (Piece.sign .rightParen).Spans stream closed ∧
        lineEnd.kind = .newline ∧ closed.Passed [lineEnd] rest := by
  have unfolded : (closeArguments >>= fun _ => pure result) =
      argument .rightParen >>= fun _ => expectEndOfLine >>= fun _ => (pure result : Rule α) := by
    simp only [closeArguments, argument, bind_assoc, pure_bind]
  simp only [unfolded, sign_then_accepted .rightParen (by decide) (by decide),
    bind_accepted, expectEndOfLine_accepted, pure_accepted]
  constructor
  · intro holds
    rcases holds with ⟨closed, closing, lineEnd, _, ⟨isEnd, passed⟩, same, rfl⟩
    exact ⟨same, closed, lineEnd, closing, isEnd, passed⟩
  · intro holds
    rcases holds with ⟨same, closed, lineEnd, closing, isEnd, passed⟩
    exact ⟨closed, closing, lineEnd, rest, ⟨isEnd, passed⟩, same, rfl⟩

/-! ## Rules for choices -/

theorem choice_accepted {choice : Choice} :
    Rule.choice stream = .accepted choice rest ↔ Piece.SpanAll choice.pieces stream rest := by
  simp only [Rule.choice, sign_then_accepted .leftParen (by decide) (by decide),
    name_then_accepted, comma_then_accepted, pure_accepted,
    sign_then_accepted .rightParen (by decide) (by decide), Choice.pieces,
    Piece.spanAll_cons, Piece.spanAll_nil]
  constructor
  · intro holds
    rcases holds with
      ⟨_, opening, label, _, first, _, comma, target, _, second, _, closing, rfl, rfl⟩
    exact ⟨_, opening, _, first, _, comma, _, second, _, closing, rfl⟩
  · intro holds
    rcases holds with ⟨_, opening, _, first, _, comma, _, second, _, closing, rfl⟩
    exact ⟨_, opening, _, _, first, _, comma, _, _, second, _, closing, rfl, rfl⟩

theorem spans_sign_iff (kind : TokenKind) (notEnd : kind ≠ .endOfInput)
    (notBreak : kind ≠ .newline) :
    (Piece.sign kind).Spans stream rest ↔
      stream.skipNewlines.current.kind = kind ∧ stream.skipNewlines.advance = rest := by
  rw [← argument_accepted_iff_spans kind notEnd notBreak]
  simp [argument, bind_accepted, skipNewlines_accepted, expect, token_accepted]

theorem moreChoices_accepted {choices : List Choice} :
    moreChoices stream = .accepted choices rest ↔
      (choices = [] ∧ stream.skipNewlines.current.kind ≠ .comma ∧ stream.skipNewlines = rest) ∨
      ∃ first others opened middle, choices = first :: others ∧
        (Piece.sign .comma).Spans stream opened ∧ Piece.SpanAll first.pieces opened middle ∧
        moreChoices middle = .accepted others rest := by
  simp only [spans_sign_iff .comma (by decide) (by decide), ← choice_accepted]
  rw [moreChoices.eq_def]
  by_cases isComma : stream.skipNewlines.current.kind = .comma
  · simp only [isComma, dite_true]
    constructor
    · intro accepted
      split at accepted
      · contradiction
      · next first middle next =>
          split at accepted
          · contradiction
          · next others last reached =>
              injection accepted with sameChoices sameRest
              subst sameRest
              exact .inr ⟨first, others, _, middle, sameChoices.symm, ⟨trivial, rfl⟩, next, reached⟩
    · intro holds
      rcases holds with
        ⟨_, notComma, _⟩ | ⟨first, others, _, middle, rfl, ⟨_, rfl⟩, next, reached⟩
      · exact absurd rfl notComma
      · split
        · next refused =>
            rw [next] at refused
            contradiction
        · next first' middle' accepted =>
            rw [next] at accepted
            injection accepted with sameFirst sameMiddle
            subst sameFirst sameMiddle
            rw [reached]
  · simp only [isComma, dite_false, Reply.accepted.injEq]
    constructor
    · intro holds
      rcases holds with ⟨rfl, rfl⟩
      exact .inl ⟨rfl, isComma, rfl⟩
    · intro holds
      rcases holds with ⟨rfl, _, same⟩ | ⟨_, _, _, _, _, ⟨isFalse, _⟩, _⟩
      · exact ⟨rfl, same⟩
      · contradiction

theorem moreChoices_closed {choices : List Choice} :
    (∃ middle, moreChoices stream = .accepted choices middle ∧
        (Piece.sign .rightBracket).Spans middle rest) ↔
      Piece.SpanAll (choices.flatMap (fun choice => .sign .comma :: choice.pieces) ++
        [.sign .rightBracket]) stream rest := by
  induction choices generalizing stream with
  | nil =>
      have again : stream.skipNewlines.skipNewlines = stream.skipNewlines :=
        skipNewlines_eq breaks_nil (.nothing _) stream.current_skipNewlines
      simp only [List.flatMap_nil, List.nil_append, Piece.spanAll_cons, Piece.spanAll_nil,
        exists_eq_right, spans_sign_iff .rightBracket (by decide) (by decide)]
      constructor
      · intro holds
        rcases holds with ⟨last, accepted, closing⟩
        rcases moreChoices_accepted.1 accepted with ⟨_, _, rfl⟩ | ⟨_, _, _, _, isFalse, _⟩
        · rwa [again] at closing
        · contradiction
      · intro closing
        refine ⟨_, moreChoices_accepted.2 (.inl ⟨rfl, by simp [closing.1], rfl⟩), ?_⟩
        rwa [again]
  | cons first others induction =>
      simp only [List.flatMap_cons, List.cons_append, List.append_assoc, Piece.spanAll_cons,
        Piece.spanAll_append, ← induction]
      constructor
      · intro holds
        rcases holds with ⟨last, accepted, closing⟩
        rcases moreChoices_accepted.1 accepted with
          ⟨isFalse, _⟩ | ⟨_, _, opened, middle, same, comma, choice, reached⟩
        · contradiction
        · injection same with sameFirst sameOthers
          subst sameFirst sameOthers
          exact ⟨opened, comma, middle, choice, last, reached, closing⟩
      · intro holds
        rcases holds with ⟨opened, comma, middle, choice, last, reached, closing⟩
        exact ⟨last, moreChoices_accepted.2
          (.inr ⟨first, others, opened, middle, rfl, comma, choice, reached⟩), closing⟩

/-! ## Instruction forms -/

def form (keyword : String) (inside : Rule Instruction) : Rule Instruction := do
  openArguments keyword
  let instruction ← inside
  closeArguments
  return instruction

structure ReadsArguments (inside : Rule Instruction) (keyword : String)
    (shape : Instruction → Prop) : Prop where
  kind : ∀ instruction, shape instruction → instruction.kind = keyword
  accepted : ∀ instruction before after, inside before = .accepted instruction after ↔
    shape instruction ∧
      Piece.SpanAll (Piece.separated (instruction.arguments.map Argument.pieces)) before after

theorem form_accepted {inside : Rule Instruction} {keyword : String}
    {shape : Instruction → Prop} (reads : ReadsArguments inside keyword shape)
    {instruction : Instruction} :
    form keyword inside stream = .accepted instruction rest ↔
      shape instruction ∧ instruction.Spans stream rest := by
  simp only [form, openArguments_then_accepted, bind_accepted inside,
    closeArguments_then_accepted, reads.accepted, Instruction.Spans, Instruction.pieces,
    Piece.spanAll_cons, Piece.spanAll_append, Piece.spanAll_nil]
  constructor
  · intro holds
    rcases holds with ⟨word, opened, _, isWord, passed, opening, _, _, ⟨shaped, arguments⟩, rfl,
      closed, lineEnd, closing, isEnd, ended⟩
    exact ⟨shaped, word, opened, closed, lineEnd, (reads.kind _ shaped).symm ▸ isWord, passed,
      ⟨_, opening, _, arguments, closed, closing, rfl⟩, isEnd, ended⟩
  · intro holds
    rcases holds with ⟨shaped, word, opened, closed, lineEnd, isWord, passed,
      ⟨_, opening, _, arguments, _, closing, rfl⟩, isEnd, ended⟩
    exact ⟨word, opened, _, reads.kind _ shaped ▸ isWord, passed, opening, _, _,
      ⟨shaped, arguments⟩, rfl, _, lineEnd, closing, isEnd, ended⟩

def ofName (make : String → Instruction) : Rule Instruction := do
  let word ← name
  return make word

theorem readsArguments_ofName {keyword : String} (make : String → Instruction)
    (kind : ∀ word, (make word).kind = keyword)
    (arguments : ∀ word, (make word).arguments = [.name word]) :
    ReadsArguments (ofName make) keyword (fun instruction => ∃ word, instruction = make word) where
  kind := by
    intro _ shape
    rcases shape with ⟨word, rfl⟩
    exact kind word
  accepted instruction before after := by
    simp only [ofName, name_then_accepted, pure_accepted]
    constructor
    · intro holds
      rcases holds with ⟨word, _, spans, rfl, rfl⟩
      refine ⟨⟨word, rfl⟩, ?_⟩
      simpa [arguments, Argument.pieces, Piece.separated] using spans
    · intro holds
      rcases holds with ⟨⟨word, rfl⟩, spans⟩
      refine ⟨word, after, ?_, rfl, rfl⟩
      simpa [arguments, Argument.pieces, Piece.separated] using spans

def ofNameAndExpression (make : String → Expr → Instruction) : Rule Instruction := do
  let word ← name
  comma
  let value ← Expr.rule
  return make word value

theorem readsArguments_ofNameAndExpression {keyword : String}
    (make : String → Expr → Instruction) (kind : ∀ word value, (make word value).kind = keyword)
    (arguments : ∀ word value, (make word value).arguments = [.name word, .expression value]) :
    ReadsArguments (ofNameAndExpression make) keyword
      (fun instruction => ∃ word value, instruction = make word value) where
  kind := by
    intro _ shape
    rcases shape with ⟨word, value, rfl⟩
    exact kind word value
  accepted instruction before after := by
    simp only [ofNameAndExpression, name_then_accepted, comma_then_accepted,
      expression_then_accepted, pure_accepted]
    constructor
    · intro holds
      rcases holds with ⟨word, _, first, _, comma, value, _, second, rfl, rfl⟩
      refine ⟨⟨word, value, rfl⟩, ?_⟩
      simp only [arguments, List.map_cons, List.map_nil, Piece.separated_cons, Argument.pieces]
      simpa using ⟨_, first, _, comma, second⟩
    · intro holds
      rcases holds with ⟨⟨word, value, rfl⟩, spans⟩
      simp only [arguments, List.map_cons, List.map_nil, Piece.separated_cons, Argument.pieces]
        at spans
      simp only [List.flatMap_cons, List.flatMap_nil, List.append_nil, List.cons_append,
        List.nil_append, Piece.spanAll_cons, Piece.spanAll_nil, exists_eq_right] at spans
      rcases spans with ⟨_, first, _, comma, second⟩
      exact ⟨word, _, first, _, comma, value, _, second, rfl, rfl⟩

def ofExpression (make : Expr → Instruction) : Rule Instruction := do
  let value ← Expr.rule
  return make value

theorem readsArguments_ofExpression :
    ReadsArguments (ofExpression .receiveMoney) "receive_money"
      (fun instruction => ∃ amount, instruction = .receiveMoney amount) where
  kind := by
    intro _ shape
    rcases shape with ⟨amount, rfl⟩
    rfl
  accepted instruction before after := by
    simp only [ofExpression, expression_then_accepted, pure_accepted]
    constructor
    · intro holds
      rcases holds with ⟨amount, _, spans, rfl, rfl⟩
      refine ⟨⟨amount, rfl⟩, ?_⟩
      simpa [Instruction.arguments, Argument.pieces, Piece.separated] using spans
    · intro holds
      rcases holds with ⟨⟨amount, rfl⟩, spans⟩
      refine ⟨amount, after, ?_, rfl, rfl⟩
      simpa [Instruction.arguments, Argument.pieces, Piece.separated] using spans

theorem pieces_talkWithChoices (textId : String) (first : Choice) (others : List Choice) :
    Piece.separated ((Instruction.talk textId (first :: others)).arguments.map Argument.pieces) =
      .name textId :: .sign .comma :: .sign .leftBracket :: (first.pieces ++
        (others.flatMap (fun choice => .sign .comma :: choice.pieces) ++
          [.sign .rightBracket])) := by
  simp [Instruction.arguments, Argument.pieces, Piece.separated_cons, List.flatMap_map]

def ofChoices : Rule Instruction := do
  let textId ← name
  comma
  let _ ← argument .leftBracket
  let first ← Rule.choice
  let others ← moreChoices
  let _ ← argument .rightBracket
  return .talk textId (first :: others)

theorem readsArguments_ofChoices : ReadsArguments ofChoices "talk"
    (fun instruction => ∃ textId first others, instruction = .talk textId (first :: others)) where
  kind := by
    intro _ shape
    rcases shape with ⟨textId, first, others, rfl⟩
    rfl
  accepted instruction before after := by
    simp only [ofChoices, name_then_accepted, comma_then_accepted, pure_accepted,
      sign_then_accepted .leftBracket (by decide) (by decide),
      sign_then_accepted .rightBracket (by decide) (by decide),
      bind_accepted Rule.choice, bind_accepted moreChoices, choice_accepted]
    constructor
    · intro holds
      rcases holds with ⟨textId, _, word, _, comma, _, opening, first, _, choice, others, _, more,
        _, closing, rfl, rfl⟩
      refine ⟨⟨textId, first, others, rfl⟩, ?_⟩
      simp only [pieces_talkWithChoices, Piece.spanAll_cons]
      exact ⟨_, word, _, comma, _, opening,
        Piece.spanAll_append.2 ⟨_, choice, moreChoices_closed.1 ⟨_, more, closing⟩⟩⟩
    · intro holds
      rcases holds with ⟨⟨textId, first, others, rfl⟩, spans⟩
      rw [pieces_talkWithChoices, Piece.spanAll_cons] at spans
      rcases spans with ⟨_, word, spans⟩
      simp only [Piece.spanAll_cons] at spans
      rcases spans with ⟨_, comma, _, opening, spans⟩
      rcases Piece.spanAll_append.1 spans with ⟨_, choice, spans⟩
      rcases moreChoices_closed.2 spans with ⟨_, more, closing⟩
      exact ⟨textId, _, word, _, comma, _, opening, first, _, choice, others, _, more, _, closing,
        rfl, rfl⟩

def behaviour (symbol : Token) : Rule Instruction :=
  match Special.ofSymbol? symbol.value with
  | none => refuse ⟨.unknownSpecial, symbol⟩
  | some behaviour => pure (.special behaviour)

theorem ofSymbol?_eq_some {symbol : String} {behaviour : Special} :
    Special.ofSymbol? symbol = some behaviour ↔ behaviour.symbol = symbol := by
  constructor
  · intro found
    simpa using List.find?_some found
  · intro same
    subst same
    cases behaviour <;> rfl

def ofSymbol : Rule Instruction :=
  argument .identifier >>= Rule.behaviour

theorem readsArguments_ofSymbol : ReadsArguments ofSymbol "special"
    (fun instruction => ∃ behaviour, instruction = .special behaviour) where
  kind := by
    intro _ shape
    rcases shape with ⟨behaviour, rfl⟩
    rfl
  accepted instruction before after := by
    have reading : ∀ symbol : Token, ∀ stream : TokenStream,
        Rule.behaviour symbol stream = .accepted instruction after ↔
          ∃ known : Special, known.symbol = symbol.value ∧ .special known = instruction ∧
            stream = after := by
      intro symbol stream
      simp only [Rule.behaviour, ← ofSymbol?_eq_some]
      cases Special.ofSymbol? symbol.value with
      | none => simp [refuse]
      | some known => simp [pure_accepted]
    simp only [ofSymbol, bind_accepted, reading,
      argument_accepted .identifier (by decide) (by decide)]
    constructor
    · intro holds
      rcases holds with ⟨symbol, _, ⟨isName, run, breaks, passed⟩, known, same, rfl, rfl⟩
      refine ⟨⟨known, rfl⟩, ?_⟩
      have spans := Piece.Spans.name breaks isName passed
      simpa [Instruction.arguments, Argument.pieces, Piece.separated, same] using spans
    · intro holds
      rcases holds with ⟨⟨known, rfl⟩, spans⟩
      simp only [Instruction.arguments, List.map_cons, List.map_nil, Argument.pieces,
        Piece.separated_cons, List.flatMap_nil, List.append_nil, Piece.spanAll_cons,
        Piece.spanAll_nil, exists_eq_right] at spans
      rw [← name_accepted] at spans
      simp only [name, bind_accepted, pure_accepted,
        argument_accepted .identifier (by decide) (by decide)] at spans
      rcases spans with ⟨symbol, _, stands, same, rfl⟩
      exact ⟨symbol, _, stands, known, same.symm, rfl, rfl⟩

/-! ## All forms -/

theorem jump_eq_form : jump = form "jump" (ofName .jump) := by
  simp only [jump, form, ofName, bind_assoc, pure_bind]

theorem jumpIf_eq_form : jumpIf = form "jump_if" (ofNameAndExpression .jumpIf) := by
  simp only [jumpIf, form, ofNameAndExpression, bind_assoc, pure_bind]

theorem talkWithChoices_eq_form : talkWithChoices = form "talk" ofChoices := by
  -- A recursive rule is not seen to be one of the monad.
  have assoc : ∀ (next : List Choice → Rule Instruction) (last : Instruction → Rule Instruction),
      (bind (m := Rule) moreChoices next) >>= last =
        bind (m := Rule) moreChoices fun others => next others >>= last :=
    bind_assoc (m := Rule) moreChoices
  simp only [talkWithChoices, form, ofChoices, bind_assoc, assoc, pure_bind]

theorem talk_eq_form : talk = form "talk" (ofName (.talk · [])) := by
  simp only [talk, form, ofName, bind_assoc, pure_bind]

theorem assign_eq_form : assign = form "gset" (ofNameAndExpression .assign) := by
  simp only [assign, form, ofNameAndExpression, bind_assoc, pure_bind]

theorem receiveMoney_eq_form : receiveMoney = form "receive_money" (ofExpression .receiveMoney) := by
  simp only [receiveMoney, form, ofExpression, bind_assoc, pure_bind]

theorem removeItem_eq_form : removeItem = form "remove_item" (ofName .removeItem) := by
  simp only [removeItem, form, ofName, bind_assoc, pure_bind]

theorem special_eq_form : special = form "special" ofSymbol := by
  rw [special, form, ofSymbol, bind_assoc]
  apply congrArg (openArguments "special" >>= ·)
  funext _
  apply congrArg (argument .identifier >>= ·)
  funext symbol
  unfold Rule.behaviour
  cases Special.ofSymbol? symbol.value <;> rfl

def formOf : Instruction → Rule Instruction
  | .jump _ => jump
  | .jumpIf _ _ => jumpIf
  | .talk _ [] => talk
  | .talk _ (_ :: _) => talkWithChoices
  | .assign _ _ => assign
  | .receiveMoney _ => receiveMoney
  | .removeItem _ => removeItem
  | .special _ => special

theorem formOf_mem (instruction : Instruction) : formOf instruction ∈ instructionForms := by
  cases instruction with
  | talk textId choices => cases choices <;> simp [formOf, instructionForms]
  | _ => simp [formOf, instructionForms]

theorem jump_accepted {instruction : Instruction} :
    jump stream = .accepted instruction rest ↔
      (∃ target, instruction = .jump target) ∧ instruction.Spans stream rest := by
  rw [jump_eq_form]
  exact form_accepted (readsArguments_ofName .jump (fun _ => rfl) (fun _ => rfl))

theorem jumpIf_accepted {instruction : Instruction} :
    jumpIf stream = .accepted instruction rest ↔
      (∃ target condition, instruction = .jumpIf target condition) ∧
        instruction.Spans stream rest := by
  rw [jumpIf_eq_form]
  exact form_accepted
    (readsArguments_ofNameAndExpression .jumpIf (fun _ _ => rfl) (fun _ _ => rfl))

theorem talkWithChoices_accepted {instruction : Instruction} :
    talkWithChoices stream = .accepted instruction rest ↔
      (∃ textId first others, instruction = .talk textId (first :: others)) ∧
        instruction.Spans stream rest := by
  rw [talkWithChoices_eq_form]
  exact form_accepted readsArguments_ofChoices

theorem talk_accepted {instruction : Instruction} :
    talk stream = .accepted instruction rest ↔
      (∃ textId, instruction = .talk textId []) ∧ instruction.Spans stream rest := by
  rw [talk_eq_form]
  exact form_accepted (readsArguments_ofName (.talk · []) (fun _ => rfl) (fun _ => rfl))

theorem assign_accepted {instruction : Instruction} :
    assign stream = .accepted instruction rest ↔
      (∃ name value, instruction = .assign name value) ∧ instruction.Spans stream rest := by
  rw [assign_eq_form]
  exact form_accepted
    (readsArguments_ofNameAndExpression .assign (fun _ _ => rfl) (fun _ _ => rfl))

theorem receiveMoney_accepted {instruction : Instruction} :
    receiveMoney stream = .accepted instruction rest ↔
      (∃ amount, instruction = .receiveMoney amount) ∧ instruction.Spans stream rest := by
  rw [receiveMoney_eq_form]
  exact form_accepted readsArguments_ofExpression

theorem removeItem_accepted {instruction : Instruction} :
    removeItem stream = .accepted instruction rest ↔
      (∃ item, instruction = .removeItem item) ∧ instruction.Spans stream rest := by
  rw [removeItem_eq_form]
  exact form_accepted (readsArguments_ofName .removeItem (fun _ => rfl) (fun _ => rfl))

theorem special_accepted {instruction : Instruction} :
    special stream = .accepted instruction rest ↔
      (∃ behaviour, instruction = .special behaviour) ∧ instruction.Spans stream rest := by
  rw [special_eq_form]
  exact form_accepted readsArguments_ofSymbol

theorem spans_of_accepted {rule : Rule Instruction} (listed : rule ∈ instructionForms)
    {instruction : Instruction} (accepted : rule stream = .accepted instruction rest) :
    instruction.Spans stream rest := by
  simp only [instructionForms, List.mem_cons, List.not_mem_nil, or_false] at listed
  rcases listed with rfl | rfl | rfl | rfl | rfl | rfl | rfl | rfl
  · exact (jump_accepted.1 accepted).2
  · exact (jumpIf_accepted.1 accepted).2
  · exact (talkWithChoices_accepted.1 accepted).2
  · exact (talk_accepted.1 accepted).2
  · exact (assign_accepted.1 accepted).2
  · exact (receiveMoney_accepted.1 accepted).2
  · exact (removeItem_accepted.1 accepted).2
  · exact (special_accepted.1 accepted).2

theorem formOf_accepted {instruction : Instruction} :
    formOf instruction stream = .accepted instruction rest ↔ instruction.Spans stream rest := by
  constructor
  · exact spans_of_accepted (formOf_mem instruction)
  · intro spans
    cases instruction with
    | jump target => exact jump_accepted.2 ⟨⟨_, rfl⟩, spans⟩
    | jumpIf target condition => exact jumpIf_accepted.2 ⟨⟨_, _, rfl⟩, spans⟩
    | talk textId choices =>
        cases choices with
        | nil => exact talk_accepted.2 ⟨⟨_, rfl⟩, spans⟩
        | cons first others => exact talkWithChoices_accepted.2 ⟨⟨_, _, _, rfl⟩, spans⟩
    | assign name value => exact assign_accepted.2 ⟨⟨_, _, rfl⟩, spans⟩
    | receiveMoney amount => exact receiveMoney_accepted.2 ⟨⟨_, rfl⟩, spans⟩
    | removeItem item => exact removeItem_accepted.2 ⟨⟨_, rfl⟩, spans⟩
    | special behaviour => exact special_accepted.2 ⟨⟨_, rfl⟩, spans⟩

/-! ## Keywords -/

theorem openArguments_accepted {keyword : String} :
    openArguments keyword stream = .accepted () rest ↔
      ∃ word opened, word.isWord keyword = true ∧ stream.Passed [word] opened ∧
        (Piece.sign .leftParen).Spans opened rest := by
  have whole := @openArguments_then_accepted Unit stream rest () keyword pure
  rw [bind_pure] at whole
  simpa [pure_accepted] using whole

theorem form_refused {keyword : String} {inside : Rule Instruction}
    (other : stream.current.isWord keyword = false) :
    form keyword inside stream = .refused ⟨.expectedWord keyword, stream.current⟩ stream := by
  simp [form, openArguments, expectWord, token, bind_apply, other]

def insideOf : Instruction → Rule Instruction
  | .jump _ => ofName .jump
  | .jumpIf _ _ => ofNameAndExpression .jumpIf
  | .talk _ [] => ofName (.talk · [])
  | .talk _ (_ :: _) => ofChoices
  | .assign _ _ => ofNameAndExpression .assign
  | .receiveMoney _ => ofExpression .receiveMoney
  | .removeItem _ => ofName .removeItem
  | .special _ => ofSymbol

theorem formOf_eq_form (instruction : Instruction) :
    formOf instruction = form instruction.kind (insideOf instruction) := by
  cases instruction with
  | jump target => exact jump_eq_form
  | jumpIf target condition => exact jumpIf_eq_form
  | talk textId choices =>
      cases choices with
      | nil => exact talk_eq_form
      | cons first others => exact talkWithChoices_eq_form
  | assign name value => exact assign_eq_form
  | receiveMoney amount => exact receiveMoney_eq_form
  | removeItem item => exact removeItem_eq_form
  | special behaviour => exact special_eq_form

theorem exists_formOf_of_mem {rule : Rule Instruction} (listed : rule ∈ instructionForms) :
    ∃ instruction, rule = formOf instruction := by
  simp only [instructionForms, List.mem_cons, List.not_mem_nil, or_false] at listed
  rcases listed with rfl | rfl | rfl | rfl | rfl | rfl | rfl | rfl
  · exact ⟨.jump "", rfl⟩
  · exact ⟨.jumpIf "" (.global ""), rfl⟩
  · exact ⟨.talk "" [⟨"", ""⟩], rfl⟩
  · exact ⟨.talk "" [], rfl⟩
  · exact ⟨.assign "" (.global ""), rfl⟩
  · exact ⟨.receiveMoney (.global ""), rfl⟩
  · exact ⟨.removeItem "", rfl⟩
  · exact ⟨.special .shopBuy, rfl⟩

end Rule

end EventScript
