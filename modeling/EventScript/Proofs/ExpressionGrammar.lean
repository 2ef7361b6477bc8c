import EventScript.Proofs.ExpressionReading
import EventScript.Proofs.Lexing

/-! The grammar of expressions, as derivations of token lists. The levels accept what the
grammar derives, and whatever they accept is derived, line terminators aside. -/

namespace EventScript

namespace Expr

open TokenStream

/-! ## Derivations -/

def reserved : List String :=
  ["true", "false", "and", "or", "not"]

/-- The expressions that token lists without line terminators spell at each level. -/
inductive Derives : Level → List Token → Expr → Prop
  | integer {token : Token} (isInteger : token.kind = .integer)
      (short : token.value.length ≤ Text.Decimal.maxDigits) :
      Derives .operand [token] (.literal (.integer (Text.Decimal.toNat token.value.toList)))
  | text {token : Token} (isText : token.kind = .string) :
      Derives .operand [token] (.literal (.text token.value))
  | truth {token : Token} (isTrue : token.isWord "true" = true) :
      Derives .operand [token] (.literal (.boolean true))
  | falsity {token : Token} (isFalse : token.isWord "false" = true) :
      Derives .operand [token] (.literal (.boolean false))
  | global {token : Token} (isName : token.kind = .identifier)
      (free : token.value ∉ reserved) :
      Derives .operand [token] (.global token.value)
  | question {word opening item closing : Token} (asks : word.isWord "has_item" = true)
      (opens : opening.kind = .leftParen) (isName : item.kind = .identifier)
      (closes : closing.kind = .rightParen) :
      Derives .operand [word, opening, item, closing] (.hasItem item.value)
  | enclosed {opening closing : Token} {inside : List Token} {value : Expr}
      (opens : opening.kind = .leftParen) (derived : Derives .disjunction inside value)
      (closes : closing.kind = .rightParen) :
      Derives .operand (opening :: (inside ++ [closing])) value
  | negative {sign : Token} {operand : List Token} {value : Expr} (signs : sign.kind = .minus)
      (derived : Derives .sign operand value) :
      Derives .sign (sign :: operand) (.unary .negate value)
  | denied {word : Token} {operand : List Token} {value : Expr}
      (denies : word.isWord "not" = true) (derived : Derives .negation operand value) :
      Derives .negation (word :: operand) (.unary .not value)
  | compared {left right : List Token} {sign : Token} {op : BinaryOp} {first second : Expr}
      (leftDerived : Derives .sum left first)
      (operator : sign.binaryOpAt? .comparison = some op)
      (rightDerived : Derives .sum right second) :
      Derives .comparison (left ++ sign :: right) (.binary op first second)
  | joined {level : Level} {left right : List Token} {sign : Token} {op : BinaryOp}
      {first second : Expr} (repeats : level ≠ .comparison)
      (leftDerived : Derives level left first)
      (operator : sign.binaryOpAt? level = some op)
      (rightDerived : Derives level.tighter right second) :
      Derives level (left ++ sign :: right) (.binary op first second)
  | tighter {level : Level} {tokens : List Token} {value : Expr}
      (derived : Derives level.tighter tokens value) : Derives level tokens value

/-! ## Operators -/

theorem binaryOpAt?_eq_some {token : Token} {level : Level} {op : BinaryOp} :
    token.binaryOpAt? level = some op ↔ token.binaryOp? = some op ∧ op.level = level := by
  simp [Token.binaryOpAt?, Option.filter_eq_some_iff]

theorem binaryOpAt?_eq_none {level : Level} (noOperators : ∀ op : BinaryOp, op.level ≠ level)
    (token : Token) : token.binaryOpAt? level = none := by
  cases found : token.binaryOpAt? level with
  | none => rfl
  | some op => exact absurd (binaryOpAt?_eq_some.1 found).2 (noOperators op)

theorem level_ne_operand (op : BinaryOp) : op.level ≠ .operand := by
  cases op <;> decide

theorem level_ne_sign (op : BinaryOp) : op.level ≠ .sign := by
  cases op <;> decide

theorem level_ne_negation (op : BinaryOp) : op.level ≠ .negation := by
  cases op <;> decide

theorem kind_of_binaryOp? {token : Token} {op : BinaryOp} (found : token.binaryOp? = some op) :
    token.kind ≠ .newline ∧ token.kind ≠ .sectionMarker ∧ token.kind ≠ .leftParen ∧
      token.kind ≠ .rightParen ∧ token.isWord "not" = false := by
  unfold Token.binaryOp? at found
  split at found <;> simp_all [Token.isWord]
  split at found
  · simp_all
  · split at found <;> simp_all

/-! ## The tokens of derivations -/

theorem kind_of_derives {level : Level} {tokens : List Token} {value : Expr}
    (derived : Derives level tokens value) :
    ∀ token ∈ tokens, token.kind ≠ .newline ∧ token.kind ≠ .sectionMarker := by
  induction derived with
  | integer isInteger => simp [isInteger]
  | text isText => simp [isText]
  | truth isTrue => simp [(kind_of_isWord isTrue).1]
  | falsity isFalse => simp [(kind_of_isWord isFalse).1]
  | global isName => simp [isName]
  | question asks opens isName closes =>
      simp [(kind_of_isWord asks).1, opens, isName, closes]
  | enclosed opens _ closes induction =>
      intro token member
      simp only [List.mem_cons, List.mem_append, List.not_mem_nil, or_false] at member
      rcases member with rfl | inside | rfl
      · simp [opens]
      · exact induction token inside
      · simp [closes]
  | negative signs _ induction => simpa [signs] using induction
  | denied denies _ induction => simpa [(kind_of_isWord denies).1] using induction
  | compared _ operator _ leftInduction rightInduction =>
      have kind := kind_of_binaryOp? (binaryOpAt?_eq_some.1 operator).1
      exact List.forall_mem_append.2
        ⟨leftInduction, List.forall_mem_cons.2 ⟨⟨kind.1, kind.2.1⟩, rightInduction⟩⟩
  | joined _ _ operator _ leftInduction rightInduction =>
      have kind := kind_of_binaryOp? (binaryOpAt?_eq_some.1 operator).1
      exact List.forall_mem_append.2
        ⟨leftInduction, List.forall_mem_cons.2 ⟨⟨kind.1, kind.2.1⟩, rightInduction⟩⟩
  | tighter _ induction => exact induction

theorem head_of_derives {level : Level} {tokens : List Token} {value : Expr}
    (derived : Derives level tokens value) :
    ∃ token rest, tokens = token :: rest ∧ (level = .operand → token.kind ≠ .minus) ∧
      (level.rank < Level.negation.rank → token.isWord "not" = false) := by
  induction derived with
  | integer isInteger => exact ⟨_, _, rfl, by simp [isInteger], by simp [Token.isWord, isInteger]⟩
  | text isText => exact ⟨_, _, rfl, by simp [isText], by simp [Token.isWord, isText]⟩
  | truth isTrue =>
      have word := kind_of_isWord isTrue
      exact ⟨_, _, rfl, by simp [word.1], by simp [Token.isWord, word.2]⟩
  | falsity isFalse =>
      have word := kind_of_isWord isFalse
      exact ⟨_, _, rfl, by simp [word.1], by simp [Token.isWord, word.2]⟩
  | global isName free =>
      refine ⟨_, _, rfl, by simp [isName], fun _ => ?_⟩
      rw [Bool.eq_false_iff]
      intro denies
      exact free (by simp [reserved, (kind_of_isWord denies).2])
  | question asks =>
      have word := kind_of_isWord asks
      exact ⟨_, _, rfl, by simp [word.1], by simp [Token.isWord, word.2]⟩
  | enclosed opens => exact ⟨_, _, rfl, by simp [opens], by simp [Token.isWord, opens]⟩
  | negative signs => exact ⟨_, _, rfl, by simp, by simp [Token.isWord, signs]⟩
  | denied => exact ⟨_, _, rfl, by simp, by simp⟩
  | compared _ _ _ leftInduction _ =>
      rcases leftInduction with ⟨token, rest, rfl, _, undenied⟩
      exact ⟨token, _, rfl, by simp, fun _ => undenied (by decide)⟩
  | joined _ _ operator _ leftInduction _ =>
      rcases leftInduction with ⟨token, rest, rfl, unsigned, undenied⟩
      exact ⟨token, _, rfl, unsigned, undenied⟩
  | @tighter level _ _ _ induction =>
      rcases induction with ⟨token, rest, rfl, unsigned, undenied⟩
      refine ⟨token, rest, rfl, fun last => unsigned (by rw [last]; rfl), fun below => undenied ?_⟩
      by_cases last : level = .operand
      · subst last
        exact below
      · exact Nat.lt_trans (Level.rank_tighter_lt last) below

/-! ## Line terminators -/

def spoken (tokens : List Token) : List Token :=
  tokens.filter (·.kind != .newline)

theorem spoken_append (first second : List Token) :
    spoken (first ++ second) = spoken first ++ spoken second :=
  List.filter_append ..

theorem spoken_eq_nil {run : List Token} (breaks : Breaks run) : spoken run = [] := by
  rw [spoken, List.filter_eq_nil_iff]
  intro token member
  simp [breaks token member]

theorem spoken_eq_self {tokens : List Token} (unbroken : ∀ token ∈ tokens, token.kind ≠ .newline) :
    spoken tokens = tokens := by
  rw [spoken, List.filter_eq_self]
  intro token member
  simp [unbroken token member]

/-- Tokens with line terminators behind any of them, except that the word of a question has
its parenthesis right behind it. -/
inductive Spread : List Token → List Token → Prop
  | nil : Spread [] []
  | cons {token : Token} {run tokens lines : List Token} (breaks : Breaks run)
      (unbroken : token.isWord "has_item" = true →
        (∃ opening ∈ tokens.head?, opening.kind = .leftParen) → run = [])
      (others : Spread tokens lines) : Spread (token :: tokens) (token :: (run ++ lines))

namespace Spread

variable {first second lines others : List Token}

theorem self (tokens : List Token) : Spread tokens tokens := by
  induction tokens with
  | nil => exact .nil
  | cons token tokens induction => exact .cons breaks_nil (fun _ _ => rfl) induction

theorem append (left : Spread first lines) (right : Spread second others)
    (apart : ∀ token ∈ second.head?, token.kind ≠ .leftParen) :
    Spread (first ++ second) (lines ++ others) := by
  induction left with
  | nil => exact right
  | @cons token run tokens lines breaks unbroken _ induction =>
      have whole : Spread (token :: (tokens ++ second)) (token :: (run ++ (lines ++ others))) := by
        refine .cons breaks (fun asks opened => ?_) induction
        cases tokens with
        | nil =>
            rcases opened with ⟨opening, head, opens⟩
            exact absurd opens (apart opening head)
        | cons next more => exact unbroken asks opened
      simpa using whole

theorem append_breaks {token : Token} (spread : Spread (token :: first) lines) {run : List Token}
    (breaks : Breaks run) : Spread (token :: first) (lines ++ run) := by
  induction first generalizing token lines with
  | nil =>
      cases spread with
      | @cons _ front _ _ frontBreaks _ others =>
          cases others with
          | nil =>
              have whole : Spread [token] (token :: ((front ++ run) ++ [])) :=
                .cons (List.forall_mem_append.2 ⟨frontBreaks, breaks⟩) (by simp) .nil
              simpa using whole
  | cons next more induction =>
      cases spread with
      | cons frontBreaks unbroken others =>
          simpa using Spread.cons frontBreaks unbroken (induction others)

theorem split (spread : Spread (first ++ second) lines) :
    ∃ left right, lines = left ++ right ∧ Spread first left ∧ Spread second right := by
  induction first generalizing lines with
  | nil => exact ⟨[], lines, rfl, .nil, spread⟩
  | cons token tokens induction =>
      cases spread with
      | @cons _ run _ behind breaks unbroken others =>
          rcases induction others with ⟨left, right, rfl, leftSpread, rightSpread⟩
          refine ⟨token :: (run ++ left), right, by simp, .cons breaks ?_ leftSpread, rightSpread⟩
          intro asks opened
          apply unbroken asks
          cases tokens with
          | nil => simp at opened
          | cons next more => exact opened

theorem spoken_eq (spread : Spread first lines)
    (unbroken : ∀ token ∈ first, token.kind ≠ .newline) : spoken lines = first := by
  induction spread with
  | nil => rfl
  | @cons token run tokens lines breaks _ _ induction =>
      rw [List.forall_mem_cons] at unbroken
      have alone : spoken [token] = [token] := spoken_eq_self (by simpa using unbroken.1)
      calc spoken (token :: (run ++ lines))
          = spoken [token] ++ (spoken run ++ spoken lines) := by
            rw [← spoken_append, ← spoken_append]
            rfl
        _ = token :: tokens := by
            rw [alone, spoken_eq_nil breaks, induction unbroken.2]
            rfl

end Spread

/-- Between two places of a text lie the given tokens and the line terminators among them. -/
def Covers (tokens : List Token) (before after : TokenStream) : Prop :=
  ∃ lines, Spread tokens lines ∧ before.Passed lines after

namespace Covers

variable {first second tokens : List Token} {before middle after stream : TokenStream}

theorem nothing (place : TokenStream) : Covers [] place place :=
  ⟨[], .nil, .nothing place⟩

theorem append (left : Covers first before middle) (right : Covers second middle after)
    (apart : ∀ token ∈ second.head?, token.kind ≠ .leftParen) :
    Covers (first ++ second) before after := by
  rcases left with ⟨lines, leftSpread, leftPassed⟩
  rcases right with ⟨others, rightSpread, rightPassed⟩
  exact ⟨lines ++ others, leftSpread.append rightSpread apart, leftPassed.trans rightPassed⟩

theorem step (notEnd : stream.current.kind ≠ .endOfInput)
    (unbroken : stream.current.isWord "has_item" = true →
      (∃ opening ∈ tokens.head?, opening.kind = .leftParen) → stream.step = stream.advance)
    (others : Covers tokens stream.step after) :
    Covers (stream.current :: tokens) stream after := by
  rcases others with ⟨lines, spread, passed⟩
  have advanced := passed_current notEnd
  by_cases asks : stream.current.isWord "has_item" = true ∧
      ∃ opening ∈ tokens.head?, opening.kind = .leftParen
  · rw [unbroken asks.1 asks.2] at passed
    exact ⟨_, .cons breaks_nil (fun _ _ => rfl) spread, advanced.trans passed⟩
  · rcases passed_skipNewlines stream.advance with ⟨run, breaks, skipped⟩
    refine ⟨_, .cons breaks (fun word opened => absurd ⟨word, opened⟩ asks) spread, ?_⟩
    exact advanced.trans (skipped.trans passed)

theorem singleton (notEnd : stream.current.kind ≠ .endOfInput) :
    Covers [stream.current] stream stream.step :=
  step notEnd (by simp) (nothing _)

end Covers

/-! ## Readings are derived -/

theorem derives_of_atom? {token : Token} {value : Expr} (found : atom? token = some value) :
    token.kind ≠ .newline ∧ Derives .operand [token] value := by
  unfold atom? at found
  split at found
  · next isInteger =>
      split at found
      · next short =>
          injection found with same
          exact same ▸ ⟨by simp [isInteger], .integer isInteger short⟩
      · contradiction
  · next isText =>
      injection found with same
      exact same ▸ ⟨by simp [isText], .text isText⟩
  · next isName =>
      have word : ∀ word, token.value = word → token.isWord word = true := by
        simp [Token.isWord, isName]
      refine ⟨by simp [isName], ?_⟩
      split at found
      · next isTrue =>
          injection found with same
          exact same ▸ .truth (word _ isTrue)
      · next notTrue =>
          split at found
          · next isFalse =>
              injection found with same
              exact same ▸ .falsity (word _ isFalse)
          · next notFalse =>
              split at found
              · contradiction
              · next notOperator =>
                  injection found with same
                  simp only [not_or] at notOperator
                  exact same ▸ .global isName (by simp [reserved, notTrue, notFalse, notOperator])
  · contradiction

theorem isName_of_atCall {stream : TokenStream} (call : atCall stream = true) :
    stream.current.kind = .identifier ∧ stream.advance.current.kind = .leftParen := by
  unfold atCall at call
  split at call
  · next name found =>
      refine ⟨?_, by simpa using call⟩
      unfold atom? at found
      split at found
      · split at found <;> simp at found
      · simp at found
      · next isName => exact isName
      · contradiction
  · contradiction

theorem isWord_of_binaryOp? {token : Token} {op : BinaryOp} {word : String}
    (found : token.binaryOp? = some op) (holds : token.isWord word = true) :
    word = "and" ∨ word = "or" := by
  rcases kind_of_isWord holds with ⟨isName, rfl⟩
  simp only [Token.binaryOp?, isName] at found
  split at found
  · next isAnd => exact .inl isAnd
  · next notAnd =>
      split at found
      · next isOr => exact .inr isOr
      · contradiction

theorem covers_of_simpleOperand {stream rest : TokenStream} {value : Expr}
    (accepted : simpleOperand stream = .accepted value rest) :
    ∃ tokens, Covers tokens stream rest ∧ Derives .operand tokens value := by
  unfold simpleOperand at accepted
  split at accepted
  · next call =>
      rcases isName_of_atCall call with ⟨isName, opensBehind⟩
      have unbroken : stream.step = stream.advance :=
        skipNewlines_eq breaks_nil (.nothing _) (by simp [opensBehind])
      split at accepted
      · next asks =>
          simp only [itemQuestion, Rule.bind_accepted, Rule.pure_accepted, expect_accepted]
            at accepted
          rcases accepted with ⟨opening, _, ⟨opens, rfl, rfl⟩, item, _, ⟨isItem, rfl, rfl⟩,
            closing, _, ⟨closes, rfl, rfl⟩, rfl, rfl⟩
          refine ⟨_, .step (by simp [isName]) (fun _ _ => unbroken)
            (.step (by simp [opens]) (by simp [Token.isWord, opens])
              (.step (by simp [isItem]) (by simp [closes]) (.singleton (by simp [closes])))), ?_⟩
          exact .question (by simp [Token.isWord, isName, asks]) opens isItem closes
      · contradiction
  · split at accepted
    · next operand found =>
        injection accepted with sameValue sameRest
        subst sameValue sameRest
        exact ⟨_, .singleton (kind_ne_endOfInput_of_atom? found), (derives_of_atom? found).2⟩
    · contradiction

/-- What tokens make of an expression that a level has read before them, if there is one. -/
def Completes (level : Level) (tokens : List Token) (value : Expr) : Option Expr → Prop
  | none => Derives level tokens value
  | some left => ∀ before, Derives level before left →
      (level = .comparison → Derives .sum before left) → Derives level (before ++ tokens) value

/-- Whatever a level reads is derived from the tokens it passes. Tokens that go on with an
expression begin with an operator. -/
theorem covers_of_reads {level : Level} {before : Option Expr} {stream rest : TokenStream}
    {value : Expr} (reading : Reads level before stream value rest) :
    ∃ tokens, Covers tokens stream rest ∧ Completes level tokens value before ∧
      (before ≠ none → ∀ token ∈ tokens.head?, token.kind ≠ .leftParen) := by
  induction reading with
  | enclosed opening _ closing induction =>
      rcases induction with ⟨inside, insideCovers, derived, _⟩
      have closed := insideCovers.append (.singleton (by simp [closing])) (by simp [closing])
      exact ⟨_, .step (by simp [opening]) (by simp [Token.isWord, opening]) closed,
        .enclosed opening derived closing, by simp⟩
  | simple _ accepted =>
      rcases covers_of_simpleOperand accepted with ⟨tokens, covers, derived⟩
      exact ⟨tokens, covers, derived, by simp⟩
  | negative sign _ induction =>
      rcases induction with ⟨operand, operandCovers, derived, _⟩
      exact ⟨_, .step (by simp [sign]) (by simp [Token.isWord, sign]) operandCovers,
        .negative sign derived, by simp⟩
  | denied denial _ induction =>
      have word := kind_of_isWord denial
      rcases induction with ⟨operand, operandCovers, derived, _⟩
      exact ⟨_, .step (by simp [word.1]) (by simp [Token.isWord, word.2]) operandCovers,
        .denied denial derived, by simp⟩
  | @tighter level _ _ _ _ _ _ _ _ _ _ first others =>
      rcases first with ⟨left, leftCovers, leftDerived, _⟩
      rcases others with ⟨more, moreCovers, completes, apart⟩
      refine ⟨_, leftCovers.append moreCovers (apart (by simp)), ?_, by simp⟩
      exact completes _ (.tighter leftDerived) fun isComparison => by
        subst isComparison
        exact leftDerived
  | done =>
      refine ⟨[], .nothing _, fun before derived _ => ?_, by simp⟩
      rw [List.append_nil]
      exact derived
  | compared operator _ induction =>
      have found := (binaryOpAt?_eq_some.1 operator).1
      rcases induction with ⟨operand, operandCovers, derived, _⟩
      refine ⟨_, .step (Token.kind_ne_endOfInput_of_binaryOpAt? operator)
        (fun asks => absurd (isWord_of_binaryOp? found asks) (by decide)) operandCovers,
        fun before _ leftDerived => .compared (leftDerived rfl) operator derived, fun _ => ?_⟩
      simpa using (kind_of_binaryOp? found).2.2.1
  | joined repeats operator _ _ operandInduction othersInduction =>
      have found := (binaryOpAt?_eq_some.1 operator).1
      rcases operandInduction with ⟨operand, operandCovers, derived, _⟩
      rcases othersInduction with ⟨more, moreCovers, completes, apart⟩
      refine ⟨_, .step (Token.kind_ne_endOfInput_of_binaryOpAt? operator)
        (fun asks => absurd (isWord_of_binaryOp? found asks) (by decide))
        (operandCovers.append moreCovers (apart (by simp))), fun before leftDerived _ => ?_,
        fun _ => by simpa using (kind_of_binaryOp? found).2.2.1⟩
      have whole := completes _ (.joined repeats leftDerived operator derived) fun isComparison =>
        absurd isComparison repeats
      simpa using whole

end Expr

end EventScript
