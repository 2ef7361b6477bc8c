import EventScript.Proofs.ExpressionCompleteness
import EventScript.Proofs.WrittenLexemes

/-! Rendered expressions. The text of a tree is a row of lexemes, so it consists of
their tokens, and whether it reads back is a question about the grammar alone. -/

namespace EventScript

/-! ## Trees that can be written -/

/-- Trees whose integers and names can stand in a text. -/
def Expr.WellFormed : Expr → Prop
  | .literal (.integer value) =>
      ∃ number : Nat, value = number ∧ number < 10 ^ Text.Decimal.maxDigits
  | .literal _ => True
  | .global name => Text.IsName name ∧ name ∉ Expr.reserved
  | .hasItem item => Text.IsName item
  | .binary _ left right => left.WellFormed ∧ right.WellFormed
  | .unary _ operand => operand.WellFormed

namespace Expr

theorem wellFormed_of_derives {level : Level} {tokens : List Token} {value : Expr}
    (derived : Derives level tokens value) (wellFormed : ∀ token ∈ tokens, token.WellFormed) :
    value.WellFormed := by
  induction derived with
  | @integer token isInteger short =>
      have digits := (wellFormed token (by simp)).digits isInteger
      refine ⟨_, rfl, Nat.lt_of_lt_of_le (Text.Decimal.toNat_lt digits) ?_⟩
      exact Nat.pow_le_pow_right (by decide) (by rwa [String.length_toList])
  | text => trivial
  | truth => trivial
  | falsity => trivial
  | @global token isName free => exact ⟨(wellFormed token (by simp)).name isName, free⟩
  | @question _ _ item _ _ _ isName => exact (wellFormed item (by simp)).name isName
  | enclosed _ _ _ induction =>
      exact induction fun token member => wellFormed token (by simp [member])
  | negative _ _ induction =>
      exact induction fun token member => wellFormed token (by simp [member])
  | denied _ _ induction =>
      exact induction fun token member => wellFormed token (by simp [member])
  | compared _ _ _ leftInduction rightInduction =>
      exact ⟨leftInduction fun token member => wellFormed token (by simp [member]),
        rightInduction fun token member => wellFormed token (by simp [member])⟩
  | joined _ _ _ _ leftInduction rightInduction =>
      exact ⟨leftInduction fun token member => wellFormed token (by simp [member]),
        rightInduction fun token member => wellFormed token (by simp [member])⟩
  | tighter _ induction => exact induction wellFormed

theorem wellFormed_of_ofSource {source : String} {e : Expr} (read : ofSource source = .ok e) :
    e.WellFormed := by
  rcases derives_of_ofSource read with ⟨tokens, lexed, derived⟩
  refine wellFormed_of_derives derived fun token member => ?_
  exact Tokens.wellFormed_of_ofText lexed token (List.mem_of_mem_filter member)

end Expr

/-! ## Lexemes of trees -/

namespace BinaryOp

def kind : BinaryOp → TokenKind
  | .add => .plus
  | .subtract => .minus
  | .multiply => .star
  | .divide => .slash
  | .remainder => .percent
  | .equal => .equal
  | .notEqual => .notEqual
  | .less => .less
  | .greater => .greater
  | .lessEqual => .lessEqual
  | .greaterEqual => .greaterEqual
  | .and | .or => .identifier

def lexeme (op : BinaryOp) : Lexeme :=
  .plain op.kind op.symbol [' ']

@[simp] theorem kind_lexeme (op : BinaryOp) : op.lexeme.kind = op.kind := rfl

theorem standsBefore_lexeme (op : BinaryOp) (tail : List Char) :
    op.lexeme.StandsBefore (' ' :: tail) := by
  have blank := Text.isBlank_of_mem_space
  have ends : Text.EndsRun Text.isNamePart (' ' :: tail) := .cons (by decide) tail
  cases op with
  | and => exact Lexeme.standsBefore_name blank (by decide) ends
  | or => exact Lexeme.standsBefore_name blank (by decide) ends
  | _ =>
      apply Lexeme.standsBefore_plain blank
      simp [symbol, kind, sign?, signs, List.isPrefixOf]

@[simp] theorem binaryOp?_token_lexeme (op : BinaryOp) :
    op.lexeme.token.binaryOp? = some op := by
  cases op <;> rfl

end BinaryOp

namespace Expr

/-- The lexemes that a tree is written as, with blanks before the first. Three minus
signs in a row are one marker. -/
def lexemes : Expr → List Char → List Lexeme
  | .literal (.boolean value), blanks => [.name (Literal.boolean value).render blanks]
  | .literal (.integer value), blanks => [.plain .integer (Literal.integer value).render blanks]
  | .literal (.text value), blanks => [.quoted value blanks]
  | .global name, blanks => [.name name blanks]
  | .hasItem item, blanks =>
      [.name "has_item" blanks, .sign .leftParen [], .name item [], .sign .rightParen []]
  | .binary op left right, blanks =>
      .sign .leftParen blanks :: (left.lexemes [] ++
        (op.lexeme :: (right.lexemes [' '] ++ [.sign .rightParen []])))
  | .unary .not operand, blanks => .name "not" blanks :: operand.lexemes [' ']
  | .unary .negate (.unary .negate (.unary .negate operand)), blanks =>
      .sign .sectionMarker blanks :: operand.lexemes []
  | .unary .negate operand, blanks => .sign .minus blanks :: operand.lexemes []

theorem textOf_lexemes (e : Expr) (blanks : List Char) :
    Lexeme.textOf (e.lexemes blanks) = blanks ++ e.render.toList := by
  fun_induction lexemes e blanks with
  | case1 => simp [Lexeme.name, Lexeme.plain, render]
  | case2 => simp [Lexeme.plain, render]
  | case3 => simp [Lexeme.quoted, render, Literal.render, Text.escape]
  | case4 => simp [Lexeme.name, Lexeme.plain, render]
  | case5 => simp [Lexeme.name, Lexeme.sign, Lexeme.plain, render, TokenKind.text]
  | case6 op left right blanks leftInduction rightInduction =>
      simp [Lexeme.sign, BinaryOp.lexeme, Lexeme.plain, render, TokenKind.text, leftInduction,
        rightInduction]
  | case7 operand blanks induction => simp [Lexeme.name, Lexeme.plain, render, induction]
  | case8 operand blanks induction =>
      simp [Lexeme.sign, Lexeme.plain, render, TokenKind.text, induction]
  | case9 operand blanks _ induction =>
      simp [Lexeme.sign, Lexeme.plain, render, TokenKind.text, induction]

theorem exists_render_eq_cons {e : Expr} (wellFormed : e.WellFormed) :
    ∃ first rest, e.render.toList = first :: rest ∧
      (first = '-' → ∃ operand, e = .unary .negate operand) := by
  cases e with
  | literal value =>
      cases value with
      | boolean value =>
          cases value with
          | false => exact ⟨'f', ['a', 'l', 's', 'e'], rfl, by simp⟩
          | true => exact ⟨'t', ['r', 'u', 'e'], rfl, by simp⟩
      | integer value =>
          rcases wellFormed with ⟨number, rfl, _⟩
          rcases List.exists_cons_of_ne_nil (Text.Decimal.ofNat_ne_nil number) with
            ⟨first, rest, spelled⟩
          refine ⟨first, rest, by simpa [render, Literal.render, Text.Decimal.textOfInt,
            Text.Decimal.ofInt] using spelled, ?_⟩
          intro same
          subst same
          have member : '-' ∈ Text.Decimal.ofNat number := by simp [spelled]
          exact absurd (Text.Decimal.isDigit_of_mem_ofNat member) (by decide)
      | text value => exact ⟨'"', _, by simp [render, Literal.render]; rfl, by simp⟩
  | global name =>
      rcases wellFormed.1 with ⟨first, rest, spelled, start, _⟩
      refine ⟨first, rest, spelled, ?_⟩
      intro same
      subst same
      exact absurd start (by decide)
  | hasItem item => exact ⟨'h', _, by simp [render]; rfl, by simp⟩
  | binary op left right => exact ⟨'(', _, by simp [render]; rfl, by simp⟩
  | unary op operand =>
      cases op with
      | negate => exact ⟨'-', operand.render.toList, by simp [render], fun _ => ⟨operand, rfl⟩⟩
      | not => exact ⟨'n', _, by simp [render]; rfl, by simp⟩

theorem textOf_lexemes_ne_marker {e : Expr} (wellFormed : e.WellFormed)
    (single : ∀ operand, e ≠ .unary .negate (.unary .negate operand)) (tail rest : List Char) :
    Lexeme.textOf (e.lexemes []) ++ tail ≠ '-' :: '-' :: rest := by
  intro same
  rw [textOf_lexemes, List.nil_append] at same
  rcases exists_render_eq_cons wellFormed with ⟨first, others, spelled, negated⟩
  rw [spelled, List.cons_append, List.cons.injEq] at same
  rcases negated same.1 with ⟨operand, rfl⟩
  rcases exists_render_eq_cons (e := operand) wellFormed with
    ⟨second, others', spelledOperand, negatedOperand⟩
  have behind : others = operand.render.toList := by
    have whole := spelled
    simp only [render, String.toList_append] at whole
    exact (List.cons.inj whole).2.symm
  rw [behind, spelledOperand, List.cons_append, List.cons.injEq] at same
  rcases negatedOperand same.2.1 with ⟨inner, rfl⟩
  exact single inner rfl

theorem row_lexemes {e : Expr} (wellFormed : e.WellFormed) {blanks tail : List Char}
    (blank : ∀ c ∈ blanks, Text.isBlank c = true)
    (ends : Text.EndsRun Text.isNamePart tail) : Lexeme.Row (e.lexemes blanks) tail := by
  fun_induction lexemes e blanks generalizing tail with
  | case1 value blanks =>
      have isName : Text.IsName (Literal.boolean value).render := by
        cases value <;> decide
      exact ⟨Lexeme.standsBefore_name blank isName (by simpa using ends), trivial⟩
  | case2 value blanks =>
      rcases wellFormed with ⟨number, rfl, _⟩
      have spelled : (Literal.integer number).render.toList = Text.Decimal.ofNat number := by
        simp [Literal.render, Text.Decimal.textOfInt, Text.Decimal.ofInt]
      refine ⟨Lexeme.standsBefore_integer blank ?_ ?_ (by simpa using ends), trivial⟩
      · rw [spelled]
        exact Text.Decimal.ofNat_ne_nil number
      · rw [spelled]
        exact fun c member => Text.Decimal.isDigit_of_mem_ofNat member
  | case3 value blanks => exact ⟨Lexeme.standsBefore_quoted value blank, trivial⟩
  | case4 name blanks =>
      exact ⟨Lexeme.standsBefore_name blank wellFormed.1 (by simpa using ends), trivial⟩
  | case5 item blanks =>
      have isName : Text.IsName "has_item" := by decide
      have closing : Text.EndsRun Text.isNamePart (')' :: tail) := .cons (by decide) tail
      exact ⟨Lexeme.standsBefore_name blank isName (.cons (by decide) _),
        Lexeme.standsBefore_closed (by simp) rfl,
        Lexeme.standsBefore_name (by simp) wellFormed closing,
        Lexeme.standsBefore_closed (by simp) rfl, trivial⟩
  | case6 op left right blanks leftInduction rightInduction =>
      have rightText : Lexeme.textOf (right.lexemes [' '] ++ [Lexeme.sign .rightParen []]) ++ tail =
          ' ' :: (right.render.toList ++ ')' :: tail) := by
        simp [textOf_lexemes, Lexeme.sign, Lexeme.plain, TokenKind.text]
      refine ⟨Lexeme.standsBefore_closed blank rfl, Lexeme.row_append.2 ⟨?_, ?_, ?_⟩⟩
      · exact leftInduction wellFormed.1 (by simp) (.cons (by decide) _)
      · rw [rightText]
        exact op.standsBefore_lexeme _
      · refine Lexeme.row_append.2 ⟨?_, Lexeme.standsBefore_closed (by simp) rfl, trivial⟩
        exact rightInduction wellFormed.2 Text.isBlank_of_mem_space (.cons (by decide) _)
  | case7 operand blanks induction =>
      refine ⟨?_, induction wellFormed Text.isBlank_of_mem_space ends⟩
      apply Lexeme.standsBefore_name blank (by decide)
      rw [textOf_lexemes]
      exact .cons (by decide) _
  | case8 operand blanks induction =>
      exact ⟨Lexeme.standsBefore_closed blank rfl, induction wellFormed (by simp) ends⟩
  | case9 operand blanks notTwice induction =>
      refine ⟨Lexeme.standsBefore_minus blank ?_, induction wellFormed (by simp) ends⟩
      exact textOf_lexemes_ne_marker (e := operand) wellFormed notTwice tail

/-! ## Tokens of trees -/

def tokens (e : Expr) : List Token :=
  (e.lexemes []).map Lexeme.token

@[simp] theorem map_token_lexemes (e : Expr) (blanks : List Char) :
    (e.lexemes blanks).map Lexeme.token = e.tokens := by
  fun_cases lexemes e blanks with
  | case9 operand blanks notTwice =>
      rw [tokens, lexemes.eq_9 _ _ notTwice, List.map_cons]
      rfl
  | _ => rfl

theorem tokens_binary (op : BinaryOp) (left right : Expr) :
    (binary op left right).tokens = (Lexeme.sign .leftParen []).token :: (left.tokens ++
      (op.lexeme.token :: (right.tokens ++ [(Lexeme.sign .rightParen []).token]))) := by
  simp [tokens.eq_def (binary op left right), lexemes]

theorem tokens_not (operand : Expr) :
    (unary .not operand).tokens = (Lexeme.name "not" []).token :: operand.tokens := by
  simp [tokens.eq_def (unary .not operand), lexemes]

theorem tokens_marker (operand : Expr) :
    (unary .negate (unary .negate (unary .negate operand))).tokens =
      (Lexeme.sign .sectionMarker []).token :: operand.tokens := by
  rw [tokens, lexemes, List.map_cons, map_token_lexemes]

theorem tokens_negate {operand : Expr}
    (single : ∀ inner, operand ≠ unary .negate (unary .negate inner)) :
    (unary .negate operand).tokens = (Lexeme.sign .minus []).token :: operand.tokens := by
  rw [tokens, lexemes.eq_9 _ _ single, List.map_cons, map_token_lexemes]

theorem kind_of_mem_lexemes {e : Expr} {blanks : List Char} :
    ∀ lexeme ∈ e.lexemes blanks, lexeme.kind ≠ .newline := by
  fun_induction lexemes e blanks with
  | case6 op left right blanks leftInduction rightInduction =>
      have operator : op.kind ≠ .newline := by cases op <;> decide
      simp only [List.forall_mem_cons, List.forall_mem_append]
      exact ⟨by simp [Lexeme.sign, Lexeme.plain], leftInduction, operator, rightInduction,
        by simp [Lexeme.sign, Lexeme.plain]⟩
  | _ => simp_all [Lexeme.sign, Lexeme.name, Lexeme.plain, Lexeme.quoted]

end Expr

/-! ## Places -/

theorem Token.alike_of_unplaced {token other : Token} (same : token.unplaced = other.unplaced) :
    token.kind = other.kind ∧ token.value = other.value := by
  have kind := congrArg Token.kind same
  have value := congrArg Token.value same
  exact ⟨kind, value⟩

namespace Expr

theorem derives_of_map_unplaced {level : Level} {tokens others : List Token} {value : Expr}
    (derived : Derives level tokens value)
    (same : others.map Token.unplaced = tokens.map Token.unplaced) :
    Derives level others value := by
  induction derived generalizing others with
  | @integer token isInteger short =>
      rcases List.map_eq_singleton_iff.1 same with ⟨other, rfl, alike⟩
      rcases Token.alike_of_unplaced alike with ⟨kind, spelling⟩
      rw [← spelling] at short ⊢
      exact .integer (kind.trans isInteger) short
  | @text token isText =>
      rcases List.map_eq_singleton_iff.1 same with ⟨other, rfl, alike⟩
      rcases Token.alike_of_unplaced alike with ⟨kind, spelling⟩
      rw [← spelling]
      exact .text (kind.trans isText)
  | @truth token isTrue =>
      rcases List.map_eq_singleton_iff.1 same with ⟨other, rfl, alike⟩
      exact .truth ((congrArg (Token.isWord · "true") alike).trans isTrue)
  | @falsity token isFalse =>
      rcases List.map_eq_singleton_iff.1 same with ⟨other, rfl, alike⟩
      exact .falsity ((congrArg (Token.isWord · "false") alike).trans isFalse)
  | @global token isName free =>
      rcases List.map_eq_singleton_iff.1 same with ⟨other, rfl, alike⟩
      rcases Token.alike_of_unplaced alike with ⟨kind, spelling⟩
      rw [← spelling] at free ⊢
      exact .global (kind.trans isName) free
  | question asks opens isName closes =>
      simp only [List.map_cons, List.map_nil, List.map_eq_cons_iff, List.map_eq_nil_iff] at same
      rcases same with ⟨word, _, rfl, alikeWord, opening, _, rfl, alikeOpening, item, _, rfl,
        alikeItem, closing, _, rfl, alikeClosing, rfl⟩
      rcases Token.alike_of_unplaced alikeItem with ⟨kind, spelling⟩
      rw [← spelling]
      exact .question ((congrArg (Token.isWord · "has_item") alikeWord).trans asks)
        ((congrArg Token.kind alikeOpening).trans opens) (kind.trans isName)
        ((congrArg Token.kind alikeClosing).trans closes)
  | enclosed opens _ closes induction =>
      rw [List.map_cons, List.map_append, List.map_eq_cons_iff] at same
      rcases same with ⟨opening, rest, rfl, alikeOpening, same⟩
      rcases List.map_eq_append_iff.1 same with ⟨inside, last, rfl, alikeInside, alikeLast⟩
      rcases List.map_eq_singleton_iff.1 alikeLast with ⟨closing, rfl, alikeClosing⟩
      exact .enclosed ((congrArg Token.kind alikeOpening).trans opens) (induction alikeInside)
        ((congrArg Token.kind alikeClosing).trans closes)
  | negative signs _ induction =>
      rcases List.map_eq_cons_iff.1 same with ⟨sign, operand, rfl, alikeSign, alikeOperand⟩
      exact .negative ((congrArg Token.kind alikeSign).trans signs) (induction alikeOperand)
  | denied denies _ induction =>
      rcases List.map_eq_cons_iff.1 same with ⟨word, operand, rfl, alikeWord, alikeOperand⟩
      exact .denied ((congrArg (Token.isWord · "not") alikeWord).trans denies)
        (induction alikeOperand)
  | compared _ operator _ leftInduction rightInduction =>
      rw [List.map_append, List.map_cons] at same
      rcases List.map_eq_append_iff.1 same with ⟨left, rest, rfl, alikeLeft, alikeRest⟩
      rcases List.map_eq_cons_iff.1 alikeRest with ⟨sign, right, rfl, alikeSign, alikeRight⟩
      exact .compared (leftInduction alikeLeft)
        ((congrArg (Token.binaryOpAt? · .comparison) alikeSign).trans operator)
        (rightInduction alikeRight)
  | @joined level _ _ _ _ _ _ repeats _ operator _ leftInduction rightInduction =>
      rw [List.map_append, List.map_cons] at same
      rcases List.map_eq_append_iff.1 same with ⟨left, rest, rfl, alikeLeft, alikeRest⟩
      rcases List.map_eq_cons_iff.1 alikeRest with ⟨sign, right, rfl, alikeSign, alikeRight⟩
      exact .joined repeats (leftInduction alikeLeft)
        ((congrArg (Token.binaryOpAt? · level) alikeSign).trans operator)
        (rightInduction alikeRight)
  | tighter _ induction => exact .tighter (induction same)

theorem ofSource_render_eq_ok_iff {e value : Expr} (wellFormed : e.WellFormed) :
    ofSource e.render = .ok value ↔ Derives .disjunction e.tokens value := by
  have row : Lexeme.Row (e.lexemes []) [] := row_lexemes wellFormed (by simp) (.nil _)
  have spelled : e.render.toList = Lexeme.textOf (e.lexemes []) := by
    rw [textOf_lexemes, List.nil_append]
  have unbroken : ∀ token ∈ Scan.locate .start (e.lexemes []), token.kind ≠ .newline := by
    intro token member
    rcases Scan.exists_lexeme_of_mem_locate member with ⟨lexeme, inside, kind, _⟩
    exact kind ▸ kind_of_mem_lexemes lexeme inside
  have unplaced : (Scan.locate .start (e.lexemes [])).map Token.unplaced =
      e.tokens.map Token.unplaced := by
    rw [Scan.map_unplaced_locate, tokens, List.map_map]
    rfl
  rw [ofSource_eq_ok_iff (Tokens.ofText_row row spelled) unbroken]
  constructor
  · intro derived
    exact derives_of_map_unplaced derived unplaced.symm
  · intro derived
    exact derives_of_map_unplaced derived unplaced

end Expr

end EventScript
