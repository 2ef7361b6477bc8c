import EventScript.Proofs.ExpressionText
import Mathlib

/-! What rendered expressions read back as. The text of a tree puts every operation with
two operands in parentheses and none with one, so a denial may take more behind it
than it had, and three minus signs in a row are no signs at all. -/

namespace EventScript

/-! ## Trees and their texts -/

/-- The arithmetic operators and the comparisons: as the operand of one of them, a denial
would take in the operation. -/
def BinaryOp.bindsTightly (op : BinaryOp) : Bool :=
  op.level.rank < Level.negation.rank

namespace Expr

def isDenial : Expr → Bool
  | .unary .not _ => true
  | _ => false

def isDoubleNegative : Expr → Bool
  | .unary .negate (.unary .negate _) => true
  | _ => false

/-- Trees without a denial below an operator that binds tightly, and without three
minus signs in a row. -/
def isSafe : Expr → Bool
  | .binary op left right =>
      left.isSafe && right.isSafe && !(op.bindsTightly && (left.isDenial || right.isDenial))
  | .unary .not operand => operand.isSafe
  | .unary .negate operand => operand.isSafe && !operand.isDenial && !operand.isDoubleNegative
  | _ => true

/-- Trees whose text is an expression, although it may be another one. -/
def isLegible : Expr → Bool
  | .binary op left right =>
      left.isLegible && right.isLegible && !(op.bindsTightly && right.isDenial)
  | .unary .not operand => operand.isLegible
  | .unary .negate operand =>
      operand.isLegible && !operand.isDenial && !operand.isDoubleNegative
  | _ => true

/-- The tree that the text of a tree reads as, if `goOn` is what comes of its last operand
with the text behind it. Denials reach to the end of the text. -/
def regroupWith (goOn : Expr → Expr) : Expr → Expr
  | .unary .not operand => .unary .not (operand.regroupWith goOn)
  | .unary .negate operand => goOn (.unary .negate (operand.regroupWith id))
  | .binary op left right =>
      if op.bindsTightly then
        goOn (left.regroupWith fun first => .binary op first (right.regroupWith id))
      else goOn (.binary op (left.regroupWith id) (right.regroupWith id))
  | atom => goOn atom

def regrouped (e : Expr) : Expr :=
  e.regroupWith id

/-! ## Reading legible trees -/

theorem rank_injective : ∀ first second : Level, first.rank = second.rank → first = second := by
  intro first second
  cases first <;> cases second <;> decide

theorem rank_tighter (level : Level) : level.tighter.rank = level.rank - 1 := by
  cases level <;> rfl

theorem Derives.loosen {level looser : Level} {tokens : List Token} {value : Expr}
    (derived : Derives level tokens value) (le : level.rank ≤ looser.rank) :
    Derives looser tokens value := by
  by_cases same : level = looser
  · exact same ▸ derived
  · have apart : level.rank ≠ looser.rank := fun ranks => same (rank_injective _ _ ranks)
    have next := rank_tighter looser
    have notLast : looser ≠ .operand := by
      intro same
      subst same
      simp only [Level.rank] at le apart
      omega
    have lower := Level.rank_tighter_lt notLast
    exact .tighter (derived.loosen (by omega))
termination_by looser.rank

theorem derives_operation {op : BinaryOp} {left right : List Token} {first second : Expr}
    {leftLevel rightLevel : Level} (leftDerived : Derives leftLevel left first)
    (leftTight : leftLevel.rank < op.level.rank)
    (rightDerived : Derives rightLevel right second)
    (rightTight : rightLevel.rank < op.level.rank) :
    Derives op.level (left ++ op.lexeme.token :: right) (.binary op first second) := by
  have operator : op.lexeme.token.binaryOpAt? op.level = some op :=
    binaryOpAt?_eq_some.2 ⟨op.binaryOp?_token_lexeme, rfl⟩
  have next := rank_tighter op.level
  have rightLoose : Derives op.level.tighter right second := rightDerived.loosen (by omega)
  by_cases comparison : op.level = .comparison
  · rw [comparison] at operator rightLoose leftTight ⊢
    exact .compared (leftDerived.loosen (Nat.le_of_lt_succ leftTight)) operator rightLoose
  · exact .joined comparison (leftDerived.loosen (Nat.le_of_lt leftTight)) operator rightLoose

theorem derives_enclosed {level : Level} {tokens : List Token} {value : Expr}
    (derived : Derives level tokens value) :
    Derives .operand ((Lexeme.sign .leftParen []).token ::
      (tokens ++ [(Lexeme.sign .rightParen []).token])) value := by
  refine .enclosed rfl (derived.loosen ?_) rfl
  cases level <;> decide

theorem regroupWith_of_plain {e : Expr} (plain : e.isDenial = false) (goOn : Expr → Expr) :
    e.regroupWith goOn = goOn e.regrouped := by
  cases e with
  | binary op left right => cases tight : op.bindsTightly <;> simp [regrouped, regroupWith, tight]
  | unary op operand =>
      cases op with
      | negate => rfl
      | not => simp [isDenial] at plain
  | _ => rfl

/-- What can stand behind an operand, and what it makes of it. -/
def GoesOn (behind : List Token) (goOn : Expr → Expr) : Prop :=
  ∀ tokens value, Derives .sign tokens value → Derives .comparison (tokens ++ behind) (goOn value)

theorem goesOn_nil : GoesOn [] id := by
  intro tokens value derived
  rw [List.append_nil]
  exact derived.loosen (by decide)

structure Regroups (e : Expr) : Prop where
  alone : e.isDenial = false → Derives .sign e.tokens e.regrouped
  before : ∀ behind goOn, GoesOn behind goOn →
    Derives .negation (e.tokens ++ behind) (e.regroupWith goOn)

namespace Regroups

variable {e left right operand : Expr}

theorem of_plain (plain : e.isDenial = false) (alone : Derives .sign e.tokens e.regrouped) :
    Regroups e where
  alone _ := alone
  before behind goOn goesOn := by
    rw [regroupWith_of_plain plain]
    exact .tighter (goesOn _ _ alone)

theorem whole (regroups : Regroups e) : Derives .negation e.tokens e.regrouped := by
  have derived := regroups.before [] id goesOn_nil
  rwa [List.append_nil] at derived

theorem of_operand (plain : e.isDenial = false)
    (derived : Derives .operand e.tokens e.regrouped) : Regroups e :=
  .of_plain plain (derived.loosen (by decide))

theorem of_atom (plain : e.isDenial = false) (same : e.regrouped = e)
    (derived : Derives .operand e.tokens e) : Regroups e :=
  .of_operand plain (same.symm ▸ derived)

theorem not (regroups : Regroups operand) : Regroups (.unary .not operand) where
  alone plain := by simp [isDenial] at plain
  before behind goOn goesOn := by
    rw [tokens_not, List.cons_append]
    exact .denied rfl (regroups.before behind goOn goesOn)

theorem negate (regroups : Regroups operand) (plain : operand.isDenial = false)
    (single : operand.isDoubleNegative = false) : Regroups (.unary .negate operand) := by
  apply of_plain rfl
  rw [tokens_negate]
  · exact .negative rfl (regroups.alone plain)
  · intro inner same
    subst same
    simp [isDoubleNegative] at single

/-- The left operand takes the rest of the operation with it as far as a denial reaches. -/
theorem binary_tight {op : BinaryOp} (tight : op.bindsTightly = true) (first : Regroups left)
    (second : Regroups right) (plain : right.isDenial = false) :
    Regroups (.binary op left right) := by
  have le : op.level.rank ≤ Level.comparison.rank := by cases op <;> first | decide | contradiction
  have above : Level.sign.rank < op.level.rank := by cases op <;> decide
  have goesOn : GoesOn (op.lexeme.token :: right.tokens) fun value =>
      .binary op value right.regrouped := by
    intro tokens value derived
    exact (derives_operation derived above (second.alone plain) above).loosen le
  apply of_operand rfl
  have inside := derives_enclosed (first.before _ _ goesOn)
  rw [tokens_binary, regrouped, regroupWith, if_pos tight]
  simpa [regrouped] using inside

theorem binary_loose {op : BinaryOp} (loose : op.bindsTightly = false) (first : Regroups left)
    (second : Regroups right) : Regroups (.binary op left right) := by
  have above : Level.negation.rank < op.level.rank := by
    cases op <;> first | decide | contradiction
  apply of_operand rfl
  have inside := derives_enclosed (derives_operation first.whole above second.whole above)
  rw [tokens_binary, regrouped, regroupWith, if_neg (by simp [loose])]
  simpa [regrouped] using inside

end Regroups

theorem regroups_of_isLegible {e : Expr} (wellFormed : e.WellFormed)
    (legible : e.isLegible = true) : Regroups e := by
  induction e with
  | literal value =>
      cases value with
      | boolean value =>
          cases value with
          | false => exact .of_atom rfl rfl (.falsity rfl)
          | true => exact .of_atom rfl rfl (.truth rfl)
      | integer value =>
          rcases wellFormed with ⟨number, rfl, bounded⟩
          have spelled : (Text.Decimal.textOfInt number).toList = Text.Decimal.ofNat number := by
            simp [Text.Decimal.textOfInt, Text.Decimal.ofInt]
          have short : (Text.Decimal.textOfInt number).length ≤ Text.Decimal.maxDigits := by
            rw [← String.length_toList, spelled]
            exact Text.Decimal.length_ofNat_le (by decide) bounded
          have derived :=
            @Derives.integer ⟨.integer, Text.Decimal.textOfInt number, .start⟩ rfl short
          rw [spelled, Text.Decimal.toNat_ofNat] at derived
          exact .of_atom rfl rfl (by simpa [tokens, lexemes, Literal.render] using derived)
      | text value =>
          have derived : Derives .operand [⟨.string, value, .start⟩] (.literal (.text value)) :=
            .text rfl
          exact .of_atom rfl rfl (by simpa [tokens, lexemes] using derived)
  | global name =>
      have derived : Derives .operand [⟨.identifier, name, .start⟩] (.global name) :=
        .global rfl wellFormed.2
      exact .of_atom rfl rfl (by simpa [tokens, lexemes] using derived)
  | hasItem item =>
      have derived : Derives .operand [(Lexeme.name "has_item" []).token,
          (Lexeme.sign .leftParen []).token, ⟨.identifier, item, .start⟩,
          (Lexeme.sign .rightParen []).token] (.hasItem item) := .question rfl rfl rfl rfl
      exact .of_atom rfl rfl (by simpa [tokens, lexemes] using derived)
  | binary op left right leftInduction rightInduction =>
      simp only [isLegible, Bool.and_eq_true, Bool.not_eq_true', Bool.and_eq_false_iff] at legible
      rcases legible with ⟨⟨leftLegible, rightLegible⟩, apart⟩
      have first := leftInduction wellFormed.1 leftLegible
      have second := rightInduction wellFormed.2 rightLegible
      cases tight : op.bindsTightly with
      | false => exact .binary_loose tight first second
      | true => exact .binary_tight tight first second (by simpa [tight] using apart)
  | unary op operand induction =>
      cases op with
      | not => exact .not (induction wellFormed legible)
      | negate =>
          simp only [isLegible, Bool.and_eq_true, Bool.not_eq_true'] at legible
          exact .negate (induction wellFormed legible.1.1) legible.1.2 legible.2

/-! ## Illegible trees -/

/-- Two tokens are apart unless a denial stands right behind an operator that binds tightly. -/
def Apart (first second : Token) : Prop :=
  ∀ op, first.binaryOp? = some op → op.bindsTightly = true → second.isWord "not" = false

theorem apart_of_derives {level : Level} {tokens : List Token} {value : Expr}
    (derived : Derives level tokens value) (tight : level.rank < Level.negation.rank)
    (sign : Token) : ∀ token ∈ tokens.head?, Apart sign token := by
  rcases head_of_derives derived with ⟨first, rest, rfl, _, undenied⟩
  intro token head op _ _
  rw [List.head?_cons, Option.mem_some_iff] at head
  exact head ▸ undenied tight

theorem isChain_operation {left right : List Token} {sign : Token}
    (leftChain : left.IsChain Apart) (undenied : sign.isWord "not" = false)
    (apart : ∀ token ∈ right.head?, Apart sign token) (rightChain : right.IsChain Apart) :
    (left ++ sign :: right).IsChain Apart := by
  refine List.isChain_append.2 ⟨leftChain, List.isChain_cons.2 ⟨apart, rightChain⟩, ?_⟩
  intro last _ token head op _ _
  rw [List.head?_cons, Option.mem_some_iff] at head
  exact head ▸ undenied

theorem isChain_of_derives {level : Level} {tokens : List Token} {value : Expr}
    (derived : Derives level tokens value) : tokens.IsChain Apart := by
  induction derived with
  | question asks opens isName closes =>
      simp [Apart, Token.isWord, Token.binaryOp?, kind_of_isWord asks, opens, isName, closes]
  | enclosed opens derived closes induction =>
      apply List.isChain_cons.2
      constructor
      · intro token _ op found
        simp [Token.binaryOp?, opens] at found
      · exact isChain_operation induction (by simp [Token.isWord, closes]) (by simp) (by simp)
  | negative _ derived induction =>
      exact List.isChain_cons.2 ⟨apart_of_derives derived (by decide) _, induction⟩
  | denied denies derived induction =>
      refine List.isChain_cons.2 ⟨?_, induction⟩
      intro token _ op found
      simp [Token.binaryOp?, kind_of_isWord denies] at found
  | compared _ operator derived leftInduction rightInduction =>
      have undenied := (kind_of_binaryOp? (binaryOpAt?_eq_some.1 operator).1).2.2.2.2
      exact isChain_operation leftInduction undenied (apart_of_derives derived (by decide) _)
        rightInduction
  | @joined level _ _ sign op _ _ _ _ operator derived leftInduction rightInduction =>
      rcases binaryOpAt?_eq_some.1 operator with ⟨found, sameLevel⟩
      have undenied := (kind_of_binaryOp? found).2.2.2.2
      refine isChain_operation leftInduction undenied ?_ rightInduction
      intro token head op' found' tight
      rw [found] at found'
      injection found' with same
      subst same
      have below : level.rank < Level.negation.rank := by
        simpa [BinaryOp.bindsTightly, sameLevel] using tight
      have next := rank_tighter level
      exact apart_of_derives derived (by omega) sign token head op found tight
  | tighter _ induction => exact induction
  | _ => simp

theorem exists_tokens_of_isDenial {e : Expr} (denial : e.isDenial = true) :
    ∃ rest, e.tokens = (Lexeme.name "not" []).token :: rest := by
  cases e with
  | unary op operand =>
      cases op with
      | negate => simp [isDenial] at denial
      | not => exact ⟨operand.tokens, tokens_not operand⟩
  | _ => simp [isDenial] at denial

theorem isDenial_of_apart {e : Expr} {sign : Token} {op : BinaryOp} {behind : List Token}
    (found : sign.binaryOp? = some op) (tight : op.bindsTightly = true)
    (apart : ∀ token ∈ (e.tokens ++ behind).head?, Apart sign token) : e.isDenial = false := by
  cases denial : e.isDenial with
  | false => rfl
  | true =>
      rcases exists_tokens_of_isDenial denial with ⟨rest, spelled⟩
      rw [spelled] at apart
      have undenied := apart _ rfl op found tight
      contradiction

theorem isLegible_of_isChain {e : Expr}
    (unmarked : ∀ token ∈ e.tokens, token.kind ≠ .sectionMarker)
    (chain : e.tokens.IsChain Apart) : e.isLegible = true := by
  induction e with
  | binary op left right leftInduction rightInduction =>
      rw [tokens_binary] at unmarked chain
      simp only [List.forall_mem_cons, List.forall_mem_append] at unmarked
      rcases List.isChain_append.1 (List.isChain_cons.1 chain).2 with ⟨leftChain, others, _⟩
      rcases List.isChain_cons.1 others with ⟨apart, others⟩
      have rightChain := (List.isChain_append.1 others).1
      have plain : op.bindsTightly = true → right.isDenial = false := fun tight =>
        isDenial_of_apart op.binaryOp?_token_lexeme tight apart
      have leftLegible := leftInduction unmarked.2.1 leftChain
      have rightLegible := rightInduction unmarked.2.2.2.1 rightChain
      cases tight : op.bindsTightly with
      | false => simp [isLegible, leftLegible, rightLegible, tight]
      | true => simp [isLegible, leftLegible, rightLegible, plain tight]
  | unary op operand induction =>
      cases op with
      | not =>
          rw [tokens_not] at unmarked chain
          exact induction (List.forall_mem_cons.1 unmarked).2 (List.isChain_cons.1 chain).2
      | negate =>
          by_cases triple : ∃ inner, operand = .unary .negate (.unary .negate inner)
          · rcases triple with ⟨inner, rfl⟩
            rw [tokens_marker] at unmarked
            exact absurd rfl (List.forall_mem_cons.1 unmarked).1
          · have single : ∀ inner, operand ≠ .unary .negate (.unary .negate inner) :=
              fun inner same => triple ⟨inner, same⟩
            rw [tokens_negate single] at unmarked chain
            rcases List.isChain_cons.1 chain with ⟨apart, operandChain⟩
            have legible := induction (List.forall_mem_cons.1 unmarked).2 operandChain
            have plain : operand.isDenial = false := by
              rw [← List.append_nil operand.tokens] at apart
              exact isDenial_of_apart (show _ = some .subtract from rfl) rfl apart
            have notTwice : operand.isDoubleNegative = false := by
              cases twice : operand.isDoubleNegative with
              | false => rfl
              | true =>
                  unfold isDoubleNegative at twice
                  split at twice
                  · next inner => exact absurd rfl (single inner)
                  · contradiction
            simp [isLegible, legible, plain, notTwice]
  | _ => rfl

/-! ## Round trips -/

theorem ofSource_render_iff_regrouped {e value : Expr} (wellFormed : e.WellFormed) :
    ofSource e.render = .ok value ↔ e.isLegible = true ∧ e.regrouped = value := by
  have whole : e.isLegible = true → ofSource e.render = .ok e.regrouped := by
    intro legible
    rw [ofSource_render_eq_ok_iff wellFormed]
    exact (regroups_of_isLegible wellFormed legible).whole.loosen (by decide)
  constructor
  · intro accepted
    have derived := (ofSource_render_eq_ok_iff wellFormed).1 accepted
    have unmarked := fun token member => (kind_of_derives derived token member).2
    have legible := isLegible_of_isChain unmarked (isChain_of_derives derived)
    refine ⟨legible, ?_⟩
    rw [whole legible] at accepted
    injection accepted
  · intro holds
    rcases holds with ⟨legible, rfl⟩
    exact whole legible

theorem regrouped_of_isSafe {e : Expr} (safe : e.isSafe = true) :
    e.isLegible = true ∧ e.regrouped = e := by
  induction e with
  | binary op left right leftInduction rightInduction =>
      simp only [isSafe, Bool.and_eq_true, Bool.not_eq_true', Bool.and_eq_false_iff,
        Bool.or_eq_false_iff] at safe
      rcases safe with ⟨⟨leftSafe, rightSafe⟩, plain⟩
      rcases leftInduction leftSafe with ⟨leftLegible, leftSame⟩
      rcases rightInduction rightSafe with ⟨rightLegible, rightSame⟩
      rw [regrouped] at rightSame
      cases tight : op.bindsTightly with
      | false =>
          rw [regrouped] at leftSame
          simp [isLegible, regrouped, regroupWith, tight, leftLegible, rightLegible, leftSame,
            rightSame]
      | true =>
          simp only [tight, Bool.true_eq_false, false_or] at plain
          refine ⟨by simp [isLegible, leftLegible, rightLegible, plain], ?_⟩
          rw [regrouped, regroupWith, if_pos tight, rightSame, regroupWith_of_plain plain.1,
            leftSame]
          rfl
  | unary op operand induction =>
      cases op with
      | not =>
          rcases induction safe with ⟨legible, same⟩
          rw [regrouped] at same
          simp [isLegible, regrouped, regroupWith, legible, same]
      | negate =>
          simp only [isSafe, Bool.and_eq_true, Bool.not_eq_true'] at safe
          rcases induction safe.1.1 with ⟨legible, same⟩
          rw [regrouped] at same
          simp [isLegible, regrouped, regroupWith, legible, same, safe]
  | _ => exact ⟨rfl, rfl⟩

/-- A denial on the left of an operator that binds tightly takes in the operation. -/
theorem isSafe_of_regrouped {e : Expr} (legible : e.isLegible = true) (same : e.regrouped = e) :
    e.isSafe = true := by
  induction e with
  | binary op left right leftInduction rightInduction =>
      simp only [isLegible, Bool.and_eq_true, Bool.not_eq_true', Bool.and_eq_false_iff] at legible
      rcases legible with ⟨⟨leftLegible, rightLegible⟩, plain⟩
      cases tight : op.bindsTightly with
      | false =>
          simp only [regrouped, regroupWith, tight, Bool.false_eq_true, if_false, id,
            binary.injEq, true_and] at same
          have leftSafe := leftInduction leftLegible same.1
          have rightSafe := rightInduction rightLegible same.2
          simp [isSafe, tight, leftSafe, rightSafe]
      | true =>
          simp only [regrouped, regroupWith, tight, if_true, id] at same
          have leftPlain : left.isDenial = false := by
            cases denial : left.isDenial with
            | false => rfl
            | true =>
                cases left with
                | unary op operand => cases op <;> simp_all [isDenial, regroupWith]
                | _ => simp [isDenial] at denial
          rw [regroupWith_of_plain leftPlain, binary.injEq] at same
          have leftSafe := leftInduction leftLegible same.2.1
          have rightSafe := rightInduction rightLegible same.2.2
          have rightPlain : right.isDenial = false := by simpa [tight] using plain
          simp [isSafe, leftPlain, rightPlain, leftSafe, rightSafe]
  | unary op operand induction =>
      cases op with
      | not =>
          simp only [regrouped, regroupWith, unary.injEq, true_and] at same
          exact induction legible same
      | negate =>
          simp only [isLegible, Bool.and_eq_true, Bool.not_eq_true'] at legible
          simp only [regrouped, regroupWith, id, unary.injEq, true_and] at same
          simp [isSafe, induction legible.1.1 same, legible]
  | _ => rfl

theorem isSafe_iff {e : Expr} : e.isLegible = true ∧ e.regrouped = e ↔ e.isSafe = true :=
  ⟨fun same => isSafe_of_regrouped same.1 same.2, regrouped_of_isSafe⟩

/-- What an expression's text reads as: nothing if the tree is illegible, and else the
regrouped tree, which is the tree itself exactly if that is safe. -/
theorem ofSource_render_of_ofSource {source : String} {e : Expr} (read : ofSource source = .ok e) :
    (∀ value, ofSource e.render = .ok value ↔ e.isLegible = true ∧ e.regrouped = value) ∧
      (e.isLegible = true ∧ e.regrouped = e ↔ e.isSafe = true) :=
  ⟨fun _ => ofSource_render_iff_regrouped (wellFormed_of_ofSource read), isSafe_iff⟩

theorem ofSource_render_triple_negative :
    ofSource "-(-(-a))" = .ok (.unary .negate (.unary .negate (.unary .negate (.global "a")))) ∧
      ∀ value, ofSource "---a" ≠ .ok value := by
  have read : ofSource "-(-(-a))" =
      .ok (.unary .negate (.unary .negate (.unary .negate (.global "a")))) := by cbv
  refine ⟨read, fun value accepted => ?_⟩
  have legible := ((ofSource_render_of_ofSource read).1 value).1 accepted
  exact absurd legible.1 (by decide)

/-- A denial in parentheses loses them, and takes in the operation that it was an operand of. -/
theorem ofSource_render_left_denial :
    ofSource "(not a) + b" = .ok (.binary .add (.unary .not (.global "a")) (.global "b")) ∧
      ofSource (Expr.binary .add (.unary .not (.global "a")) (.global "b")).render =
        .ok (.unary .not (.binary .add (.global "a") (.global "b"))) ∧
      Expr.unary .not (.binary .add (.global "a") (.global "b")) ≠
        .binary .add (.unary .not (.global "a")) (.global "b") := by
  refine ⟨by cbv, by cbv, by decide⟩

/-- The text of an expression reads as the expression itself exactly if that is safe. -/
theorem ofSource_render_eq_self_iff {source : String} {e : Expr} (read : ofSource source = .ok e) :
    ofSource e.render = .ok e ↔ e.isSafe = true := by
  rw [ofSource_render_iff_regrouped (wellFormed_of_ofSource read), isSafe_iff]

theorem ofSource_render_product :
    ofSource "- -a * (not b or 2 < c)" = .ok (.binary .multiply
      (.unary .negate (.unary .negate (.global "a")))
      (.binary .or (.unary .not (.global "b"))
        (.binary .less (.literal (.integer 2)) (.global "c")))) ∧
    ofSource "(--a * (not b or (2 < c)))" = .ok (.binary .multiply
      (.unary .negate (.unary .negate (.global "a")))
      (.binary .or (.unary .not (.global "b"))
        (.binary .less (.literal (.integer 2)) (.global "c")))) := by
  have read : ofSource "- -a * (not b or 2 < c)" = .ok (.binary .multiply
      (.unary .negate (.unary .negate (.global "a")))
      (.binary .or (.unary .not (.global "b"))
        (.binary .less (.literal (.integer 2)) (.global "c")))) := by cbv
  exact ⟨read, (ofSource_render_eq_self_iff read).2 (by decide)⟩

end Expr

end EventScript
