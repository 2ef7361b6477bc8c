import EventScript.Proofs.ExpressionGrammar

/-! Derived expressions are read. A level reads a derivation as far as it goes, provided
that what follows cannot be taken for a part of it; then it goes on with its operators. -/

namespace EventScript

namespace Expr

open TokenStream

/-! ## What may follow -/

/-- A token that cannot be taken for a part of the expression before it, except that an
operator of the level itself may go on with a chain. -/
structure Follows (level : Level) (token : Token) : Prop where
  notBreak : token.kind ≠ .newline
  notOpening : token.kind ≠ .leftParen
  loose : ∀ op, token.binaryOp? = some op →
    level.rank < op.level.rank ∨ op.level = level ∧ level ≠ .comparison

namespace Follows

variable {level : Level} {token : Token}

theorem rank_tighter_le (level : Level) : level.tighter.rank ≤ level.rank := by
  cases level <;> decide

theorem tighter (follows : Follows level token) : Follows level.tighter token where
  notBreak := follows.notBreak
  notOpening := follows.notOpening
  loose op found := by
    rcases follows.loose op found with looser | ⟨same, repeats⟩
    · exact .inl (Nat.lt_of_le_of_lt (rank_tighter_le level) looser)
    · refine .inl (same ▸ Level.rank_tighter_lt ?_)
      exact same ▸ level_ne_operand op

theorem binaryOpAt?_tighter (follows : Follows level token) :
    token.binaryOpAt? level.tighter = none := by
  cases found : token.binaryOpAt? level.tighter with
  | none => rfl
  | some op =>
      rcases binaryOpAt?_eq_some.1 found with ⟨operator, same⟩
      rcases follows.loose op operator with looser | ⟨same', repeats⟩
      · have le := rank_tighter_le level
        rw [same] at looser
        omega
      · have lt : level.tighter.rank < level.rank :=
          Level.rank_tighter_lt (same' ▸ level_ne_operand op)
        rw [← same, same'] at lt
        omega

theorem binaryOpAt?_comparison (follows : Follows .comparison token) :
    token.binaryOpAt? .comparison = none := by
  cases found : token.binaryOpAt? .comparison with
  | none => rfl
  | some op =>
      rcases binaryOpAt?_eq_some.1 found with ⟨operator, same⟩
      rcases follows.loose op operator with looser | ⟨_, repeats⟩
      · rw [same] at looser
        omega
      · contradiction

theorem of_operator {op : BinaryOp} {left : Level} (found : token.binaryOp? = some op)
    (loose : left.rank < op.level.rank ∨ op.level = left ∧ left ≠ .comparison) :
    Follows left token where
  notBreak := (kind_of_binaryOp? found).1
  notOpening := (kind_of_binaryOp? found).2.2.1
  loose op' found' := by
    rw [found] at found'
    injection found' with same
    exact same ▸ loose

theorem of_none (notBreak : token.kind ≠ .newline) (notOpening : token.kind ≠ .leftParen)
    (noOperator : token.binaryOp? = none) : Follows level token where
  notBreak := notBreak
  notOpening := notOpening
  loose op found := by simp [noOperator] at found

end Follows

theorem eq_of_reads_done {level : Level} {stream rest : TokenStream} {left value : Expr}
    (noOperator : stream.current.binaryOpAt? level = none)
    (reading : Reads level (some left) stream value rest) : value = left ∧ rest = stream := by
  cases reading with
  | done => exact ⟨rfl, rfl⟩
  | compared operator => simp [noOperator] at operator
  | joined _ operator => simp [noOperator] at operator

/-! ## Steps over tokens and line terminators -/

namespace Covers

variable {stream after : TokenStream} {first second tokens : List Token} {token : Token}

theorem split (covers : Covers (first ++ second) stream after) :
    ∃ middle, Covers first stream middle ∧ Covers second middle after := by
  rcases covers with ⟨_, spread, passed⟩
  rcases spread.split with ⟨left, right, rfl, leftSpread, rightSpread⟩
  rcases passed.split with ⟨middle, leftPassed, rightPassed⟩
  exact ⟨middle, ⟨left, leftSpread, leftPassed⟩, ⟨right, rightSpread, rightPassed⟩⟩

theorem current (covers : Covers (token :: tokens) stream after) : stream.current = token := by
  rcases covers with ⟨_, spread, passed⟩
  cases spread with
  | cons => exact current_eq passed.ahead

theorem exists_run (covers : Covers (token :: tokens) stream after) :
    ∃ run middle, Breaks run ∧ stream.advance.Passed run middle ∧ Covers tokens middle after ∧
      (token.isWord "has_item" = true →
        (∃ opening ∈ tokens.head?, opening.kind = .leftParen) → run = []) := by
  rcases covers with ⟨_, spread, passed⟩
  cases spread with
  | @cons _ run _ lines breaks unbroken others =>
      have advanced := passed_advance passed.ahead
      have parts : token :: (run ++ lines) = [token] ++ (run ++ lines) := rfl
      rw [parts] at passed
      rcases passed.split with ⟨behind, firstPassed, rest⟩
      rcases rest.split with ⟨middle, runPassed, othersPassed⟩
      rw [← advanced.eq firstPassed] at runPassed
      exact ⟨run, middle, breaks, runPassed, ⟨lines, others, othersPassed⟩, unbroken⟩

theorem eq_of_nil (covers : Covers [] stream after) : stream = after := by
  rcases covers with ⟨_, spread, passed⟩
  cases spread with
  | nil => exact (Passed.nothing stream).eq passed

theorem current_kind_ne_newline (covers : Covers tokens stream after)
    (unbroken : ∀ token ∈ tokens, token.kind ≠ .newline) (stops : after.current.kind ≠ .newline) :
    stream.current.kind ≠ .newline := by
  cases tokens with
  | nil =>
      rw [covers.eq_of_nil]
      exact stops
  | cons token others =>
      rw [covers.current]
      exact unbroken token (by simp)

theorem rest (covers : Covers (token :: tokens) stream after)
    (unbroken : ∀ other ∈ tokens, other.kind ≠ .newline) (stops : after.current.kind ≠ .newline) :
    Covers tokens stream.step after := by
  rcases covers.exists_run with ⟨run, middle, breaks, runPassed, others, _⟩
  have notBreak := others.current_kind_ne_newline unbroken stops
  rw [TokenStream.step, skipNewlines_eq breaks runPassed notBreak]
  exact others

theorem step_eq (covers : Covers [token] stream after) (stops : after.current.kind ≠ .newline) :
    stream.step = after :=
  (covers.rest (by simp) stops).eq_of_nil

end Covers

/-! ## Operands of a single token -/

theorem reads_atom {stream after : TokenStream} {token : Token} {value : Expr}
    (found : atom? token = some value) (covers : Covers [token] stream after)
    (follows : Follows .operand after.current) : Reads .operand none stream value after := by
  have current := covers.current
  have noCall : atCall stream = false := by
    unfold atCall
    split
    · rcases covers.exists_run with ⟨run, middle, breaks, runPassed, nothing, _⟩
      rw [nothing.eq_of_nil] at runPassed
      cases run with
      | nil =>
          rw [(Passed.nothing _).eq runPassed]
          simpa using follows.notOpening
      | cons lineEnd others =>
          rw [current_eq runPassed.ahead, breaks lineEnd (by simp)]
          rfl
    · rfl
  have unopened : stream.current.kind ≠ .leftParen := by
    rw [current]
    intro opens
    simp [atom?, opens] at found
  apply Reads.simple unopened
  rw [simpleOperand, noCall, current, found]
  simp [covers.step_eq follows.notBreak]

theorem atom?_global {token : Token} (isName : token.kind = .identifier)
    (free : token.value ∉ reserved) : atom? token = some (.global token.value) := by
  simp only [reserved, List.mem_cons, List.not_mem_nil, or_false, not_or] at free
  simp [atom?, isName, free]

theorem reads_question {stream after : TokenStream} {word opening item closing : Token}
    (asks : word.isWord "has_item" = true) (opens : opening.kind = .leftParen)
    (isName : item.kind = .identifier) (closes : closing.kind = .rightParen)
    (covers : Covers [word, opening, item, closing] stream after)
    (stops : after.current.kind ≠ .newline) :
    Reads .operand none stream (.hasItem item.value) after := by
  have isWord := kind_of_isWord asks
  have current := covers.current
  have second := covers.rest (by simp [opens, isName, closes]) stops
  have third := second.rest (by simp [isName, closes]) stops
  have fourth := third.rest (by simp [closes]) stops
  have free : atom? word = some (.global word.value) :=
    atom?_global isWord.1 (by simp [reserved, isWord.2])
  have call : atCall stream = true := by
    rcases covers.exists_run with ⟨run, middle, _, runPassed, others, unbroken⟩
    rw [unbroken asks ⟨opening, rfl, opens⟩] at runPassed
    have behind : stream.advance.current = opening := by
      rw [(Passed.nothing _).eq runPassed]
      exact others.current
    simp [atCall, current, free, behind, opens]
  apply Reads.simple (by simp [current, isWord.1])
  rw [simpleOperand, if_pos call, if_pos (by rw [current, isWord.2])]
  simp only [itemQuestion, Rule.bind_accepted, Rule.pure_accepted, expect_accepted]
  exact ⟨opening, _, ⟨by rw [second.current, opens], second.current, rfl⟩, item, _,
    ⟨by rw [third.current, isName], third.current, rfl⟩, closing, _,
    ⟨by rw [fourth.current, closes], fourth.current, fourth.step_eq stops⟩, rfl, rfl⟩

/-! ## Derivations are read -/

theorem atom?_integer {token : Token} (isInteger : token.kind = .integer)
    (short : token.value.length ≤ Text.Decimal.maxDigits) :
    atom? token = some (.literal (.integer (Text.Decimal.toNat token.value.toList))) := by
  simp [atom?, isInteger, short]

theorem atom?_boolean {token : Token} (value : Bool)
    (isWord : token.isWord (if value then "true" else "false") = true) :
    atom? token = some (.literal (.boolean value)) := by
  have word := kind_of_isWord isWord
  cases value <;> simp [atom?, word]

theorem unbroken_of_derives {level : Level} {tokens : List Token} {value : Expr}
    (derived : Derives level tokens value) : ∀ token ∈ tokens, token.kind ≠ .newline :=
  fun token member => (kind_of_derives derived token member).1

theorem reads_of_whole {level : Level} {stream after rest : TokenStream} {value result : Expr}
    (noOperators : ∀ op : BinaryOp, op.level ≠ level)
    (whole : Reads level none stream value after)
    (more : Reads level (some value) after result rest) :
    Reads level none stream result rest := by
  rcases eq_of_reads_done (binaryOpAt?_eq_none noOperators _) more with ⟨rfl, rfl⟩
  exact whole

/-- A level reads the tokens of a derivation, whatever line terminators are among them, and
goes on after them as after any expression it has read. -/
theorem reads_of_derives {level : Level} {tokens : List Token} {value : Expr}
    (derived : Derives level tokens value) {stream after : TokenStream}
    (covers : Covers tokens stream after) (follows : Follows level after.current)
    {result : Expr} {rest : TokenStream} (more : Reads level (some value) after result rest) :
    Reads level none stream result rest := by
  induction derived generalizing stream after result rest with
  | integer isInteger short =>
      exact reads_of_whole level_ne_operand
        (reads_atom (atom?_integer isInteger short) covers follows) more
  | text isText =>
      exact reads_of_whole level_ne_operand
        (reads_atom (by simp [atom?, isText]) covers follows) more
  | truth isTrue =>
      exact reads_of_whole level_ne_operand
        (reads_atom (atom?_boolean true isTrue) covers follows) more
  | falsity isFalse =>
      exact reads_of_whole level_ne_operand
        (reads_atom (atom?_boolean false isFalse) covers follows) more
  | global isName free =>
      exact reads_of_whole level_ne_operand
        (reads_atom (atom?_global isName free) covers follows) more
  | question asks opens isName closes =>
      exact reads_of_whole level_ne_operand
        (reads_question asks opens isName closes covers follows.notBreak) more
  | @enclosed _ closing _ _ opens derived closes induction =>
      refine reads_of_whole level_ne_operand ?_ more
      have notBreak : closing.kind ≠ .newline := by simp [closes]
      have unbroken := List.forall_mem_append.2
        ⟨unbroken_of_derives derived, List.forall_mem_singleton.2 notBreak⟩
      rcases (covers.rest unbroken follows.notBreak).split with
        ⟨middle, insideCovers, closingCovers⟩
      have currentClosing := closingCovers.current
      have stops : Follows .disjunction middle.current := by
        rw [currentClosing]
        exact .of_none (by simp [closes]) (by simp [closes]) (by simp [Token.binaryOp?, closes])
      have reading := induction insideCovers stops (.done (by
        simp [currentClosing, Token.binaryOpAt?, Token.binaryOp?, closes]))
      rw [← closingCovers.step_eq follows.notBreak]
      exact .enclosed (by rw [covers.current, opens]) reading (by rw [currentClosing, closes])
  | negative signs derived induction =>
      refine reads_of_whole level_ne_sign ?_ more
      have operand := covers.rest (unbroken_of_derives derived) follows.notBreak
      exact .negative (by rw [covers.current, signs])
        (induction operand follows (.done (binaryOpAt?_eq_none level_ne_sign _)))
  | denied denies derived induction =>
      refine reads_of_whole level_ne_negation ?_ more
      have operand := covers.rest (unbroken_of_derives derived) follows.notBreak
      exact .denied (by rw [covers.current, denies])
        (induction operand follows (.done (binaryOpAt?_eq_none level_ne_negation _)))
  | compared _ operator rightDerived leftInduction rightInduction =>
      rcases eq_of_reads_done follows.binaryOpAt?_comparison more with ⟨rfl, rfl⟩
      rcases covers.split with ⟨middle, leftCovers, signCovers⟩
      have current := signCovers.current
      have rightCovers := signCovers.rest (unbroken_of_derives rightDerived) follows.notBreak
      rcases binaryOpAt?_eq_some.1 operator with ⟨found, isComparison⟩
      have leftFollows : Follows .sum middle.current := by
        rw [current]
        exact .of_operator found (.inl (by rw [isComparison]; decide))
      have left := leftInduction leftCovers leftFollows (.done (by
        cases sameLevel : middle.current.binaryOpAt? .sum with
        | none => rfl
        | some op =>
            rw [current, binaryOpAt?_eq_some, found] at sameLevel
            rcases sameLevel with ⟨same, isSum⟩
            injection same with same
            rw [same, isSum] at isComparison
            contradiction))
      have right := rightInduction rightCovers follows.tighter (.done follows.binaryOpAt?_tighter)
      exact .tighter (by decide) (by simp) (by simp) left (.compared (current ▸ operator) right)
  | @joined level _ _ _ _ _ _ repeats _ operator rightDerived leftInduction rightInduction =>
      rcases covers.split with ⟨middle, leftCovers, signCovers⟩
      have current := signCovers.current
      have rightCovers := signCovers.rest (unbroken_of_derives rightDerived) follows.notBreak
      rcases binaryOpAt?_eq_some.1 operator with ⟨found, sameLevel⟩
      have leftFollows : Follows level middle.current := by
        rw [current]
        exact .of_operator found (.inr ⟨sameLevel, repeats⟩)
      have right := rightInduction rightCovers follows.tighter (.done follows.binaryOpAt?_tighter)
      exact leftInduction leftCovers leftFollows (.joined repeats (current ▸ operator) right more)
  | @tighter level tokens value derived induction =>
      by_cases last : level = .operand
      · subst last
        exact induction covers follows more
      · have whole := induction covers follows.tighter (.done follows.binaryOpAt?_tighter)
        rcases head_of_derives derived with ⟨token, others, rfl, unsigned, undenied⟩
        have current := covers.current
        refine .tighter last ?_ ?_ whole more
        · intro holds
          rcases holds with ⟨isSign, sign⟩
          subst isSign
          exact unsigned rfl (current ▸ sign)
        · intro holds
          rcases holds with ⟨isNegation, denial⟩
          subst isNegation
          have undenied := undenied (by decide)
          rw [← current, denial] at undenied
          contradiction

/-! ## Whole expressions -/

/-- The expression is written with these tokens, line terminators included. -/
def Spells (value : Expr) (lines : List Token) : Prop :=
  ∃ run tokens spread, lines = run ++ spread ∧ Breaks run ∧ Spread tokens spread ∧
    Derives .disjunction tokens value

namespace Spells

variable {value : Expr} {lines : List Token}

theorem of_derives {tokens : List Token} (derived : Derives .disjunction tokens value) :
    Spells value tokens :=
  ⟨[], tokens, tokens, rfl, breaks_nil, .self tokens, derived⟩

theorem derives (spells : Spells value lines) : Derives .disjunction (spoken lines) value := by
  rcases spells with ⟨run, tokens, spread, rfl, breaks, isSpread, derived⟩
  rw [spoken_append, spoken_eq_nil breaks, List.nil_append,
    isSpread.spoken_eq (unbroken_of_derives derived)]
  exact derived

theorem append_breaks (spells : Spells value lines) {run : List Token} (breaks : Breaks run) :
    Spells value (lines ++ run) := by
  rcases spells with ⟨front, tokens, spread, rfl, frontBreaks, isSpread, derived⟩
  rcases head_of_derives derived with ⟨token, others, rfl, _⟩
  exact ⟨front, _, spread ++ run, by simp, frontBreaks, isSpread.append_breaks breaks, derived⟩

end Spells

theorem rule_accepted_of_spells {value : Expr} {lines : List Token} (spells : Spells value lines)
    {stream after : TokenStream} (passed : stream.Passed lines after)
    (notBreak : after.current.kind ≠ .newline) (notOpening : after.current.kind ≠ .leftParen)
    (noOperator : after.current.binaryOp? = none) : rule stream = .accepted value after := by
  rcases spells with ⟨run, tokens, spread, rfl, breaks, isSpread, derived⟩
  rcases passed.split with ⟨start, runPassed, spreadPassed⟩
  have covers : Covers tokens start after := ⟨spread, isSpread, spreadPassed⟩
  have starts := covers.current_kind_ne_newline (unbroken_of_derives derived) notBreak
  rw [rule_accepted_iff, skipNewlines_eq breaks runPassed starts]
  exact reads_of_derives derived covers (.of_none notBreak notOpening noOperator)
    (.done (by simp [Token.binaryOpAt?, noOperator]))

theorem spells_of_rule_accepted {stream after : TokenStream} {value : Expr}
    (accepted : rule stream = .accepted value after) :
    ∃ lines, stream.Passed lines after ∧ Spells value lines := by
  rcases passed_skipNewlines stream with ⟨run, breaks, skipped⟩
  rcases covers_of_reads (rule_accepted_iff.1 accepted) with
    ⟨tokens, ⟨spread, isSpread, spreadPassed⟩, derived, _⟩
  exact ⟨run ++ spread, skipped.trans spreadPassed, run, tokens, spread, rfl, breaks, isSpread,
    derived⟩

theorem ahead_eq_nil_of_atEnd {stream : TokenStream} {tokens : List Token}
    (wellFormed : ∀ token ∈ tokens, token.WellFormed) {passed : List Token}
    (split : tokens = passed ++ stream.ahead) (atEnd : stream.current.kind = .endOfInput) :
    stream.ahead = [] := by
  cases ahead : stream.ahead with
  | nil => rfl
  | cons token rest =>
      rw [current_eq ahead] at atEnd
      exact absurd atEnd (wellFormed token (by simp [split, ahead])).notEnd

theorem rule_accepted_of_derives {tokens : Tokens} {value : Expr}
    (derived : Derives .disjunction tokens.list value) :
    rule tokens.stream = .accepted value ⟨tokens.list.length, [], tokens.finish⟩ := by
  apply rule_accepted_of_spells (.of_derives derived) (.whole tokens)
  · simp [current, Token.atEnd]
  · simp [current, Token.atEnd]
  · simp [current, Token.atEnd, Token.binaryOp?]

theorem eq_list_of_passed {tokens : Tokens} {lines : List Token} {rest : TokenStream}
    (passed : tokens.stream.Passed lines rest) (reached : rest.index = tokens.list.length) :
    lines = tokens.list := by
  have list : tokens.list = lines ++ rest.ahead := passed.ahead
  have index : rest.index = 0 + lines.length := passed.index
  have whole := congrArg List.length list
  rw [List.length_append] at whole
  have nothing : rest.ahead = [] := List.length_eq_zero_iff.1 (by omega)
  rw [list, nothing, List.append_nil]

/-- The expressions that are accepted to the last of the tokens are those that the tokens
derive, of which there is at most one. -/
theorem rule_accepted_iff_derives {tokens : Tokens}
    (unbroken : ∀ token ∈ tokens.list, token.kind ≠ .newline) :
    (∀ value, (∃ rest, rule tokens.stream = .accepted value rest ∧
        rest.index = tokens.list.length) ↔ Derives .disjunction tokens.list value) ∧
      ∀ value other, Derives .disjunction tokens.list value →
        Derives .disjunction tokens.list other → value = other := by
  refine ⟨fun value => ⟨?_, fun derived => ⟨_, rule_accepted_of_derives derived, rfl⟩⟩, ?_⟩
  · intro holds
    rcases holds with ⟨rest, accepted, reached⟩
    rcases spells_of_rule_accepted accepted with ⟨lines, passed, spells⟩
    have derived := spells.derives
    rw [eq_list_of_passed passed reached, spoken_eq_self unbroken] at derived
    exact derived
  · intro value other derived otherDerived
    have accepted := rule_accepted_of_derives derived
    rw [rule_accepted_of_derives otherDerived] at accepted
    injection accepted with same
    exact same.symm

theorem derives_mixed : ∃ tokens, Tokens.ofText "not a == 9 - 2 * 3 - b or c" = .ok tokens ∧
    (∀ token ∈ tokens.list, token.kind ≠ .newline) ∧
    Derives .disjunction tokens.list (.binary .or
      (.unary .not (.binary .equal (.global "a")
        (.binary .subtract (.binary .subtract (.literal (.integer 9))
          (.binary .multiply (.literal (.integer 2)) (.literal (.integer 3)))) (.global "b"))))
      (.global "c")) := by
  have lexed : Tokens.ofText "not a == 9 - 2 * 3 - b or c" = .ok
      ⟨[⟨.identifier, "not", ⟨1, 1⟩⟩, ⟨.identifier, "a", ⟨1, 5⟩⟩, ⟨.equal, "==", ⟨1, 7⟩⟩,
        ⟨.integer, "9", ⟨1, 10⟩⟩, ⟨.minus, "-", ⟨1, 12⟩⟩, ⟨.integer, "2", ⟨1, 14⟩⟩,
        ⟨.star, "*", ⟨1, 16⟩⟩, ⟨.integer, "3", ⟨1, 18⟩⟩, ⟨.minus, "-", ⟨1, 20⟩⟩,
        ⟨.identifier, "b", ⟨1, 22⟩⟩, ⟨.identifier, "or", ⟨1, 24⟩⟩, ⟨.identifier, "c", ⟨1, 27⟩⟩],
        ⟨1, 28⟩⟩ := by decide +kernel
  refine ⟨_, lexed, by decide, ?_⟩
  exact ((rule_accepted_iff_derives (by decide)).1 _).1 ⟨⟨12, [], ⟨1, 28⟩⟩, by cbv, rfl⟩

theorem spells_of_ofSource {source : String} {value : Expr}
    (accepted : ofSource source = .ok value) :
    ∃ tokens, Tokens.ofText source = .ok tokens ∧ Spells value tokens.list := by
  unfold ofSource at accepted
  split at accepted
  · contradiction
  · next tokens read =>
      split at accepted
      · contradiction
      · next result rest ruleAccepted =>
          split at accepted
          · next atEnd =>
              injection accepted with same
              subst same
              rcases spells_of_rule_accepted ruleAccepted with ⟨passed, passedRest, spells⟩
              have split : tokens.list = passed ++ rest.ahead := passedRest.ahead
              have whole := ahead_eq_nil_of_atEnd (Tokens.wellFormed_of_ofText read) split atEnd
              rw [whole, List.append_nil] at split
              exact ⟨tokens, read, split ▸ spells⟩
          · contradiction

theorem derives_of_ofSource {source : String} {value : Expr}
    (accepted : ofSource source = .ok value) :
    ∃ tokens, Tokens.ofText source = .ok tokens ∧
      Derives .disjunction (spoken tokens.list) value := by
  rcases spells_of_ofSource accepted with ⟨tokens, read, spells⟩
  exact ⟨tokens, read, spells.derives⟩

theorem ofSource_eq_ok_iff {source : String} {tokens : Tokens}
    (read : Tokens.ofText source = .ok tokens)
    (unbroken : ∀ token ∈ tokens.list, token.kind ≠ .newline) {value : Expr} :
    ofSource source = .ok value ↔ Derives .disjunction tokens.list value := by
  constructor
  · intro accepted
    rcases derives_of_ofSource accepted with ⟨tokens', read', derived⟩
    rw [read] at read'
    injection read' with same
    subst same
    rwa [spoken_eq_self unbroken] at derived
  · intro derived
    simp [ofSource, read, rule_accepted_of_derives derived, current, Token.atEnd]

end Expr

end EventScript
