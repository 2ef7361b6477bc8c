import EventScript.Grammar.Expression
import EventScript.Proofs.Rules

/-! The accepted readings of an expression, as a relation: one rule for each way in which
a level can accept. What holds of every accepted reading is shown by induction on
this relation. -/

namespace EventScript

namespace Expr

open TokenStream

/-! ## Levels as rules

Each branch of a level is a rule in sequence with others. The bounds that let the levels
call one another are left behind here. -/

def parse (level : Level) : Rule Expr := fun stream => (read level stream).val

def parseMore (level : Level) (left : Expr) : Rule Expr := fun stream =>
  (readChain level left stream).val

theorem parse_enclosed {stream : TokenStream} (opening : stream.current.kind = .leftParen) :
    parse .operand stream =
      (do
        let inner ← parse .disjunction
        let _ ← expect .rightParen
        return inner : Rule Expr) stream.step := by
  simp only [Rule.bind_apply, Rule.pure_apply, parse]
  rw [read]
  simp only [opening, ↓reduceDIte]
  cases inside : read .disjunction stream.step with
  | mk reply fewer =>
      cases reply with
      | accepted inner rest =>
          dsimp only
          split
          · next closing => simp only [closing]; rfl
          · next closing => simp only [closing]; rfl
      | refused fault rest => rfl

theorem parse_simple {stream : TokenStream} (unopened : stream.current.kind ≠ .leftParen) :
    parse .operand stream = simpleOperand stream := by
  rw [parse, read]
  simp only [unopened, ↓reduceDIte]

theorem parse_negative {stream : TokenStream} (sign : stream.current.kind = .minus) :
    parse .sign stream =
      (do
        let operand ← parse .sign
        return .unary .negate operand : Rule Expr) stream.step := by
  simp only [Rule.bind_apply, Rule.pure_apply, parse]
  rw [read]
  simp only [sign, ↓reduceDIte, reduceCtorEq, and_self]
  cases inside : read .sign stream.step with
  | mk reply fewer => cases reply <;> rfl

theorem parse_denied {stream : TokenStream} (denial : stream.current.isWord "not" = true) :
    parse .negation stream =
      (do
        let operand ← parse .negation
        return .unary .not operand : Rule Expr) stream.step := by
  simp only [Rule.bind_apply, Rule.pure_apply, parse]
  rw [read]
  simp only [denial, ↓reduceDIte, reduceCtorEq, and_self, false_and]
  cases inside : read .negation stream.step with
  | mk reply fewer => cases reply <;> rfl

theorem parse_tighter {level : Level} {stream : TokenStream} (notLast : level ≠ .operand)
    (unsigned : ¬(level = .sign ∧ stream.current.kind = .minus))
    (undenied : ¬(level = .negation ∧ stream.current.isWord "not" = true)) :
    parse level stream = (parse level.tighter >>= parseMore level) stream := by
  simp only [Rule.bind_apply, parse, parseMore]
  rw [read]
  simp only [notLast, unsigned, undenied, ↓reduceDIte]
  cases inside : read level.tighter stream with
  | mk reply fewer => cases reply <;> rfl

theorem parseMore_done {level : Level} {left : Expr} {stream : TokenStream}
    (noOperator : stream.current.binaryOpAt? level = none) :
    parseMore level left stream = .accepted left stream := by
  rw [parseMore, readChain]
  split
  · rfl
  · next found => simp [noOperator] at found

theorem parseMore_joined {level : Level} {left : Expr} {stream : TokenStream} {op : BinaryOp}
    (operator : stream.current.binaryOpAt? level = some op) :
    parseMore level left stream =
      (do
        let right ← parse level.tighter
        if level = .comparison then return .binary op left right
        else parseMore level (.binary op left right) : Rule Expr) stream.step := by
  simp only [Rule.bind_apply, parse, parseMore]
  rw [readChain]
  split
  · next found => simp [operator] at found
  · next op' found =>
      rw [operator] at found
      injection found with same
      subst same
      dsimp only
      cases inside : read level.tighter stream.step with
      | mk reply fewer =>
          cases reply with
          | accepted right rest =>
              dsimp only
              split <;> rfl
          | refused fault rest => rfl
/-! ## Accepted readings -/

/-- How a level accepts. Without anything read before, the level begins an expression; with
an expression read before, it goes on after that one with the operators of the level. -/
inductive Reads : Level → Option Expr → TokenStream → Expr → TokenStream → Prop
  | enclosed {stream middle : TokenStream} {value : Expr}
      (opening : stream.current.kind = .leftParen)
      (inside : Reads .disjunction none stream.step value middle)
      (closing : middle.current.kind = .rightParen) :
      Reads .operand none stream value middle.step
  | simple {stream rest : TokenStream} {value : Expr}
      (unopened : stream.current.kind ≠ .leftParen)
      (accepted : simpleOperand stream = .accepted value rest) :
      Reads .operand none stream value rest
  | negative {stream rest : TokenStream} {value : Expr}
      (sign : stream.current.kind = .minus)
      (operand : Reads .sign none stream.step value rest) :
      Reads .sign none stream (.unary .negate value) rest
  | denied {stream rest : TokenStream} {value : Expr}
      (denial : stream.current.isWord "not" = true)
      (operand : Reads .negation none stream.step value rest) :
      Reads .negation none stream (.unary .not value) rest
  | tighter {level : Level} {stream middle rest : TokenStream} {left value : Expr}
      (notLast : level ≠ .operand)
      (unsigned : ¬(level = .sign ∧ stream.current.kind = .minus))
      (undenied : ¬(level = .negation ∧ stream.current.isWord "not" = true))
      (first : Reads level.tighter none stream left middle)
      (others : Reads level (some left) middle value rest) :
      Reads level none stream value rest
  | done {level : Level} {stream : TokenStream} {left : Expr}
      (noOperator : stream.current.binaryOpAt? level = none) :
      Reads level (some left) stream left stream
  | compared {stream rest : TokenStream} {left right : Expr} {op : BinaryOp}
      (operator : stream.current.binaryOpAt? .comparison = some op)
      (operand : Reads .sum none stream.step right rest) :
      Reads .comparison (some left) stream (.binary op left right) rest
  | joined {level : Level} {stream middle rest : TokenStream} {left right value : Expr}
      {op : BinaryOp} (repeats : level ≠ .comparison)
      (operator : stream.current.binaryOpAt? level = some op)
      (operand : Reads level.tighter none stream.step right middle)
      (others : Reads level (some (.binary op left right)) middle value rest) :
      Reads level (some left) stream value rest

theorem expect_accepted {kind : TokenKind} {stream rest : TokenStream} {token : Token} :
    expect kind stream = .accepted token rest ↔
      stream.current.kind = kind ∧ stream.current = token ∧ stream.step = rest := by
  simp only [expect, Rule.bind_accepted, Rule.pure_accepted, Rule.skipNewlines_accepted,
    Rule.expect, Rule.token_accepted, beq_iff_eq]
  constructor
  · intro holds
    rcases holds with ⟨first, middle, ⟨sameKind, rfl, rfl⟩, _, after, rfl, rfl, rfl⟩
    exact ⟨sameKind, rfl, rfl⟩
  · intro holds
    rcases holds with ⟨sameKind, rfl, rfl⟩
    exact ⟨_, _, ⟨sameKind, rfl, rfl⟩, (), _, rfl, rfl, rfl⟩

theorem reads_operand {stream rest : TokenStream} {value : Expr}
    (inside : ∀ inner middle, stream.current.kind = .leftParen →
      parse .disjunction stream.step = .accepted inner middle →
        Reads .disjunction none stream.step inner middle)
    (accepted : parse .operand stream = .accepted value rest) :
    Reads .operand none stream value rest := by
  by_cases opening : stream.current.kind = .leftParen
  · rw [parse_enclosed opening] at accepted
    simp only [Rule.bind_accepted, Rule.pure_accepted, expect_accepted] at accepted
    rcases accepted with ⟨inner, middle, reached, _, _, ⟨closing, _, rfl⟩, rfl, rfl⟩
    exact .enclosed opening (inside inner middle opening reached) closing
  · rw [parse_simple opening] at accepted
    exact .simple opening accepted

mutual

theorem reads_of_parse {level : Level} {stream rest : TokenStream} {value : Expr}
    (accepted : parse level stream = .accepted value rest) :
    Reads level none stream value rest := by
  by_cases last : level = .operand
  · subst last
    refine reads_operand (fun inner middle opening reached => ?_) accepted
    have stepped : stream.step.remaining < stream.remaining :=
      remaining_step_lt (by simp [opening])
    exact reads_of_parse reached
  by_cases signed : level = .sign ∧ stream.current.kind = .minus
  · rcases signed with ⟨rfl, sign⟩
    have stepped : stream.step.remaining < stream.remaining :=
      remaining_step_lt (by simp [sign])
    rw [parse_negative sign] at accepted
    simp only [Rule.bind_accepted, Rule.pure_accepted] at accepted
    rcases accepted with ⟨operand, middle, reached, rfl, rfl⟩
    exact .negative sign (reads_of_parse reached)
  by_cases negated : level = .negation ∧ stream.current.isWord "not" = true
  · rcases negated with ⟨rfl, denial⟩
    have stepped := remaining_step_lt (Token.kind_ne_endOfInput_of_isWord denial)
    rw [parse_denied denial] at accepted
    simp only [Rule.bind_accepted, Rule.pure_accepted] at accepted
    rcases accepted with ⟨operand, middle, reached, rfl, rfl⟩
    exact .denied denial (reads_of_parse reached)
  have tighter := Level.rank_tighter_lt last
  rw [parse_tighter last signed negated] at accepted
  rcases (Rule.bind_accepted _).1 accepted with ⟨left, middle, reached, more⟩
  have passed : middle.remaining < stream.remaining :=
    (read level.tighter stream).property left middle reached
  exact .tighter last signed negated (reads_of_parse reached) (reads_of_parseMore more)
termination_by (stream.remaining, level.rank)

theorem reads_of_parseMore {level : Level} {left : Expr} {stream rest : TokenStream} {value : Expr}
    (accepted : parseMore level left stream = .accepted value rest) :
    Reads level (some left) stream value rest := by
  cases operator : stream.current.binaryOpAt? level with
  | none =>
      rw [parseMore_done operator] at accepted
      injection accepted with sameValue sameRest
      subst sameValue sameRest
      exact .done operator
  | some op =>
      have stepped := remaining_step_lt (Token.kind_ne_endOfInput_of_binaryOpAt? operator)
      rw [parseMore_joined operator] at accepted
      rcases (Rule.bind_accepted _).1 accepted with ⟨right, middle, reached, more⟩
      have passed : middle.remaining < stream.step.remaining :=
        (read level.tighter stream.step).property right middle reached
      by_cases once : level = .comparison
      · subst once
        rw [if_pos rfl, Rule.pure_accepted] at more
        rcases more with ⟨rfl, rfl⟩
        exact .compared operator (reads_of_parse reached)
      · rw [if_neg once] at more
        exact .joined once operator (reads_of_parse reached) (reads_of_parseMore more)
termination_by (stream.remaining, level.rank)

end

def parseFrom (level : Level) : Option Expr → Rule Expr
  | none => parse level
  | some left => parseMore level left

theorem parse_of_reads {level : Level} {before : Option Expr} {stream rest : TokenStream}
    {value : Expr} (reading : Reads level before stream value rest) :
    parseFrom level before stream = .accepted value rest := by
  induction reading with
  | enclosed opening _ closing induction =>
      apply (parse_enclosed opening).trans
      simp only [Rule.bind_accepted, Rule.pure_accepted, expect_accepted]
      exact ⟨_, _, induction, _, _, ⟨closing, rfl, rfl⟩, rfl, rfl⟩
  | simple unopened accepted => exact (parse_simple unopened).trans accepted
  | negative sign _ induction =>
      apply (parse_negative sign).trans
      simp only [Rule.bind_accepted, Rule.pure_accepted]
      exact ⟨_, _, induction, rfl, rfl⟩
  | denied denial _ induction =>
      apply (parse_denied denial).trans
      simp only [Rule.bind_accepted, Rule.pure_accepted]
      exact ⟨_, _, induction, rfl, rfl⟩
  | tighter notLast unsigned undenied _ _ first others =>
      apply (parse_tighter notLast unsigned undenied).trans
      exact (Rule.bind_accepted _).2 ⟨_, _, first, others⟩
  | done noOperator => exact parseMore_done noOperator
  | compared operator _ induction =>
      apply (parseMore_joined operator).trans
      refine (Rule.bind_accepted _).2 ⟨_, _, induction, ?_⟩
      rw [if_pos rfl, Rule.pure_accepted]
      exact ⟨rfl, rfl⟩
  | joined repeats operator _ _ operand others =>
      apply (parseMore_joined operator).trans
      refine (Rule.bind_accepted _).2 ⟨_, _, operand, ?_⟩
      rw [if_neg repeats]
      exact others

theorem rule_accepted_iff {stream rest : TokenStream} {value : Expr} :
    rule stream = .accepted value rest ↔
      Reads .disjunction none stream.skipNewlines value rest :=
  ⟨fun accepted => reads_of_parse accepted, fun reading => parse_of_reads reading⟩

end Expr

end EventScript
