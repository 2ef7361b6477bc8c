import EventScript.Grammar.Rule

/-! Attempts. Where several rules are possible, each is attempted in turn: a refusal
puts the stream back and the next rule begins where the first one did. A parser
remembers the refusal that got furthest, since that one is the likeliest to say
what was meant. -/

namespace EventScript

structure Refusal where
  index : Nat
  fault : Fault
deriving DecidableEq, Repr

/-- Of two refusals that got equally far it is the earlier one. -/
def Refusal.further (earlier : Option Refusal) (refusal : Refusal) : Option Refusal :=
  match earlier with
  | none => some refusal
  | some first => if first.index < refusal.index then some refusal else some first

structure Parser where
  stream : TokenStream
  furthest : Option Refusal
deriving DecidableEq, Repr

/-- A failing step leaves the parser where it failed. -/
def Action (α : Type) : Type :=
  Parser → Except Fault α × Parser

namespace Parser

variable {α : Type}

def start (tokens : Tokens) : Parser :=
  ⟨tokens.stream, none⟩

def skipNewlines (parser : Parser) : Parser :=
  { parser with stream := parser.stream.skipNewlines }

def remember (refusal : Refusal) (parser : Parser) : Parser :=
  match parser.furthest with
  | none => { parser with furthest := some refusal }
  | some earlier =>
      if earlier.index < refusal.index then { parser with furthest := some refusal } else parser

def run (rule : Rule α) : Action α := fun parser =>
  match rule parser.stream with
  | .accepted value rest => (.ok value, { parser with stream := rest })
  | .refused fault rest => (.error fault, { parser with stream := rest })

/-- Tries an action. If it fails, the parser stands where it stood before, and the
place where the action gave up is remembered if it is the furthest. -/
def attempt (action : Action α) (parser : Parser) : Option α × Parser :=
  match action parser with
  | (.ok value, after) => (some value, after)
  | (.error fault, after) =>
      (none, { (after.remember ⟨after.stream.index, fault⟩) with stream := parser.stream })

def attemptAny : List (Rule α) → Parser → Option α × Parser
  | [], parser => (none, parser)
  | rule :: others, parser =>
      match parser.attempt (run rule) with
      | (some value, after) => (some value, after)
      | (none, after) => attemptAny others after

def furthestBeyond (parser : Parser) : Option Fault :=
  match parser.furthest with
  | some refusal => if parser.stream.index < refusal.index then some refusal.fault else none
  | none => none

/-! ## Progress -/

@[simp] theorem stream_remember (refusal : Refusal) (parser : Parser) :
    (parser.remember refusal).stream = parser.stream := by
  unfold remember
  split
  · rfl
  · split <;> rfl

theorem attempt_none {action : Action α} {parser after : Parser}
    (failed : parser.attempt action = (none, after)) : after.stream = parser.stream := by
  unfold attempt at failed
  split at failed
  · simp at failed
  · simp only [Prod.mk.injEq, true_and] at failed
    exact failed ▸ rfl

theorem attempt_run_some {rule : Rule α} {parser after : Parser} {value : α}
    (tried : parser.attempt (run rule) = (some value, after)) :
    rule parser.stream = .accepted value after.stream := by
  unfold attempt run at tried
  cases replied : rule parser.stream with
  | accepted result rest =>
      simp only [replied, Prod.mk.injEq, Option.some.injEq] at tried
      rw [← tried.1, ← tried.2]
  | refused fault rest => simp [replied] at tried

theorem attemptAny_none {rules : List (Rule α)} {parser after : Parser}
    (failed : attemptAny rules parser = (none, after)) : after.stream = parser.stream := by
  induction rules generalizing parser with
  | nil =>
      simp only [attemptAny, Prod.mk.injEq, true_and] at failed
      rw [failed]
  | cons rule others induction =>
      unfold attemptAny at failed
      split at failed
      · simp at failed
      · next refused => rw [induction failed, attempt_none refused]

theorem remaining_attemptAny_lt {rules : List (Rule α)} {parser after : Parser} {value : α}
    (consume : ∀ rule ∈ rules, rule.Consumes)
    (tried : attemptAny rules parser = (some value, after)) :
    after.stream.remaining < parser.stream.remaining := by
  induction rules generalizing parser with
  | nil => simp [attemptAny] at tried
  | cons rule others induction =>
      simp only [List.forall_mem_cons] at consume
      unfold attemptAny at tried
      split at tried
      · next result reached accepted =>
          simp only [Prod.mk.injEq, Option.some.injEq] at tried
          rw [← tried.2]
          exact consume.1 _ _ _ (attempt_run_some accepted)
      · next reached refused =>
          rw [← attempt_none refused]
          exact induction consume.2 tried

end Parser

end EventScript
