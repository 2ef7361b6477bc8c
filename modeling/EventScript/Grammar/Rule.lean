import EventScript.Grammar.Complaint
import EventScript.Token.Stream

/-! Grammar rules. A rule reads from a stream and either accepts, with a value and
the rest of the stream, or refuses, with a fault and the stream where it gave
up. Rules are put together in sequence; a sequence refuses where its first
refusing part does. -/

namespace EventScript

inductive Reply (α : Type) where
  | accepted (value : α) (rest : TokenStream)
  | refused (fault : Fault) (rest : TokenStream)
deriving Repr

def Rule (α : Type) : Type :=
  TokenStream → Reply α

namespace Rule

variable {α β : Type}

instance : Monad Rule where
  pure value := fun stream => .accepted value stream
  bind rule next := fun stream =>
    match rule stream with
    | .accepted value rest => next value rest
    | .refused fault rest => .refused fault rest

theorem pure_apply (value : α) (stream : TokenStream) :
    (pure value : Rule α) stream = .accepted value stream := rfl

theorem bind_apply (rule : Rule α) (next : α → Rule β) (stream : TokenStream) :
    (rule >>= next) stream =
      match rule stream with
      | .accepted value rest => next value rest
      | .refused fault rest => .refused fault rest := rfl

/-! ## Basic rules -/

def current : Rule Token :=
  fun stream => .accepted stream.current stream

def advance : Rule Token :=
  fun stream => .accepted stream.current stream.advance

def skipNewlines : Rule Unit :=
  fun stream => .accepted () stream.skipNewlines

def refuse (fault : Fault) : Rule α :=
  fun stream => .refused fault stream

def token (condition : Token → Bool) (complaint : Complaint) : Rule Token :=
  fun stream =>
    if condition stream.current then .accepted stream.current stream.advance
    else .refused ⟨complaint, stream.current⟩ stream

def expect (kind : TokenKind) : Rule Token :=
  token (·.kind == kind) (.expected kind)

def expectWord (word : String) : Rule Token :=
  token (·.isWord word) (.expectedWord word)

def expectEndOfLine : Rule Token :=
  token (·.kind == .newline) .expectedEndOfLine

/-! ## Progress -/

/-- A rule that never puts tokens back. -/
def Advances (rule : Rule α) : Prop :=
  ∀ stream value rest, rule stream = .accepted value rest → rest.remaining ≤ stream.remaining

/-- A rule that passes at least one token whenever it accepts. -/
def Consumes (rule : Rule α) : Prop :=
  ∀ stream value rest, rule stream = .accepted value rest → rest.remaining < stream.remaining

theorem Consumes.advances {rule : Rule α} (consumes : rule.Consumes) : rule.Advances :=
  fun stream value rest accepted => Nat.le_of_lt (consumes stream value rest accepted)

theorem advances_pure (value : α) : (pure value : Rule α).Advances := by
  intro stream result rest accepted
  simp only [pure_apply, Reply.accepted.injEq] at accepted
  simp [accepted]

theorem advances_refuse (fault : Fault) : (refuse fault : Rule α).Advances := by
  intro stream result rest accepted
  simp [refuse] at accepted

theorem advances_current : current.Advances := by
  intro stream result rest accepted
  simp only [current, Reply.accepted.injEq] at accepted
  simp [accepted]

theorem advances_advance : advance.Advances := by
  intro stream result rest accepted
  simp only [advance, Reply.accepted.injEq] at accepted
  exact accepted.2 ▸ stream.remaining_advance_le

theorem advances_skipNewlines : skipNewlines.Advances := by
  intro stream result rest accepted
  simp only [skipNewlines, Reply.accepted.injEq] at accepted
  exact accepted.2 ▸ stream.remaining_skipNewlines_le

theorem advances_bind {rule : Rule α} {next : α → Rule β} (first : rule.Advances)
    (second : ∀ value, (next value).Advances) : (rule >>= next).Advances := by
  intro stream result rest accepted
  rw [bind_apply] at accepted
  split at accepted
  · next middle reached => exact Nat.le_trans (second _ _ _ _ accepted) (first _ _ _ reached)
  · contradiction

theorem consumes_bind {rule : Rule α} {next : α → Rule β} (first : rule.Consumes)
    (second : ∀ value, (next value).Advances) : (rule >>= next).Consumes := by
  intro stream result rest accepted
  rw [bind_apply] at accepted
  split at accepted
  · next middle reached => exact Nat.lt_of_le_of_lt (second _ _ _ _ accepted) (first _ _ _ reached)
  · contradiction

theorem consumes_token {condition : Token → Bool} {complaint : Complaint}
    (notEnd : ∀ token, condition token = true → token.kind ≠ .endOfInput) :
    (token condition complaint).Consumes := by
  intro stream result rest accepted
  unfold token at accepted
  split at accepted
  · next holds =>
      simp only [Reply.accepted.injEq] at accepted
      exact accepted.2 ▸ TokenStream.remaining_advance_lt (notEnd _ holds)
  · contradiction

theorem consumes_expect {kind : TokenKind} (notEnd : kind ≠ .endOfInput) :
    (expect kind).Consumes :=
  consumes_token fun token holds => by
    rw [beq_iff_eq] at holds
    exact holds ▸ notEnd

theorem consumes_expectWord (word : String) : (expectWord word).Consumes :=
  consumes_token fun _ => Token.kind_ne_endOfInput_of_isWord

theorem consumes_expectEndOfLine : expectEndOfLine.Consumes :=
  consumes_token fun token holds => by
    rw [beq_iff_eq] at holds
    simp [holds]

end Rule

end EventScript
