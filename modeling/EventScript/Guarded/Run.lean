import EventScript.Grammar.Complaint

/-! Guarded runs. A run goes over its input by index and keeps a state, step by step as a reader
does that changes in place. What a step relies on is checked, and where it fails the run breaks off
with an outcome of its own, which the meant outcomes can be told from. -/

namespace EventScript.Guarded

variable {ι σ ε ε' α β : Type}

/-- How a run breaks off. It is meant to do so with a refusal alone. -/
inductive Break (ε : Type) where
  | refused (error : ε)
  /-- The statement around the expression is to make a refusal of it. -/
  | complaint (what : Complaint) (index : Nat)
  | conversion
  | outOfRange
  | stalled
  | tooDeep
deriving DecidableEq, Repr

def Break.map (make : ε → ε') : Break ε → Break ε'
  | .refused error => .refused (make error)
  | .complaint what index => .complaint what index
  | .conversion => .conversion
  | .outOfRange => .outOfRange
  | .stalled => .stalled
  | .tooDeep => .tooDeep

/-- Breaking off, a run leaves the state as it is by then. -/
def Run (ι σ ε α : Type) : Type :=
  ι → σ → Except (Break ε) α × σ

namespace Run

instance : Monad (Run ι σ ε) where
  pure value := fun _ state => (.ok value, state)
  bind run next := fun input state =>
    match run input state with
    | (.ok value, after) => next value input after
    | (.error broken, after) => (.error broken, after)

@[simp] theorem pure_apply (value : α) (input : ι) (state : σ) :
    (pure value : Run ι σ ε α) input state = (.ok value, state) := rfl

theorem bind_ok {run : Run ι σ ε α} {next : α → Run ι σ ε β} {input : ι} {state after : σ}
    {value : α} (first : run input state = (.ok value, after)) :
    (run >>= next) input state = next value input after := by
  change (match run input state with
    | (.ok value, after) => next value input after
    | (.error broken, after) => (.error broken, after)) = _
  rw [first]

theorem bind_error {run : Run ι σ ε α} {next : α → Run ι σ ε β} {input : ι} {state after : σ}
    {broken : Break ε} (first : run input state = (.error broken, after)) :
    (run >>= next) input state = (.error broken, after) := by
  change (match run input state with
    | (.ok value, after) => next value input after
    | (.error broken, after) => (.error broken, after)) = _
  rw [first]

def input : Run ι σ ε ι := fun input state => (.ok input, state)

def state : Run ι σ ε σ := fun _ state => (.ok state, state)

@[simp] theorem bind_input (next : ι → Run ι σ ε α) (text : ι) (here : σ) :
    (input >>= next) text here = next text text here := rfl

@[simp] theorem bind_state (next : σ → Run ι σ ε α) (text : ι) (here : σ) :
    (state >>= next) text here = next here text here := rfl

def put (after : σ) : Run ι σ ε Unit := fun _ _ => (.ok (), after)

def fail (broken : Break ε) : Run ι σ ε α := fun _ state => (.error broken, state)

def handle (run : Run ι σ ε α) (handler : Break ε → Run ι σ ε α) : Run ι σ ε α :=
  fun input state =>
    match run input state with
    | (.ok value, after) => (.ok value, after)
    | (.error broken, after) => handler broken input after

theorem handle_ok {run : Run ι σ ε α} {handler : Break ε → Run ι σ ε α} {input : ι}
    {state after : σ} {value : α} (first : run input state = (.ok value, after)) :
    handle run handler input state = (.ok value, after) := by
  rw [handle, first]

theorem handle_error {run : Run ι σ ε α} {handler : Break ε → Run ι σ ε α} {input : ι}
    {state after : σ} {broken : Break ε} (first : run input state = (.error broken, after)) :
    handle run handler input state = handler broken input after := by
  rw [handle, first]

/-! ## Loops -/

/-- A round that another one follows must leave less ahead than there was. -/
def rounds (ahead : ι → σ → Nat) (round : β → Run ι σ ε (β ⊕ α)) (carried : β) (input : ι)
    (state : σ) : Except (Break ε) α × σ :=
  match round carried input state with
  | (.ok (.inr result), after) => (.ok result, after)
  | (.ok (.inl next), after) =>
      if ahead input after < ahead input state then rounds ahead round next input after
      else (.error .stalled, after)
  | (.error broken, after) => (.error broken, after)
termination_by ahead input state

variable {ahead : ι → σ → Nat} {round : β → Run ι σ ε (β ⊕ α)} {carried next : β} {input : ι}
  {state after : σ}

theorem rounds_done {result : α}
    (done : round carried input state = (.ok (.inr result), after)) :
    rounds ahead round carried input state = (.ok result, after) := by
  rw [rounds, done]

theorem rounds_again (again : round carried input state = (.ok (.inl next), after))
    (fewer : ahead input after < ahead input state) :
    rounds ahead round carried input state = rounds ahead round next input after := by
  rw [rounds, again]
  exact if_pos fewer

theorem rounds_error {broken : Break ε}
    (breaks : round carried input state = (.error broken, after)) :
    rounds ahead round carried input state = (.error broken, after) := by
  rw [rounds, breaks]

end Run

end EventScript.Guarded
