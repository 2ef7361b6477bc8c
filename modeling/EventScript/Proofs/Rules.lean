import EventScript.Grammar.Rule

/-! What rules accept. Between two streams of the same text lie the tokens that a rule has
passed; a sequence of rules accepts where its parts accept one after another. -/

namespace EventScript

theorem kind_of_isWord {token : Token} {word : String} (holds : token.isWord word = true) :
    token.kind = .identifier ∧ token.value = word := by
  simpa [Token.isWord] using holds

/-! ## Passed tokens -/

namespace TokenStream

/-- The stream `after` stands behind the first tokens of `before`. -/
structure Passed (before : TokenStream) (tokens : List Token) (after : TokenStream) : Prop where
  ahead : before.ahead = tokens ++ after.ahead
  index : after.index = before.index + tokens.length
  finish : after.finish = before.finish

namespace Passed

variable {first second third : TokenStream} {tokens others : List Token}

theorem nothing (stream : TokenStream) : stream.Passed [] stream := ⟨rfl, rfl, rfl⟩

theorem trans (left : first.Passed tokens second) (right : second.Passed others third) :
    first.Passed (tokens ++ others) third where
  ahead := by rw [left.ahead, right.ahead, List.append_assoc]
  index := by
    rw [right.index, left.index, List.length_append]
    omega
  finish := right.finish.trans left.finish

theorem index_le (passed : first.Passed tokens second) : first.index ≤ second.index := by
  rw [passed.index]
  omega

theorem eq (left : first.Passed tokens second) (right : first.Passed tokens third) :
    second = third := by
  have ahead : second.ahead = third.ahead :=
    List.append_cancel_left (left.ahead.symm.trans right.ahead)
  have index : second.index = third.index := by rw [left.index, right.index]
  have finish : second.finish = third.finish := by rw [left.finish, right.finish]
  cases second
  cases third
  simp_all

theorem mk_of_ahead {before : TokenStream} (ahead : before.ahead = tokens ++ others) :
    before.Passed tokens ⟨before.index + tokens.length, others, before.finish⟩ :=
  ⟨ahead, rfl, rfl⟩

theorem exists_of_ahead {before : TokenStream} (ahead : before.ahead = tokens ++ others) :
    ∃ after, before.Passed tokens after ∧ after.ahead = others :=
  ⟨_, .mk_of_ahead ahead, rfl⟩

theorem split (passed : first.Passed (tokens ++ others) third) :
    ∃ middle, first.Passed tokens middle ∧ middle.Passed others third := by
  refine ⟨⟨first.index + tokens.length, others ++ third.ahead, first.finish⟩, .mk_of_ahead ?_,
    rfl, ?_, passed.finish⟩
  · rw [passed.ahead, List.append_assoc]
  · simp only [passed.index, List.length_append]
    omega

end Passed

theorem Passed.index_eq {tokens : Tokens} {before : List Token} {place : TokenStream}
    (passed : tokens.stream.Passed before place) : place.index = before.length := by
  rw [passed.index]
  exact Nat.zero_add _

theorem Passed.whole (tokens : Tokens) :
    tokens.stream.Passed tokens.list ⟨tokens.list.length, [], tokens.finish⟩ :=
  ⟨by simp [Tokens.stream, Tokens.streamAt], by simp [Tokens.stream, Tokens.streamAt], rfl⟩

theorem current_eq {stream : TokenStream} {token : Token} {rest : List Token}
    (ahead : stream.ahead = token :: rest) : stream.current = token := by
  rw [current, ahead, List.headD_cons]

theorem passed_advance {stream : TokenStream} {token : Token} {rest : List Token}
    (ahead : stream.ahead = token :: rest) : stream.Passed [token] stream.advance := by
  have advanced : stream.advance = ⟨stream.index + 1, rest, stream.finish⟩ := by
    simp [advance, ahead]
  rw [advanced]
  exact ⟨ahead, rfl, rfl⟩

theorem ahead_of_current {stream : TokenStream} (notEnd : stream.current.kind ≠ .endOfInput) :
    ∃ rest, stream.ahead = stream.current :: rest := by
  cases ahead : stream.ahead with
  | nil => simp [current, ahead, Token.atEnd] at notEnd
  | cons token rest => exact ⟨rest, by rw [current_eq ahead]⟩

theorem passed_current {stream : TokenStream} (notEnd : stream.current.kind ≠ .endOfInput) :
    stream.Passed [stream.current] stream.advance := by
  rcases ahead_of_current notEnd with ⟨rest, ahead⟩
  exact passed_advance ahead

theorem current_kind_ne {stream : TokenStream} {kind : TokenKind} (notEnd : kind ≠ .endOfInput)
    (apart : ∀ token ∈ stream.ahead.head?, token.kind ≠ kind) : stream.current.kind ≠ kind := by
  cases ahead : stream.ahead with
  | nil => simpa [current, ahead, Token.atEnd] using notEnd.symm
  | cons token rest =>
      rw [current_eq ahead]
      exact apart token (by simp [ahead])

def Breaks (run : List Token) : Prop :=
  ∀ token ∈ run, token.kind = .newline

theorem breaks_nil : Breaks [] := by
  simp [Breaks]

theorem passed_skipNewlines (stream : TokenStream) :
    ∃ run, Breaks run ∧ stream.Passed run stream.skipNewlines := by
  refine ⟨stream.ahead.takeWhile (·.kind == .newline), ?_, ?_⟩
  · intro token member
    have all := List.all_takeWhile (p := fun token : Token => token.kind == .newline)
      (l := stream.ahead)
    simpa using List.all_eq_true.1 all token member
  · exact ⟨by simp [skipNewlines], rfl, rfl⟩

theorem current_skipNewlines (stream : TokenStream) :
    stream.skipNewlines.current.kind ≠ .newline := by
  intro isBreak
  have notEnd : stream.skipNewlines.current.kind ≠ .endOfInput := by
    rw [isBreak]
    decide
  rcases ahead_of_current notEnd with ⟨rest, ahead⟩
  have head := List.head?_dropWhile_not (fun token : Token => token.kind == .newline) stream.ahead
  have same : stream.skipNewlines.ahead = stream.ahead.dropWhile (·.kind == .newline) := rfl
  rw [← same, ahead] at head
  simp [isBreak] at head

theorem skipNewlines_eq {stream after : TokenStream} {run : List Token} (breaks : Breaks run)
    (passed : stream.Passed run after) (stops : after.current.kind ≠ .newline) :
    stream.skipNewlines = after := by
  have all : ∀ token ∈ run, (token.kind == .newline) = true := by simpa [Breaks] using breaks
  have ends : after.ahead.takeWhile (·.kind == .newline) = [] ∧
      after.ahead.dropWhile (·.kind == .newline) = after.ahead := by
    cases ahead : after.ahead with
    | nil => simp
    | cons token rest =>
        rw [current_eq ahead] at stops
        simp [stops]
  have skipped : stream.Passed run stream.skipNewlines := by
    refine ⟨?_, ?_, rfl⟩
    · simp only [skipNewlines]
      rw [passed.ahead, List.dropWhile_append_of_pos all, ends.2]
    · simp only [skipNewlines]
      rw [passed.ahead, List.takeWhile_append_of_pos all, ends.1, List.append_nil]
  exact skipped.eq passed

theorem eq_of_breaks {stream after : TokenStream} {run : List Token} (breaks : Breaks run)
    (passed : stream.Passed run after) (stops : stream.current.kind ≠ .newline) :
    stream = after := by
  cases run with
  | nil => exact (Passed.nothing stream).eq passed
  | cons token others =>
      rw [current_eq passed.ahead] at stops
      exact absurd (breaks token (by simp)) stops

end TokenStream

/-! ## Accepting rules -/

namespace Rule

variable {α β : Type} {stream rest : TokenStream}

instance : LawfulMonad Rule := .mk' Rule
  (fun rule => by
    funext stream
    change (rule >>= fun value => pure value) stream = rule stream
    rw [bind_apply]
    cases rule stream <;> rfl)
  (fun _ _ => rfl)
  (fun rule next more => by
    funext stream
    simp only [bind_apply]
    cases rule stream <;> rfl)

theorem bind_accepted (rule : Rule α) {next : α → Rule β} {value : β} :
    (rule >>= next) stream = .accepted value rest ↔
      ∃ first middle, rule stream = .accepted first middle ∧
        next first middle = .accepted value rest := by
  rw [bind_apply]
  constructor
  · intro accepted
    split at accepted
    · next first middle reached => exact ⟨first, middle, reached, accepted⟩
    · contradiction
  · intro holds
    rcases holds with ⟨first, middle, reached, accepted⟩
    rw [reached]
    exact accepted

theorem bind_refused (rule : Rule α) {next : α → Rule β} {fault : Fault} :
    (rule >>= next) stream = .refused fault rest ↔
      rule stream = .refused fault rest ∨ ∃ first middle,
        rule stream = .accepted first middle ∧ next first middle = .refused fault rest := by
  rw [bind_apply]
  constructor
  · intro refused
    split at refused
    · next first middle reached => exact .inr ⟨first, middle, reached, refused⟩
    · next reached =>
        injection refused with sameFault sameRest
        subst sameFault sameRest
        exact .inl reached
  · intro holds
    rcases holds with reached | ⟨first, middle, reached, refused⟩
    · rw [reached]
    · rw [reached]
      exact refused

theorem pure_accepted {value result : α} :
    (pure value : Rule α) stream = .accepted result rest ↔ value = result ∧ stream = rest := by
  rw [pure_apply, Reply.accepted.injEq]

theorem skipNewlines_accepted {result : Unit} :
    skipNewlines stream = .accepted result rest ↔ stream.skipNewlines = rest := by
  simp [skipNewlines]

theorem token_accepted {condition : Token → Bool} {complaint : Complaint} {found : Token} :
    token condition complaint stream = .accepted found rest ↔
      condition stream.current = true ∧ stream.current = found ∧ stream.advance = rest := by
  unfold token
  split
  · next holds => simp [holds]
  · next fails => simp [fails]

theorem token_refused {condition : Token → Bool} {complaint : Complaint} {fault : Fault} :
    token condition complaint stream = .refused fault rest ↔
      condition stream.current = false ∧ ⟨complaint, stream.current⟩ = fault ∧ stream = rest := by
  unfold token
  split
  · next holds => simp [holds]
  · next fails => simp [fails]

theorem token_accepted_iff_passed {condition : Token → Bool} {complaint : Complaint}
    (notEnd : ∀ token, condition token = true → token.kind ≠ .endOfInput) {found : Token} :
    token condition complaint stream = .accepted found rest ↔
      condition found = true ∧ stream.Passed [found] rest := by
  rw [token_accepted]
  constructor
  · intro both
    rcases both with ⟨holds, rfl, rfl⟩
    exact ⟨holds, TokenStream.passed_current (notEnd _ holds)⟩
  · intro both
    rcases both with ⟨holds, passed⟩
    have current := TokenStream.current_eq passed.ahead
    exact ⟨current ▸ holds, current, (TokenStream.passed_advance passed.ahead).eq passed⟩

theorem expect_accepted {kind : TokenKind} (notEnd : kind ≠ .endOfInput) {found : Token} :
    expect kind stream = .accepted found rest ↔
      found.kind = kind ∧ stream.Passed [found] rest := by
  unfold expect
  rw [token_accepted_iff_passed]
  · rw [beq_iff_eq]
  · intro token holds
    rw [beq_iff_eq] at holds
    exact holds ▸ notEnd

theorem expectWord_accepted {word : String} {found : Token} :
    expectWord word stream = .accepted found rest ↔
      found.isWord word = true ∧ stream.Passed [found] rest :=
  token_accepted_iff_passed fun _ => Token.kind_ne_endOfInput_of_isWord

theorem expectEndOfLine_accepted {found : Token} :
    expectEndOfLine stream = .accepted found rest ↔
      found.kind = .newline ∧ stream.Passed [found] rest := by
  unfold expectEndOfLine
  rw [token_accepted_iff_passed]
  · rw [beq_iff_eq]
  · intro token holds
    rw [beq_iff_eq] at holds
    simp [holds]

end Rule

end EventScript
