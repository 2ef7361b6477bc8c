import EventScript.Proofs.FurthestRefusal
import EventScript.Proofs.GuardedStatements

/-! Parsers under any procedures. Whatever a parser is made to do, and however deep attempts are
nested in one another, it stands in its text, an attempt that fails leaves it at the token where it
stood before, and what it remembers is the first of those refusals of attempts that got furthest.
A parser has the tokens of its text and nothing else that it could change: the file and the text
that a diagnostic quotes are given where one is made of a fault. -/

namespace EventScript

/-! ## Places in a text -/

namespace TokenStream

/-- A stream stands in a text: at one of its tokens, or at the end of input behind them. -/
structure StandsIn (stream : TokenStream) (tokens : Tokens) : Prop where
  within : stream.index ≤ tokens.list.length
  eq_streamAt : stream = tokens.streamAt stream.index

theorem standsIn_streamAt {tokens : Tokens} {index : Nat} (within : index ≤ tokens.list.length) :
    (tokens.streamAt index).StandsIn tokens :=
  ⟨within, rfl⟩

theorem StandsIn.advance {stream : TokenStream} {tokens : Tokens}
    (stands : stream.StandsIn tokens) : stream.advance.StandsIn tokens := by
  rw [stands.eq_streamAt]
  cases ahead : tokens.list.drop stream.index with
  | nil =>
      have same : (tokens.streamAt stream.index).advance = tokens.streamAt stream.index := by
        simp [TokenStream.advance, Tokens.streamAt, ahead]
      rw [same]
      exact standsIn_streamAt stands.within
  | cons token rest =>
      have behind : tokens.list.drop (stream.index + 1) = rest := by
        rw [← List.tail_drop, ahead, List.tail_cons]
      have same : (tokens.streamAt stream.index).advance = tokens.streamAt (stream.index + 1) := by
        simp [TokenStream.advance, Tokens.streamAt, ahead, behind]
      have length := congrArg List.length ahead
      simp only [List.length_drop, List.length_cons] at length
      rw [same]
      exact standsIn_streamAt (by omega)

end TokenStream

/-! ## Rules -/

def Reply.rest {α : Type} : Reply α → TokenStream
  | .accepted _ rest => rest
  | .refused _ rest => rest

namespace Rule

variable {α β : Type}

/-- The rules of the grammar: those for single tokens, the parts of instructions, the instruction
forms and the section header. -/
inductive OfGrammar : {α : Type} → Rule α → Prop where
  | current : OfGrammar current
  | advance : OfGrammar advance
  | skipNewlines : OfGrammar skipNewlines
  | refuse {α : Type} (fault : Fault) : OfGrammar (refuse fault : Rule α)
  | expect (kind : TokenKind) : OfGrammar (expect kind)
  | expectWord (word : String) : OfGrammar (expectWord word)
  | expectEndOfLine : OfGrammar expectEndOfLine
  | openArguments (keyword : String) : OfGrammar (openArguments keyword)
  | closeArguments : OfGrammar closeArguments
  | argument (kind : TokenKind) : OfGrammar (argument kind)
  | name : OfGrammar name
  | comma : OfGrammar comma
  | choice : OfGrammar choice
  | expression : OfGrammar Expr.rule
  | form {form : Rule Instruction} (listed : form ∈ instructionForms) : OfGrammar form
  | sectionHeader : OfGrammar sectionHeader

/-- A rule that stays in the text, whether it accepts or refuses. -/
def Stays (rule : Rule α) : Prop :=
  ∀ (tokens : Tokens) (stream : TokenStream), stream.StandsIn tokens →
    (rule stream).rest.StandsIn tokens

theorem stays_token (condition : Token → Bool) (complaint : Complaint) :
    (token condition complaint).Stays := by
  intro tokens stream stands
  unfold token
  split
  · exact stands.advance
  · exact stands

theorem Stays.bind {rule : Rule α} {next : α → Rule β} (first : rule.Stays)
    (second : ∀ value, (next value).Stays) : (rule >>= next).Stays := by
  intro tokens stream stands
  have middle := first tokens stream stands
  rw [bind_apply]
  cases reply : rule stream with
  | accepted value rest =>
      rw [reply] at middle
      exact second value tokens rest middle
  | refused fault rest =>
      rw [reply] at middle
      exact middle

theorem stays_of_follows {rule : Rule α} (follows : ∀ tokens, ∃ reader : Guarded.Reader α,
    Guarded.Reader.Follows Guarded.Reader.Plainly tokens reader rule) : rule.Stays := by
  intro tokens stream stands
  rcases follows tokens with ⟨reader, follow⟩
  have agrees := follow stream.index stands.within
  rw [← stands.eq_streamAt] at agrees
  generalize reader tokens.toArray stream.index = outcome at agrees
  generalize rule stream = reply at agrees
  cases agrees with
  | accepted value within => exact TokenStream.standsIn_streamAt within
  | refused shows =>
      rcases shows with ⟨_, within, rfl⟩
      exact TokenStream.standsIn_streamAt within

theorem stays_skipNewlines : skipNewlines.Stays :=
  stays_of_follows fun _ => ⟨_, Guarded.Reader.follows_skipNewlines⟩

theorem stays_of_mem_instructionForms {form : Rule Instruction} (listed : form ∈ instructionForms) :
    form.Stays := by
  rcases List.getElem_of_mem listed with ⟨index, inside, rfl⟩
  refine stays_of_follows fun tokens => ?_
  have follow := Guarded.Reader.follows_instructionForms (Guarded.Reader.ample_enough tokens)
  rcases List.forall₂_iff_get.1 follow with ⟨length, each⟩
  exact ⟨_, each index (length ▸ inside) inside⟩

theorem OfGrammar.stays {rule : Rule α} (ofGrammar : OfGrammar rule) : rule.Stays := by
  cases ofGrammar with
  | current => exact fun _ _ stands => stands
  | advance => exact fun _ _ stands => stands.advance
  | skipNewlines => exact stays_skipNewlines
  | refuse fault => exact fun _ _ stands => stands
  -- A reader by index is never made to expect the end of input, but a parser may be.
  | expect kind => exact stays_token _ _
  | expectWord word => exact stays_token _ _
  | expectEndOfLine => exact stays_token _ _
  | openArguments keyword =>
      exact stays_of_follows fun _ => ⟨_, Guarded.Reader.follows_openArguments keyword⟩
  | closeArguments => exact stays_of_follows fun _ => ⟨_, Guarded.Reader.follows_closeArguments⟩
  | argument kind => exact stays_skipNewlines.bind fun _ => stays_token _ _
  | name => exact stays_of_follows fun _ => ⟨_, Guarded.Reader.follows_name⟩
  | comma => exact stays_of_follows fun _ => ⟨_, Guarded.Reader.follows_comma⟩
  | choice => exact stays_of_follows fun _ => ⟨_, Guarded.Reader.follows_choice⟩
  | expression => exact stays_of_follows fun tokens =>
        ⟨_, Guarded.Reader.follows_expression (Guarded.Reader.ample_enough tokens)⟩
  | form listed => exact stays_of_mem_instructionForms listed
  | sectionHeader => exact stays_of_follows fun _ => ⟨_, Guarded.Reader.follows_sectionHeader⟩

/-- The refusals of rules that are attempted in order at a place, up to the first that accepts. -/
def refusals : List (Rule α) → TokenStream → List Refusal
  | [], _ => []
  | rule :: others, place =>
      match rule.refusal? place with
      | none => []
      | some refusal => refusal :: refusals others place

end Rule

namespace Parser

variable {α : Type} {tokens : Tokens}

/-! ## Attempts -/

theorem attempt_of_ok {action : Action α} {parser after : Parser} {value : α}
    (ran : action parser = (.ok value, after)) : parser.attempt action = (some value, after) := by
  rw [attempt, ran]

theorem attempt_of_error {action : Action α} {parser after : Parser} {fault : Fault}
    (ran : action parser = (.error fault, after)) :
    parser.attempt action =
      (none, ⟨parser.stream, Refusal.further after.furthest ⟨after.stream.index, fault⟩⟩) := by
  rw [attempt, ran]
  dsimp only
  rw [remember_eq]

def failure? (action : Action α) (parser : Parser) : Option Refusal :=
  match action parser with
  | (.ok _, _) => none
  | (.error fault, after) => some ⟨after.stream.index, fault⟩

/-- What an action does to a parser: it leaves it in the text, and meanwhile some attempts have been
refused, one after another. -/
structure Course (tokens : Tokens) (before : Parser) (refusals : List Refusal) (after : Parser) :
    Prop where
  stands : after.stream.StandsIn tokens
  furthest : after.furthest = refusals.foldl Refusal.further before.furthest

theorem Course.still {parser : Parser} (stands : parser.stream.StandsIn tokens) :
    Course tokens parser [] parser :=
  ⟨stands, rfl⟩

theorem Course.trans {first second third : Parser} {refusals others : List Refusal}
    (left : Course tokens first refusals second) (right : Course tokens second others third) :
    Course tokens first (refusals ++ others) third where
  stands := right.stands
  furthest := by rw [right.furthest, left.furthest, List.foldl_append]

theorem course_run {rule : Rule α} (stays : rule.Stays) {parser : Parser}
    (stands : parser.stream.StandsIn tokens) : Course tokens parser [] (run rule parser).2 := by
  have inside := stays tokens parser.stream stands
  unfold run
  generalize rule parser.stream = reply at inside
  cases reply with
  | accepted value rest => exact ⟨inside, rfl⟩
  | refused fault rest => exact ⟨inside, rfl⟩

theorem Course.attempt {action : Action α} {parser : Parser} {refusals : List Refusal}
    (stands : parser.stream.StandsIn tokens)
    (course : Course tokens parser refusals (action parser).2) :
    Course tokens parser (refusals ++ (failure? action parser).toList)
      (parser.attempt action).2 := by
  cases ran : action parser with
  | mk outcome after =>
      rw [ran] at course
      cases outcome with
      | ok value =>
          rw [attempt_of_ok ran, failure?, ran]
          exact course.trans (.still course.stands)
      | error fault =>
          rw [attempt_of_error ran, failure?, ran]
          exact course.trans ⟨stands, rfl⟩

theorem failure?_run (rule : Rule α) (parser : Parser) :
    failure? (run rule) parser = rule.refusal? parser.stream := by
  unfold failure? run Rule.refusal?
  cases rule parser.stream <;> rfl

theorem course_attemptAny {rules : List (Rule α)} (stay : ∀ rule ∈ rules, rule.Stays)
    {parser : Parser} (stands : parser.stream.StandsIn tokens) :
    Course tokens parser (Rule.refusals rules parser.stream) (attemptAny rules parser).2 := by
  induction rules generalizing parser with
  | nil => exact .still stands
  | cons rule others induction =>
      simp only [List.forall_mem_cons] at stay
      have first := (course_run stay.1 stands).attempt stands
      rw [failure?_run] at first
      rw [attemptAny, Rule.refusals]
      cases tried : parser.attempt (run rule) with
      | mk found after =>
          rw [tried] at first
          cases found with
          | some value =>
              have accepted := attempt_run_some tried
              simp only [Rule.refusal?, accepted] at first ⊢
              exact first
          | none =>
              -- The stream is back where it was, so the others are attempted at the same place.
              rcases attempt_run_none tried with ⟨refusal, refused, rfl⟩
              simp only [refused] at first ⊢
              exact first.trans (induction stay.2 first.stands)

/-! ## Instructions, sections and scripts -/

theorem course_skipNewlines {parser : Parser} (stands : parser.stream.StandsIn tokens) :
    Course tokens parser [] parser.skipNewlines :=
  ⟨Rule.stays_skipNewlines tokens parser.stream stands, rfl⟩

def refusalsOfInstruction (parser : Parser) : List Refusal :=
  Rule.refusals Rule.instructionForms parser.stream

theorem course_readInstruction {parser : Parser} (stands : parser.stream.StandsIn tokens) :
    Course tokens parser parser.refusalsOfInstruction parser.readInstruction.2 :=
  course_attemptAny (fun _ => Rule.stays_of_mem_instructionForms) stands

def refusalsOfInstructions (parser : Parser) : List Refusal :=
  match found : readInstruction parser.skipNewlines with
  | (none, _) => parser.skipNewlines.refusalsOfInstruction
  | (some _, after) =>
      have : after.stream.remaining < parser.stream.remaining :=
        Nat.lt_of_lt_of_le (remaining_attemptAny_lt Rule.consumes_of_mem_instructionForms found)
          parser.stream.remaining_skipNewlines_le
      parser.skipNewlines.refusalsOfInstruction ++ refusalsOfInstructions after
termination_by parser.stream.remaining

theorem course_readInstructions (parser : Parser) (stands : parser.stream.StandsIn tokens) :
    Course tokens parser parser.refusalsOfInstructions parser.readInstructions.2 := by
  have skipped := course_skipNewlines stands
  have first := skipped.trans (course_readInstruction skipped.stands)
  rw [refusalsOfInstructions]
  split
  · next after read =>
      rw [read] at first
      rw [readInstructions_none read]
      exact first
  · next instruction after read =>
      have fewer := Nat.lt_of_lt_of_le
        (remaining_attemptAny_lt Rule.consumes_of_mem_instructionForms read)
        parser.stream.remaining_skipNewlines_le
      rw [read] at first
      rw [readInstructions_some read]
      exact first.trans (course_readInstructions after first.stands)
termination_by parser.stream.remaining

/-- A header is not attempted, so that a section has the refusals of its instructions alone. -/
def refusalsOfSection (parser : Parser) : List Refusal :=
  match run Rule.sectionHeader parser with
  | (.error _, _) => []
  | (.ok _, after) => after.refusalsOfInstructions

theorem course_readSection {parser : Parser} (stands : parser.stream.StandsIn tokens) :
    Course tokens parser parser.refusalsOfSection (readSection parser).2 := by
  have header := course_run Rule.OfGrammar.sectionHeader.stays stands
  unfold readSection refusalsOfSection
  generalize run Rule.sectionHeader parser = ran at header
  rcases ran with ⟨outcome, after⟩
  cases outcome with
  | error fault => exact header
  | ok name => exact header.trans (course_readInstructions after header.stands)

def refusalsOfSections (parser : Parser) : List Refusal :=
  let start := parser.skipNewlines
  if start.stream.current.kind = .endOfInput then []
  else
    match read : readSection start with
    | (.error fault, after) => start.refusalsOfSection ++ [⟨after.stream.index, fault⟩]
    | (.ok _, after) =>
        have : after.stream.remaining < parser.stream.remaining :=
          Nat.lt_of_lt_of_le (remaining_readSection_lt read)
            parser.stream.remaining_skipNewlines_le
        start.refusalsOfSection ++ refusalsOfSections after
termination_by parser.stream.remaining

theorem course_readSections (parser : Parser) (stands : parser.stream.StandsIn tokens) :
    Course tokens parser parser.refusalsOfSections parser.readSections.2 := by
  have skipped := course_skipNewlines stands
  have first := skipped.trans ((course_readSection skipped.stands).attempt skipped.stands)
  rw [refusalsOfSections]
  by_cases atEnd : parser.skipNewlines.stream.current.kind = .endOfInput
  · simp only [atEnd, if_true]
    rw [readSections_nil atEnd]
    exact skipped
  · simp only [atEnd, if_false]
    split
    · next fault after read =>
        have failed := attempt_of_error read
        rw [readSections_failed atEnd failed]
        simpa [failed, failure?, read] using first
    · next found after read =>
        have fewer := Nat.lt_of_lt_of_le (remaining_readSection_lt read)
          parser.stream.remaining_skipNewlines_le
        have passed := skipped.trans (course_readSection skipped.stands)
        rw [read] at passed
        rw [readSections_eq_of_readSection atEnd read]
        exact passed.trans (course_readSections after passed.stands)
termination_by parser.stream.remaining

/-! ## Procedures -/

/-- What a parser can be made to do on a text: any operation on its tokens, any rule of the grammar,
attempts of whatever it can be made to do, and one thing after another, where what has been read
may decide how to go on. -/
inductive Procedure (tokens : Tokens) : Type → Type 1 where
  | give {α : Type} (value : α) : Procedure tokens α
  | andThen {α β : Type} (first : Procedure tokens α) (next : α → Procedure tokens β) :
      Procedure tokens β
  | position : Procedure tokens Nat
  | peek (distance : Int) : Procedure tokens (Option Token)
  | furthestBeyond : Procedure tokens (Option Fault)
  | goTo (index : Nat) (within : index ≤ tokens.list.length) : Procedure tokens Unit
  | run {α : Type} (rule : Rule α) (ofGrammar : rule.OfGrammar) : Procedure tokens α
  | readInstruction : Procedure tokens (Option Instruction)
  | readSection : Procedure tokens Section
  | readSections : Procedure tokens (List Section)
  | attempt {α : Type} (tried : Procedure tokens α) : Procedure tokens (Option α)

namespace Procedure

/-- What a procedure gives, and the parser as it leaves it. Where a part of it fails, it stops. -/
def perform : {α : Type} → Procedure tokens α → Action α
  | _, give value => fun parser => (.ok value, parser)
  | _, andThen first next => fun parser =>
      match first.perform parser with
      | (.ok value, after) => (next value).perform after
      | (.error fault, after) => (.error fault, after)
  | _, position => fun parser => (.ok parser.stream.index, parser)
  | _, peek distance => fun parser => (.ok (tokens.token? (parser.stream.index + distance)), parser)
  | _, furthestBeyond => fun parser => (.ok parser.furthestBeyond, parser)
  | _, goTo index _ => fun parser => (.ok (), { parser with stream := tokens.streamAt index })
  | _, run rule _ => Parser.run rule
  | _, readInstruction => fun parser =>
      let (found, after) := parser.readInstruction
      (.ok found, after)
  | _, readSection => Parser.readSection
  | _, readSections => Parser.readSections
  | _, attempt tried => fun parser =>
      let (found, after) := parser.attempt tried.perform
      (.ok found, after)

/-- The refusals of all attempts that a procedure makes, in the order in which they fail. -/
def refusals : {α : Type} → Procedure tokens α → Parser → List Refusal
  | _, give _, _ => []
  | _, andThen first next, parser =>
      first.refusals parser ++
        match first.perform parser with
        | (.ok value, after) => (next value).refusals after
        | (.error _, _) => []
  | _, position, _ => []
  | _, peek _, _ => []
  | _, furthestBeyond, _ => []
  | _, goTo _ _, _ => []
  | _, run _ _, _ => []
  | _, readInstruction, parser => parser.refusalsOfInstruction
  | _, readSection, parser => parser.refusalsOfSection
  | _, readSections, parser => parser.refusalsOfSections
  | _, attempt tried, parser =>
      tried.refusals parser ++ (failure? tried.perform parser).toList

theorem course_perform (procedure : Procedure tokens α) {parser : Parser}
    (stands : parser.stream.StandsIn tokens) :
    Course tokens parser (procedure.refusals parser) (procedure.perform parser).2 := by
  induction procedure generalizing parser with
  | give value => exact .still stands
  | andThen first next firstCourse nextCourse =>
      have course := firstCourse stands
      unfold perform refusals
      generalize first.perform parser = ran at course
      rcases ran with ⟨outcome, after⟩
      cases outcome with
      | ok value => exact course.trans (nextCourse value course.stands)
      | error fault => exact course.trans (.still course.stands)
  | position => exact .still stands
  | peek distance => exact .still stands
  | furthestBeyond => exact .still stands
  | goTo index within => exact ⟨TokenStream.standsIn_streamAt within, rfl⟩
  | run rule ofGrammar => exact course_run ofGrammar.stays stands
  | readInstruction => exact course_readInstruction stands
  | readSection => exact course_readSection stands
  | readSections => exact course_readSections _ stands
  | attempt tried course => exact (course stands).attempt stands

end Procedure

/-! ## Sequences of operations -/

abbrev Operation (tokens : Tokens) : Type 1 :=
  Σ α : Type, Procedure tokens α

/-- The parser after some operations. Where one fails, the next goes on from there. -/
def afterAll (parser : Parser) (operations : List (Operation tokens)) : Parser :=
  operations.foldl (fun parser operation => (operation.2.perform parser).2) parser

def refusalsOfAll (parser : Parser) : List (Operation tokens) → List Refusal
  | [] => []
  | operation :: others =>
      operation.2.refusals parser ++ refusalsOfAll (operation.2.perform parser).2 others

theorem course_afterAll {parser : Parser} (stands : parser.stream.StandsIn tokens)
    (operations : List (Operation tokens)) :
    Course tokens parser (parser.refusalsOfAll operations) (parser.afterAll operations) := by
  induction operations generalizing parser with
  | nil => exact .still stands
  | cons operation others induction =>
      have first := operation.2.course_perform stands
      exact first.trans (induction first.stands)

/-- What a parser remembers is the first of those refusals that got furthest. It remembers nothing
only if there were none. -/
def Remembers (parser : Parser) (refusals : List Refusal) : Prop :=
  match parser.furthest with
  | none => refusals = []
  | some furthest => Refusal.IsFurthest refusals furthest

theorem Course.remembers {refusals : List Refusal} {parser : Parser}
    (course : Course tokens (start tokens) refusals parser) : parser.Remembers refusals := by
  unfold Remembers
  cases refusals with
  | nil => rw [course.furthest]; rfl
  | cons first others =>
      rcases Refusal.isFurthest_foldl first others with ⟨furthest, folded, isFurthest⟩
      have remembered : parser.furthest = some furthest := course.furthest.trans folded
      rw [remembered]
      exact isFurthest

/-- After any operations on the parser of a text, it stands in the text and remembers the first of
the refusals that got furthest. An attempt of any procedure either gives what the procedure gives
and leaves the parser where the procedure does, or it gives nothing and leaves the parser where it
stood before; in the text in either case. -/
theorem attempt_of_operations (tokens : Tokens) (operations : List (Operation tokens))
    (procedure : Procedure tokens α) :
    let parser := (start tokens).afterAll operations
    let after := (parser.attempt procedure.perform).2
    parser.stream.StandsIn tokens ∧ after.stream.StandsIn tokens ∧
      parser.Remembers ((start tokens).refusalsOfAll operations) ∧
      ((∃ value, procedure.perform parser = (.ok value, after) ∧
          parser.attempt procedure.perform = (some value, after)) ∨
        (∃ fault failed, procedure.perform parser = (.error fault, failed) ∧
          parser.attempt procedure.perform = (none, after) ∧ after.stream = parser.stream)) := by
  intro parser after
  have begins : (start tokens).stream.StandsIn tokens :=
    TokenStream.standsIn_streamAt (Nat.zero_le _)
  have course := course_afterAll begins operations
  have tried := (procedure.course_perform course.stands).attempt course.stands
  refine ⟨course.stands, tried.stands, course.remembers, ?_⟩
  cases ran : procedure.perform parser with
  | mk outcome stopped =>
      cases outcome with
      | ok value =>
          have gives := attempt_of_ok ran
          have same : after = stopped := congrArg Prod.snd gives
          exact .inl ⟨value, same ▸ rfl, same ▸ gives⟩
      | error fault =>
          have fails := attempt_of_error ran
          have nothing : (parser.attempt procedure.perform).1 = none := congrArg Prod.fst fails
          have back : after.stream = parser.stream := congrArg (·.2.stream) fails
          exact .inr ⟨fault, stopped, rfl, Prod.ext nothing rfl, back⟩

/-- A second section is missing, and so the parser goes back to before the first. What it remembers
is the refusal of the instruction that breaks off inside of the first. -/
example :
    let tokens : Tokens :=
      ⟨[⟨.sectionMarker, "---", ⟨1, 1⟩⟩, ⟨.identifier, "a", ⟨1, 5⟩⟩, ⟨.newline, "\n", ⟨1, 6⟩⟩,
        ⟨.identifier, "jump", ⟨2, 1⟩⟩, ⟨.leftParen, "(", ⟨2, 5⟩⟩, ⟨.identifier, "b", ⟨2, 6⟩⟩],
        ⟨2, 7⟩⟩
    let twice : Procedure tokens Section := .andThen (.attempt .readSection) fun _ => .readSection
    let parser := (start tokens).afterAll [⟨_, .attempt twice⟩]
    parser.stream.index = 0 ∧ parser.furthest.map Refusal.index = some 6 ∧
      ((start tokens).refusalsOfAll [⟨_, .attempt twice⟩]).map Refusal.index =
        [6, 3, 3, 3, 3, 3, 3, 3, 3] := by
  decide +kernel

end Parser

end EventScript
