import EventScript.Proofs.Glyphs
import EventScript.Proofs.Relexing

/-! Completions. A rule refuses at the first token that it has no use for: what it has passed
before that token can be completed to what it accepts. -/

namespace EventScript

open TokenStream

/-! ## Fillers -/

/-- A lexeme that stands behind any other, and before whatever begins with a blank. -/
structure Lexeme.Filler (lexeme : Lexeme) : Prop where
  blanks : lexeme.blanks = [' ']
  stands : ∀ tail, Text.Separated tail → lexeme.StandsBefore tail

namespace Lexeme

theorem filler_name {word : String} (isName : Text.IsName word) : (name word [' ']).Filler where
  blanks := rfl
  stands _ separated :=
    standsBefore_name Text.isBlank_of_mem_space isName
      (separated.endsRun Text.isNamePart_of_separator)

theorem filler_sign {kind : TokenKind} (closed : isClosed kind = true) :
    (sign kind [' ']).Filler where
  blanks := rfl
  stands _ _ := standsBefore_closed Text.isBlank_of_mem_space closed

theorem filler_lineEnd : (plain .newline "\n" [' ']).Filler where
  blanks := rfl
  stands _ _ := standsBefore_lineEnd Text.isBlank_of_mem_space

theorem separated_of_fillers {fillers : List Lexeme}
    (areFillers : ∀ lexeme ∈ fillers, lexeme.Filler) : Text.Separated (textOf fillers) := by
  cases fillers with
  | nil => exact .nil
  | cons lexeme others =>
      rw [textOf_cons, (areFillers lexeme (by simp)).blanks]
      exact .cons (by decide) _

theorem row_of_fillers {fillers : List Lexeme} (areFillers : ∀ lexeme ∈ fillers, lexeme.Filler) :
    Row fillers [] := by
  induction fillers with
  | nil => trivial
  | cons lexeme others induction =>
      rw [List.forall_mem_cons] at areFillers
      refine ⟨areFillers.1.stands _ ?_, induction areFillers.2⟩
      rw [List.append_nil]
      exact separated_of_fillers areFillers.2

end Lexeme

/-- The first tokens of a text, and fillers behind them, are the tokens of another. If a marker
is the last of them, the fillers come right behind its dashes. -/
theorem Tokens.exists_ofText_take {text : String} {tokens : Tokens}
    (lexed : ofText text = .ok tokens) (count : Nat) {fillers : List Lexeme}
    (areFillers : ∀ lexeme ∈ fillers, lexeme.Filler) :
    ∃ text' tokens' place, ofText text' = .ok tokens' ∧
      tokens'.list = tokens.list.take count ++ Scan.locate place fillers ∧
      ∀ marker ∈ (tokens.list.take count).getLast?, marker.kind = .sectionMarker →
        place = marker.place.after ['-', '-', '-'] := by
  rcases list_of_ofText lexed with ⟨sound, list⟩
  rcases Scan.row_of_read sound with ⟨row, _, _⟩
  generalize (Scan.read text.toList).lexemes = lexemes at list row
  generalize (Scan.read text.toList).blanks = blanks at row
  rw [← List.take_append_drop count lexemes, Lexeme.row_append] at row
  have wellFormed := Lexeme.wellFormed_of_row row.1
  rw [list, Scan.take_locate]
  generalize lexemes.take count = front at row wellFormed
  have separated := Lexeme.separated_of_fillers areFillers
  have rowFront : Lexeme.Row front (Lexeme.textOf fillers) :=
    @Lexeme.row_of_separated front [] _ _ row.1 separated
  have whole : Lexeme.Row (front ++ fillers) [] := by
    rw [Lexeme.row_append, List.append_nil]
    exact ⟨rowFront, Lexeme.row_of_fillers areFillers⟩
  refine ⟨_, _, _, ofText_row whole (String.toList_ofList), Scan.locate_append _ _ _, ?_⟩
  intro marker isLast isMarker
  rcases List.eq_nil_or_concat' front with rfl | ⟨others, last, rfl⟩
  · simp at isLast
  · rw [Scan.locate_append, Scan.locate_cons, Scan.locate_nil, List.getLast?_concat,
      Option.mem_some_iff] at isLast
    subst isLast
    have source := (wellFormed last (by simp)).marker isMarker
    simp [source]

/-! ## Refusals at the first useless token -/

def Complaint.quotes : Complaint → Bool
  | .unknownSpecial | .strayOperator | .unknownFunction => true
  | _ => false

/-- The token that a fault is about stands at the first place, where the rule gave up. An unknown
symbol has been passed by then; an unknown function has its parenthesis right behind it. Only
names are quoted. -/
structure Fault.StandsAt (fault : Fault) (place rest : TokenStream) : Prop where
  token : place.current = fault.token
  index : rest.index = place.index + if fault.complaint = .unknownSpecial then 1 else 0
  called : fault.complaint = .unknownFunction → place.advance.current.kind = .leftParen
  quoted : fault.complaint.quotes = true → place.current.kind = .identifier

theorem Fault.standsAt_of_not_quotes {complaint : Complaint} (unquoted : complaint.quotes = false)
    (place : TokenStream) : StandsAt ⟨complaint, place.current⟩ place place := by
  have apart : ∀ other : Complaint, other.quotes = true → complaint ≠ other := by
    intro other quotes same
    rw [same, quotes] at unquoted
    contradiction
  refine ⟨rfl, ?_, fun same => absurd same (apart _ rfl), fun quotes => absurd rfl (apart _ quotes)⟩
  simp [apart .unknownSpecial rfl]

namespace Rule

variable {α β : Type}

def Completable (grammar : α → List Token → Prop) (tokens : List Token) : Prop :=
  ∃ (fillers : List Lexeme) (value : α), (∀ lexeme ∈ fillers, lexeme.Filler) ∧
    grammar value (tokens ++ fillers.map Lexeme.token)

/-- A rule that accepts what is written in a grammar, and refuses at the first token that does not
go on with what it has passed before. -/
structure Viable (rule : Rule α) (grammar : α → List Token → Prop) : Prop where
  accepted : ∀ {stream rest : TokenStream} {value : α}, rule stream = .accepted value rest →
    ∃ tokens, stream.Passed tokens rest ∧ grammar value tokens
  refused : ∀ {stream rest : TokenStream} {fault : Fault}, rule stream = .refused fault rest →
    ∃ tokens place, stream.Passed tokens place ∧ fault.StandsAt place rest ∧
      Completable grammar tokens
  inhabited : Completable grammar []

theorem Completable.mono {grammar grammar' : α → List Token → Prop} {tokens : List Token}
    (completable : Completable grammar tokens)
    (weaker : ∀ value tokens, grammar value tokens → grammar' value tokens) :
    Completable grammar' tokens := by
  rcases completable with ⟨fillers, value, areFillers, written⟩
  exact ⟨fillers, value, areFillers, weaker _ _ written⟩

namespace Viable

variable {rule : Rule α} {grammar : α → List Token → Prop}

theorem mono (viable : rule.Viable grammar) {grammar' : α → List Token → Prop}
    (weaker : ∀ value tokens, grammar value tokens → grammar' value tokens) :
    rule.Viable grammar' where
  accepted reply := by
    rcases viable.accepted reply with ⟨tokens, passed, written⟩
    exact ⟨tokens, passed, weaker _ _ written⟩
  refused reply := by
    rcases viable.refused reply with ⟨tokens, place, passed, stands, completable⟩
    exact ⟨tokens, place, passed, stands, completable.mono weaker⟩
  inhabited := viable.inhabited.mono weaker

/-- In a sequence a refusal of the first rule is completed by both, and one of the second rule by
the second rule alone. -/
theorem bind {next : α → Rule β} {others : α → β → List Token → Prop}
    (first : rule.Viable grammar) (second : ∀ value, (next value).Viable (others value)) :
    (rule >>= next).Viable fun result tokens => ∃ value front back, tokens = front ++ back ∧
      grammar value front ∧ others value result back where
  accepted reply := by
    rcases (bind_accepted rule).1 reply with ⟨value, middle, reached, more⟩
    rcases first.accepted reached with ⟨front, frontPassed, written⟩
    rcases (second value).accepted more with ⟨back, backPassed, backWritten⟩
    exact ⟨_, frontPassed.trans backPassed, value, front, back, rfl, written, backWritten⟩
  refused {stream rest fault} reply := by
    rw [bind_apply] at reply
    split at reply
    · next value middle reached =>
        rcases first.accepted reached with ⟨front, frontPassed, written⟩
        rcases (second value).refused reply with
          ⟨back, place, backPassed, stands, fillers, result, areFillers, backWritten⟩
        refine ⟨_, place, frontPassed.trans backPassed, stands, fillers, result, areFillers, value,
          front, _, ?_, written, backWritten⟩
        rw [List.append_assoc]
    · next reached =>
        injection reply with sameFault sameRest
        subst sameFault sameRest
        rcases first.refused reached with
          ⟨tokens, place, passed, stands, fillers, value, areFillers, written⟩
        rcases (second value).inhabited with ⟨more, result, areMore, moreWritten⟩
        refine ⟨tokens, place, passed, stands, fillers ++ more, result,
          List.forall_mem_append.2 ⟨areFillers, areMore⟩, value, _, _, ?_, written, moreWritten⟩
        simp
  inhabited := by
    rcases first.inhabited with ⟨fillers, value, areFillers, written⟩
    rcases (second value).inhabited with ⟨more, result, areMore, moreWritten⟩
    refine ⟨fillers ++ more, result, List.forall_mem_append.2 ⟨areFillers, areMore⟩, value, _, _, ?_,
      written, moreWritten⟩
    simp

theorem pure (value : α) :
    (Pure.pure value : Rule α).Viable fun result tokens => result = value ∧ tokens = [] where
  accepted reply := by
    rcases pure_accepted.1 reply with ⟨rfl, rfl⟩
    exact ⟨[], .nothing _, rfl, rfl⟩
  refused reply := by
    rw [pure_apply] at reply
    contradiction
  inhabited := ⟨[], value, by simp, rfl, rfl⟩

theorem map (viable : rule.Viable grammar) (f : α → β) :
    (rule >>= fun value => Pure.pure (f value)).Viable fun result tokens =>
      ∃ value, result = f value ∧ grammar value tokens := by
  apply (viable.bind fun value => pure (f value)).mono
  intro result tokens written
  rcases written with ⟨value, front, _, rfl, written, rfl, rfl⟩
  exact ⟨value, rfl, by simpa using written⟩

end Viable

/-! ## Pieces -/

theorem viable_token {condition : Token → Bool} {complaint : Complaint}
    (notEnd : ∀ token, condition token = true → token.kind ≠ .endOfInput)
    (unquoted : complaint.quotes = false) {filler : Lexeme}
    (isFiller : filler.Filler) (fits : condition filler.token = true) :
    (token condition complaint).Viable fun found tokens =>
      condition found = true ∧ tokens = [found] where
  accepted reply := by
    rcases (token_accepted_iff_passed notEnd).1 reply with ⟨holds, passed⟩
    exact ⟨_, passed, holds, rfl⟩
  refused {stream rest fault} reply := by
    unfold token at reply
    split at reply
    · contradiction
    · injection reply with sameFault sameRest
      subst sameFault sameRest
      exact ⟨[], stream, .nothing stream, Fault.standsAt_of_not_quotes unquoted stream, [filler],
        filler.token, by simpa using isFiller, fits, rfl⟩
  inhabited := ⟨[filler], filler.token, by simpa using isFiller, fits, rfl⟩

theorem viable_skipNewlines : skipNewlines.Viable fun _ tokens => Breaks tokens where
  accepted {stream rest value} reply := by
    rw [skipNewlines_accepted] at reply
    rcases passed_skipNewlines stream with ⟨run, breaks, passed⟩
    exact ⟨run, reply ▸ passed, breaks⟩
  refused reply := by simp [skipNewlines] at reply
  inhabited := ⟨[], (), by simp, breaks_nil⟩

theorem viable_argument {kind : TokenKind} (notEnd : kind ≠ .endOfInput) {filler : Lexeme}
    (isFiller : filler.Filler) (fits : filler.kind = kind) :
    (argument kind).Viable fun found tokens => found.kind = kind ∧
      ∃ run, Breaks run ∧ tokens = run ++ [found] := by
  have sign : (expect kind).Viable fun found tokens => (found.kind == kind) = true ∧
      tokens = [found] := by
    refine viable_token (fun token holds => ?_) rfl isFiller (by simpa [Lexeme.token] using fits)
    rw [beq_iff_eq] at holds
    exact holds ▸ notEnd
  apply (viable_skipNewlines.bind fun _ => sign).mono
  intro found tokens written
  rcases written with ⟨_, run, _, rfl, breaks, isKind, rfl⟩
  exact ⟨beq_iff_eq.1 isKind, run, breaks, rfl⟩

theorem viable_name :
    name.Viable fun word tokens => Piece.SpelledAll Expr.Spells [.name word] tokens := by
  have word : Text.IsName "x" := by decide
  apply ((viable_argument (by decide) (Lexeme.filler_name word) rfl).map Token.value).mono
  intro word tokens written
  rcases written with ⟨token, rfl, isName, run, breaks, rfl⟩
  have spelled := Piece.SpelledAll.cons (@Piece.Spelled.name Expr.Spells _ _ breaks isName) .nil
  simpa using spelled

theorem viable_sign {kind : TokenKind} (closed : Lexeme.isClosed kind = true) :
    (argument kind).Viable fun _ tokens => Piece.SpelledAll Expr.Spells [.sign kind] tokens := by
  have notEnd : kind ≠ .endOfInput := by
    intro same
    simp [same, Lexeme.isClosed] at closed
  apply (viable_argument notEnd (Lexeme.filler_sign closed) rfl).mono
  intro token tokens written
  rcases written with ⟨rfl, run, breaks, rfl⟩
  have spelled := Piece.SpelledAll.cons (@Piece.Spelled.sign Expr.Spells _ token breaks) .nil
  simpa using spelled

theorem viable_comma :
    comma.Viable fun _ tokens => Piece.SpelledAll Expr.Spells [.sign .comma] tokens := by
  apply ((@viable_sign .comma rfl).map fun _ => ()).mono
  intro _ tokens written
  rcases written with ⟨_, _, written⟩
  exact written

theorem viable_choice :
    Rule.choice.Viable fun choice tokens => Piece.SpelledAll Expr.Spells choice.pieces tokens := by
  apply ((@viable_sign .leftParen rfl).bind fun _ => viable_name.bind fun label =>
    viable_comma.bind fun _ => viable_name.bind fun target =>
      (@viable_sign .rightParen rfl).map fun _ => (⟨label, target⟩ : Choice)).mono
  intro choice tokens written
  rcases written with ⟨_, _, _, rfl, opening, label, _, _, rfl, first, _, _, _, rfl, comma, target, _,
    _, rfl, second, _, rfl, closing⟩
  exact Piece.spelledAll_append.2 ⟨_, _, rfl, opening, Piece.spelledAll_append.2 ⟨_, _, rfl, first,
    Piece.spelledAll_append.2 ⟨_, _, rfl, comma, Piece.spelledAll_append.2 ⟨_, _, rfl, second, closing⟩⟩⟩⟩

def FurtherChoices (choices : List Choice) (tokens : List Token) : Prop :=
  ∃ row run, tokens = row ++ run ∧ Breaks run ∧
    Piece.SpelledAll Expr.Spells (choices.flatMap fun choice => .sign .comma :: choice.pieces) row

theorem FurtherChoices.cons {choice : Choice} {choices : List Choice}
    {comma first rest : List Token} (separated : (Piece.sign .comma).Spelled Expr.Spells comma)
    (spelled : Piece.SpelledAll Expr.Spells choice.pieces first)
    (others : FurtherChoices choices rest) :
    FurtherChoices (choice :: choices) (comma ++ (first ++ rest)) := by
  rcases others with ⟨row, lines, rfl, breaks, rowSpelled⟩
  refine ⟨comma ++ (first ++ row), lines, by simp, breaks, ?_⟩
  rw [List.flatMap_cons, List.cons_append]
  exact .cons separated (Piece.spelledAll_append.2 ⟨first, row, rfl, spelled, rowSpelled⟩)

theorem passed_comma {stream : TokenStream} (isComma : stream.skipNewlines.current.kind = .comma) :
    ∃ tokens, stream.Passed tokens stream.skipNewlines.advance ∧
      (Piece.sign .comma).Spelled Expr.Spells tokens := by
  have spans := (spans_sign_iff .comma (by decide) (by decide)).2 ⟨isComma, rfl⟩
  exact spans.spelled

theorem further_of_moreChoices_accepted (stream rest : TokenStream) (choices : List Choice)
    (reply : moreChoices stream = .accepted choices rest) :
    ∃ tokens, stream.Passed tokens rest ∧ FurtherChoices choices tokens := by
  fun_induction moreChoices stream generalizing choices rest with
  | case1 => contradiction
  | case2 => contradiction
  | case3 stream start isComma first middle chosen fewer others last reached induction =>
      injection reply with sameChoices sameRest
      subst sameChoices sameRest
      rcases passed_comma isComma with ⟨comma, commaPassed, separated⟩
      rcases viable_choice.accepted chosen with ⟨front, frontPassed, spelled⟩
      rcases induction _ _ reached with ⟨back, backPassed, more⟩
      exact ⟨_, commaPassed.trans (frontPassed.trans backPassed), more.cons separated spelled⟩
  | case4 stream start =>
      injection reply with sameChoices sameRest
      subst sameChoices sameRest
      rcases passed_skipNewlines stream with ⟨run, breaks, skipped⟩
      exact ⟨run, skipped, [], run, rfl, breaks, .nil⟩

theorem completable_of_moreChoices_refused (stream rest : TokenStream) (fault : Fault)
    (reply : moreChoices stream = .refused fault rest) :
    ∃ tokens place, stream.Passed tokens place ∧ fault.StandsAt place rest ∧
      Completable FurtherChoices tokens := by
  fun_induction moreChoices stream generalizing fault rest with
  | case1 stream start isComma fault' rest' refused =>
      injection reply with sameFault sameRest
      subst sameFault sameRest
      rcases passed_comma isComma with ⟨comma, commaPassed, separated⟩
      rcases viable_choice.refused refused with
        ⟨front, place, frontPassed, stands, fillers, choice, areFillers, spelled⟩
      refine ⟨_, place, commaPassed.trans frontPassed, stands, fillers, [choice], areFillers, ?_⟩
      have none : FurtherChoices [] [] := ⟨[], [], rfl, breaks_nil, .nil⟩
      simpa using none.cons separated spelled
  | case2 stream start isComma first middle chosen fewer fault' last reached induction =>
      injection reply with sameFault sameRest
      subst sameFault sameRest
      rcases passed_comma isComma with ⟨comma, commaPassed, separated⟩
      rcases viable_choice.accepted chosen with ⟨front, frontPassed, spelled⟩
      rcases induction _ _ reached with
        ⟨back, place, backPassed, stands, fillers, choices, areFillers, more⟩
      refine ⟨_, place, commaPassed.trans (frontPassed.trans backPassed), stands, fillers,
        first :: choices, areFillers, ?_⟩
      simpa using more.cons separated spelled
  | case3 => contradiction
  | case4 => contradiction

theorem viable_moreChoices : Rule.Viable moreChoices FurtherChoices where
  accepted := further_of_moreChoices_accepted _ _ _
  refused := completable_of_moreChoices_refused _ _ _
  inhabited := ⟨[], [], by simp, [], [], rfl, breaks_nil, .nil⟩

end Rule

/-! ## Expressions -/

namespace Expr

/-- The tokens that a level has passed at a place can be completed to an expression of the level,
or to one that goes on with the expression before. -/
def Opens (level : Level) (before : Option Expr) (stream place : TokenStream) : Prop :=
  ∃ (lines : List Token) (fillers : List Lexeme) (tokens : List Token) (value : Expr),
    stream.Passed lines place ∧ (∀ lexeme ∈ fillers, lexeme.Filler) ∧
    Spread tokens (lines ++ fillers.map Lexeme.token) ∧ Completes level tokens value before ∧
    (before ≠ none → ∀ token ∈ tokens.head?, token.kind ≠ .leftParen)

theorem Derives.of_operand {tokens : List Token} {value : Expr}
    (derived : Derives .operand tokens value) (level : Level) : Derives level tokens value := by
  have sign : Derives .sign tokens value := .tighter derived
  have product : Derives .product tokens value := .tighter sign
  have sum : Derives .sum tokens value := .tighter product
  have comparison : Derives .comparison tokens value := .tighter sum
  have negation : Derives .negation tokens value := .tighter comparison
  have conjunction : Derives .conjunction tokens value := .tighter negation
  cases level with
  | disjunction => exact .tighter conjunction
  | _ => assumption

theorem Spread.append_fillers {tokens lines : List Token} (spread : Spread tokens lines)
    {fillers : List Lexeme} (apart : ∀ lexeme ∈ fillers.head?, lexeme.kind ≠ .leftParen) :
    Spread (tokens ++ fillers.map Lexeme.token) (lines ++ fillers.map Lexeme.token) := by
  refine spread.append (.self _) fun token head => ?_
  rw [List.head?_map] at head
  rcases Option.map_eq_some_iff.1 head with ⟨lexeme, isHead, rfl⟩
  exact apart lexeme isHead

namespace Opens

variable {level : Level} {before : Option Expr} {stream middle place : TokenStream}

theorem of_covers {tokens : List Token} {fillers : List Lexeme} {value : Expr}
    (covers : Covers tokens stream place) (areFillers : ∀ lexeme ∈ fillers, lexeme.Filler)
    (derived : Derives level (tokens ++ fillers.map Lexeme.token) value)
    (apart : ∀ lexeme ∈ fillers.head?, lexeme.kind ≠ .leftParen) :
    Opens level none stream place := by
  rcases covers with ⟨lines, spread, passed⟩
  exact ⟨lines, fillers, _, value, passed, areFillers, spread.append_fillers apart, derived, by simp⟩

theorem nothing (level : Level) (stream : TokenStream) : Opens level none stream stream := by
  have word : Text.IsName "x" := by decide
  have derived : Derives .operand [(Lexeme.name "x" [' ']).token] (.global "x") := by
    rw [Lexeme.token_name]
    exact .global rfl (by decide)
  exact @of_covers level stream stream [] [.name "x" [' ']] _ (.nothing stream)
    (by simpa using Lexeme.filler_name word) (derived.of_operand level) (by simp)

theorem enclose {closing : List Lexeme} {level' : Level} (notEnd : stream.current.kind ≠ .endOfInput)
    (noQuestion : stream.current.isWord "has_item" = false)
    (opens : Opens level none stream.step place)
    (areFillers : ∀ lexeme ∈ closing, lexeme.Filler)
    (apart : ∀ lexeme ∈ closing.head?, lexeme.kind ≠ .leftParen)
    (completes : ∀ tokens value, Derives level tokens value → ∃ value', Completes level'
      (stream.current :: (tokens ++ closing.map Lexeme.token)) value' before)
    (begins : before ≠ none → stream.current.kind ≠ .leftParen) :
    Opens level' before stream place := by
  rcases opens with ⟨lines, fillers, tokens, value, passed, are, spread, derived, _⟩
  rcases completes tokens value derived with ⟨value', completed⟩
  rcases passed_skipNewlines stream.advance with ⟨run, breaks, skipped⟩
  refine ⟨_, fillers ++ closing, _, value', (passed_current notEnd).trans (skipped.trans passed),
    List.forall_mem_append.2 ⟨are, areFillers⟩, ?_, completed, by simpa using begins⟩
  have whole : Spread (stream.current :: (tokens ++ closing.map Lexeme.token)) _ :=
    .cons breaks (by simp [noQuestion]) (spread.append_fillers apart)
  simpa using whole

theorem step {level' : Level} (notEnd : stream.current.kind ≠ .endOfInput)
    (noQuestion : stream.current.isWord "has_item" = false)
    (opens : Opens level none stream.step place)
    (completes : ∀ tokens value, Derives level tokens value →
      ∃ value', Completes level' (stream.current :: tokens) value' before)
    (begins : before ≠ none → stream.current.kind ≠ .leftParen) :
    Opens level' before stream place :=
  @enclose level before stream place [] level' notEnd noQuestion opens (by simp) (by simp)
    (by simpa using completes) begins

theorem tighter (opens : Opens level.tighter none stream place) :
    Opens level none stream place := by
  rcases opens with ⟨lines, fillers, tokens, value, passed, areFillers, spread, derived, _⟩
  exact ⟨lines, fillers, tokens, value, passed, areFillers, spread, .tighter derived, by simp⟩

theorem append {tokens : List Token} {left : Expr} (covers : Covers tokens stream middle)
    (opens : Opens level (some left) middle place)
    (carries : ∀ others value, Completes level others value (some left) →
      Completes level (tokens ++ others) value before)
    (begins : before ≠ none → ∀ others, ∀ token ∈ (tokens ++ others).head?,
      token.kind ≠ .leftParen) : Opens level before stream place := by
  rcases covers with ⟨front, frontSpread, frontPassed⟩
  rcases opens with ⟨lines, fillers, others, value, passed, areFillers, spread, completes, apart⟩
  refine ⟨front ++ lines, fillers, tokens ++ others, value, frontPassed.trans passed, areFillers, ?_,
    carries others value completes, fun given => begins given others⟩
  rw [List.append_assoc]
  exact frontSpread.append spread (apart (by simp))

end Opens

theorem expect_refused {kind : TokenKind} {stream rest : TokenStream} {fault : Fault}
    (reply : expect kind stream = .refused fault rest) :
    stream.current.kind ≠ kind ∧ rest = stream ∧ fault.StandsAt rest rest := by
  rcases (Rule.bind_refused _).1 reply with refused | ⟨token, middle, _, more⟩
  · rcases Rule.token_refused.1 refused with ⟨other, rfl, rfl⟩
    exact ⟨by simpa using other, rfl, Fault.standsAt_of_not_quotes rfl stream⟩
  · contradiction

theorem opens_of_itemQuestion {stream rest : TokenStream} {fault : Fault}
    (call : atCall stream = true) (asks : stream.current.value = "has_item")
    (reply : itemQuestion stream.step = .refused fault rest) :
    fault.StandsAt rest rest ∧ Opens .operand none stream rest := by
  rcases isName_of_atCall call with ⟨isName, opensBehind⟩
  have stepped : stream.step = stream.advance :=
    skipNewlines_eq breaks_nil (.nothing _) (by simp [opensBehind])
  have opens : stream.step.current.kind = .leftParen := by rw [stepped, opensBehind]
  have isWord : stream.current.isWord "has_item" = true := by simp [Token.isWord, isName, asks]
  have closing := @Lexeme.filler_sign .rightParen rfl
  have word : Text.IsName "x" := by decide
  unfold itemQuestion at reply
  rcases (Rule.bind_refused _).1 reply with refused | ⟨opening, _, opened, reply⟩
  · exact absurd opens (expect_refused refused).1
  · rcases expect_accepted.1 opened with ⟨_, rfl, rfl⟩
    rcases (Rule.bind_refused _).1 reply with refused | ⟨item, _, named, reply⟩
    · rcases expect_refused refused with ⟨_, rfl, stands⟩
      have covers : Covers [stream.current, stream.step.current] stream stream.step.step :=
        .step (by simp [isName]) (fun _ _ => stepped) (.singleton (by simp [opens]))
      have areFillers := List.forall_mem_cons.2
        ⟨Lexeme.filler_name word, List.forall_mem_singleton.2 closing⟩
      exact ⟨stands, .of_covers covers areFillers (.question isWord opens rfl rfl) (by simp)⟩
    · rcases expect_accepted.1 named with ⟨isItem, rfl, rfl⟩
      rcases (Rule.bind_refused _).1 reply with refused | ⟨_, _, closed, reply⟩
      · rcases expect_refused refused with ⟨_, rfl, stands⟩
        have covers : Covers [stream.current, stream.step.current, stream.step.step.current] stream
            stream.step.step.step :=
          .step (by simp [isName]) (fun _ _ => stepped)
            (.step (by simp [opens]) (by simp [Token.isWord, opens]) (.singleton (by simp [isItem])))
        exact ⟨stands, .of_covers covers (List.forall_mem_singleton.2 closing)
          (.question isWord opens isItem rfl) (by simp)⟩
      · contradiction

theorem operandComplaint_ne (token : Token) :
    operandComplaint token ≠ .unknownSpecial ∧ operandComplaint token ≠ .unknownFunction := by
  unfold operandComplaint
  split <;> simp

theorem operandComplaint_quotes {token : Token} (quotes : (operandComplaint token).quotes = true) :
    token.kind = .identifier := by
  unfold operandComplaint at quotes
  split at quotes
  · contradiction
  · assumption
  · contradiction

theorem opens_of_simpleOperand {stream rest : TokenStream} {fault : Fault}
    (reply : simpleOperand stream = .refused fault rest) :
    fault.StandsAt rest rest ∧ Opens .operand none stream rest := by
  unfold simpleOperand at reply
  split at reply
  · next call =>
      split at reply
      · next asks => exact opens_of_itemQuestion call asks reply
      · injection reply with sameFault sameRest
        subst sameFault sameRest
        have isName := isName_of_atCall call
        exact ⟨⟨rfl, by simp, fun _ => isName.2, fun _ => isName.1⟩, .nothing _ _⟩
  · split at reply
    · contradiction
    · injection reply with sameFault sameRest
      subst sameFault sameRest
      have plain := operandComplaint_ne stream.current
      exact ⟨⟨rfl, by simp [plain.1], by simp [plain.2], operandComplaint_quotes⟩, .nothing _ _⟩

theorem completes_of_operator {level : Level} {sign : Token} {op : BinaryOp}
    (operator : sign.binaryOpAt? level = some op) {left right : Expr} {tokens : List Token}
    (derived : Derives level.tighter tokens right) :
    Completes level (sign :: tokens) (.binary op left right) (some left) := by
  intro before leftDerived once
  by_cases isComparison : level = .comparison
  · subst isComparison
    exact .compared (once rfl) operator derived
  · exact .joined isComparison leftDerived operator derived

mutual

/-- Where a level refuses, it has passed what an expression of the level can begin with. -/
theorem opens_of_parse {level : Level} {stream rest : TokenStream} {fault : Fault}
    (reply : parse level stream = .refused fault rest) :
    fault.StandsAt rest rest ∧ Opens level none stream rest := by
  by_cases last : level = .operand
  · subst last
    by_cases opening : stream.current.kind = .leftParen
    · have stepped : stream.step.remaining < stream.remaining :=
        remaining_step_lt (by simp [opening])
      have closing := List.forall_mem_singleton.2 (@Lexeme.filler_sign .rightParen rfl)
      have noQuestion : stream.current.isWord "has_item" = false := by simp [Token.isWord, opening]
      rw [parse_enclosed opening] at reply
      rcases (Rule.bind_refused _).1 reply with inside | ⟨inner, middle, reached, reply⟩
      · rcases opens_of_parse inside with ⟨stands, opens⟩
        exact ⟨stands, opens.enclose (by simp [opening]) noQuestion closing (by simp)
          (fun _ _ derived => ⟨_, .enclosed opening derived rfl⟩) (by simp)⟩
      · rcases (Rule.bind_refused _).1 reply with closed | ⟨_, _, _, reply⟩
        · rcases expect_refused closed with ⟨_, rfl, stands⟩
          rcases covers_of_reads (reads_of_parse reached) with ⟨tokens, covers, derived, _⟩
          have whole : Covers (stream.current :: tokens) stream rest :=
            covers.step (by simp [opening]) (by simp [noQuestion])
          exact ⟨stands, .of_covers whole closing (.enclosed opening derived rfl) (by simp)⟩
        · contradiction
    · rw [parse_simple opening] at reply
      exact opens_of_simpleOperand reply
  by_cases signed : level = .sign ∧ stream.current.kind = .minus
  · rcases signed with ⟨rfl, sign⟩
    have stepped : stream.step.remaining < stream.remaining :=
      remaining_step_lt (by simp [sign])
    rw [parse_negative sign] at reply
    rcases (Rule.bind_refused _).1 reply with refused | ⟨_, _, _, reply⟩
    · rcases opens_of_parse refused with ⟨stands, opens⟩
      exact ⟨stands, opens.step (by simp [sign]) (by simp [Token.isWord, sign])
        (fun _ _ derived => ⟨_, .negative sign derived⟩) (by simp)⟩
    · contradiction
  by_cases negated : level = .negation ∧ stream.current.isWord "not" = true
  · rcases negated with ⟨rfl, denial⟩
    have stepped := remaining_step_lt (Token.kind_ne_endOfInput_of_isWord denial)
    rw [parse_denied denial] at reply
    rcases (Rule.bind_refused _).1 reply with refused | ⟨_, _, _, reply⟩
    · rcases opens_of_parse refused with ⟨stands, opens⟩
      have word := kind_of_isWord denial
      exact ⟨stands, opens.step (by simp [word.1]) (by simp [Token.isWord, word.2])
        (fun _ _ derived => ⟨_, .denied denial derived⟩) (by simp)⟩
    · contradiction
  have tighter := Level.rank_tighter_lt last
  rw [parse_tighter last signed negated] at reply
  rcases (Rule.bind_refused _).1 reply with refused | ⟨left, middle, reached, reply⟩
  · rcases opens_of_parse refused with ⟨stands, opens⟩
    exact ⟨stands, opens.tighter⟩
  · have passed : middle.remaining < stream.remaining :=
      (read level.tighter stream).property left middle reached
    rcases covers_of_reads (reads_of_parse reached) with ⟨tokens, covers, derived, _⟩
    rcases opens_of_parseMore reply with ⟨stands, opens⟩
    refine ⟨stands, opens.append covers (fun others value completes => ?_) (by simp)⟩
    exact completes tokens (.tighter derived) fun isComparison => by
      subst isComparison
      exact derived
termination_by (stream.remaining, level.rank)

theorem opens_of_parseMore {level : Level} {left : Expr} {stream rest : TokenStream} {fault : Fault}
    (reply : parseMore level left stream = .refused fault rest) :
    fault.StandsAt rest rest ∧ Opens level (some left) stream rest := by
  cases operator : stream.current.binaryOpAt? level with
  | none =>
      rw [parseMore_done operator] at reply
      contradiction
  | some op =>
      have notEnd := Token.kind_ne_endOfInput_of_binaryOpAt? operator
      have stepped := remaining_step_lt notEnd
      have found := (binaryOpAt?_eq_some.1 operator).1
      have plain : stream.current.isWord "has_item" = false ∧ stream.current.kind ≠ .leftParen := by
        refine ⟨?_, (kind_of_binaryOp? found).2.2.1⟩
        rw [Bool.eq_false_iff]
        exact fun asks => absurd (isWord_of_binaryOp? found asks) (by decide)
      rw [parseMore_joined operator] at reply
      rcases (Rule.bind_refused _).1 reply with refused | ⟨right, middle, reached, reply⟩
      · rcases opens_of_parse refused with ⟨stands, opens⟩
        exact ⟨stands, opens.step notEnd plain.1
          (fun _ _ derived => ⟨_, completes_of_operator operator derived⟩) fun _ => plain.2⟩
      · have passed : middle.remaining < stream.step.remaining :=
          (read level.tighter stream.step).property right middle reached
        rcases covers_of_reads (reads_of_parse reached) with ⟨tokens, covers, derived, _⟩
        by_cases once : level = .comparison
        · rw [if_pos once] at reply
          contradiction
        · rw [if_neg once] at reply
          rcases opens_of_parseMore reply with ⟨stands, opens⟩
          have whole := covers.step notEnd (by simp [plain.1])
          refine ⟨stands, opens.append whole (fun others value completes => ?_) fun _ _ => by
            simpa using plain.2⟩
          intro before leftDerived _
          have joined := completes _ (.joined once leftDerived operator derived) fun isComparison =>
            absurd isComparison once
          simpa using joined
termination_by (stream.remaining, level.rank)

end

theorem viable_rule : Expr.rule.Viable Spells where
  accepted := spells_of_rule_accepted
  refused {stream rest fault} reply := by
    rcases passed_skipNewlines stream with ⟨run, breaks, skipped⟩
    rcases opens_of_parse reply with ⟨stands, opens⟩
    rcases opens with ⟨lines, fillers, tokens, value, passed, areFillers, spread, derived, _⟩
    exact ⟨run ++ lines, rest, skipped.trans passed, stands, fillers, value, areFillers, run, tokens,
      _, by simp, breaks, spread, derived⟩
  inhabited := by
    rcases Opens.nothing .disjunction ⟨0, [], .start⟩ with
      ⟨lines, fillers, tokens, value, passed, areFillers, spread, derived, _⟩
    have none : lines = [] := by simpa using passed.ahead
    subst none
    exact ⟨fillers, value, areFillers, [], tokens, _, rfl, breaks_nil, spread, derived⟩

end Expr

/-! ## Instructions -/

namespace Rule

theorem viable_expression :
    Expr.rule.Viable fun value tokens => Piece.SpelledAll Expr.Spells [.expression value] tokens := by
  apply Expr.viable_rule.mono
  intro value tokens spells
  simpa using Piece.SpelledAll.cons (.expression spells) .nil

def Arguments (keyword : String) (instruction : Instruction) (tokens : List Token) : Prop :=
  instruction.kind = keyword ∧ Piece.SpelledAll Expr.Spells
    (Piece.separated (instruction.arguments.map Argument.pieces)) tokens

theorem closeArguments_eq : closeArguments =
    argument .rightParen >>= fun _ => expectEndOfLine >>= fun _ => pure () := by
  simp only [closeArguments, argument, bind_assoc]

theorem viable_closeArguments :
    closeArguments.Viable fun _ tokens => ∃ sign lineEnd, tokens = sign ++ [lineEnd] ∧
      Piece.SpelledAll Expr.Spells [.sign .rightParen] sign ∧ lineEnd.kind = .newline := by
  have lineEnd : expectEndOfLine.Viable fun found tokens =>
      (found.kind == .newline) = true ∧ tokens = [found] := by
    refine viable_token (fun token holds => ?_) rfl Lexeme.filler_lineEnd (by simp)
    rw [beq_iff_eq] at holds
    simp [holds]
  rw [closeArguments_eq]
  apply ((@viable_sign .rightParen rfl).bind fun _ => lineEnd.map fun _ => ()).mono
  intro _ tokens written
  rcases written with ⟨_, sign, _, rfl, closing, lineEnd, _, isEnd, rfl⟩
  exact ⟨sign, lineEnd, rfl, closing, beq_iff_eq.1 isEnd⟩

def behindKeyword (inside : Rule Instruction) : Rule Instruction := do
  let _ ← argument .leftParen
  let instruction ← inside
  closeArguments
  return instruction

theorem form_eq (keyword : String) (inside : Rule Instruction) :
    form keyword inside = expectWord keyword >>= fun _ => behindKeyword inside := by
  simp only [form, behindKeyword, openArguments, argument, bind_assoc, pure_bind]

theorem viable_behindKeyword {keyword : String} {inside : Rule Instruction}
    (viable : inside.Viable (Arguments keyword)) :
    (behindKeyword inside).Viable fun instruction tokens => ∃ pieces lineEnd,
      tokens = pieces ++ [lineEnd] ∧ instruction.kind = keyword ∧
      Piece.SpelledAll Expr.Spells instruction.pieces pieces ∧ lineEnd.kind = .newline := by
  apply ((@viable_sign .leftParen rfl).bind fun _ => viable.bind fun instruction =>
    viable_closeArguments.map fun _ => instruction).mono
  intro instruction tokens written
  rcases written with ⟨_, opening, _, rfl, opens, _, arguments, _, rfl, ⟨isKind, spelled⟩, _, rfl,
    closing, lineEnd, rfl, closes, isEnd⟩
  refine ⟨opening ++ (arguments ++ closing), lineEnd, by simp, isKind, ?_, isEnd⟩
  exact Piece.spelledAll_append.2 ⟨opening, _, rfl, opens,
    Piece.spelledAll_append.2 ⟨arguments, closing, rfl, spelled, closes⟩⟩

theorem viable_form {keyword : String} (isName : Text.IsName keyword) {inside : Rule Instruction}
    (viable : inside.Viable (Arguments keyword)) :
    (form keyword inside).Viable fun instruction tokens => instruction.Written tokens := by
  have word : (expectWord keyword).Viable fun found tokens =>
      found.isWord keyword = true ∧ tokens = [found] :=
    viable_token (fun _ => Token.kind_ne_endOfInput_of_isWord) rfl (Lexeme.filler_name isName)
      (by simp [Token.isWord])
  rw [form_eq]
  apply (word.bind fun _ => viable_behindKeyword viable).mono
  intro instruction tokens written
  rcases written with ⟨found, _, _, rfl, ⟨isWord, rfl⟩, pieces, lineEnd, rfl, rfl, spelled, isEnd⟩
  exact ⟨found, pieces, lineEnd, rfl, isWord, spelled, isEnd⟩

theorem viable_ofName {keyword : String} (make : String → Instruction)
    (kind : ∀ word, (make word).kind = keyword)
    (arguments : ∀ word, (make word).arguments = [.name word]) :
    (ofName make).Viable (Arguments keyword) := by
  apply (viable_name.map make).mono
  intro instruction tokens written
  rcases written with ⟨word, rfl, spelled⟩
  refine ⟨kind word, ?_⟩
  simpa [arguments, Argument.pieces, Piece.separated] using spelled

theorem viable_ofNameAndExpression {keyword : String} (make : String → Expr → Instruction)
    (kind : ∀ word value, (make word value).kind = keyword)
    (arguments : ∀ word value, (make word value).arguments = [.name word, .expression value]) :
    (ofNameAndExpression make).Viable (Arguments keyword) := by
  apply (viable_name.bind fun word => viable_comma.bind fun _ =>
    viable_expression.map (make word)).mono
  intro instruction tokens written
  rcases written with ⟨word, first, _, rfl, name, _, comma, second, rfl, separated, value, rfl, spelled⟩
  refine ⟨kind word value, ?_⟩
  simp only [arguments, List.map_cons, List.map_nil, Piece.separated_cons, Argument.pieces,
    List.flatMap_cons, List.flatMap_nil, List.append_nil]
  exact Piece.spelledAll_append.2 ⟨first, _, rfl, name,
    Piece.spelledAll_append.2 ⟨comma, second, rfl, separated, spelled⟩⟩

theorem viable_ofExpression : (ofExpression .receiveMoney).Viable (Arguments "receive_money") := by
  apply (viable_expression.map Instruction.receiveMoney).mono
  intro instruction tokens written
  rcases written with ⟨amount, rfl, spelled⟩
  refine ⟨rfl, ?_⟩
  simpa [Instruction.arguments, Argument.pieces, Piece.separated] using spelled

theorem spelledAll_append_sign {pieces : List Piece} {kind : TokenKind} {row run closing : List Token}
    (spelled : Piece.SpelledAll Expr.Spells pieces row) (breaks : Breaks run)
    (closes : Piece.SpelledAll Expr.Spells [.sign kind] closing) :
    Piece.SpelledAll Expr.Spells (pieces ++ [.sign kind]) (row ++ (run ++ closing)) := by
  rcases Piece.spelledAll_cons.1 closes with ⟨first, _, rfl, sign, nothing⟩
  rw [Piece.spelledAll_nil.1 nothing, List.append_nil]
  rcases Piece.exists_of_spelled_sign sign with ⟨front, token, frontBreaks, rfl, rfl⟩
  refine Piece.spelledAll_append.2 ⟨row, _, rfl, spelled, ?_⟩
  have both : Breaks (run ++ front) := List.forall_mem_append.2 ⟨breaks, frontBreaks⟩
  have whole := Piece.SpelledAll.cons (@Piece.Spelled.sign Expr.Spells _ token both) .nil
  simpa using whole

theorem viable_ofChoices : ofChoices.Viable (Arguments "talk") := by
  apply (viable_name.bind fun textId => viable_comma.bind fun _ =>
    (@viable_sign .leftBracket rfl).bind fun _ => viable_choice.bind fun first =>
      viable_moreChoices.bind fun others => (@viable_sign .rightBracket rfl).map fun _ =>
        Instruction.talk textId (first :: others)).mono
  intro instruction tokens written
  rcases written with ⟨textId, name, _, rfl, named, _, comma, _, rfl, separated, _, opening, _, rfl,
    opens, first, choice, _, rfl, chosen, others, more, closing, rfl, ⟨row, run, rfl, breaks, spelled⟩,
    _, rfl, closes⟩
  refine ⟨rfl, ?_⟩
  rw [pieces_talkWithChoices, List.append_assoc]
  exact Piece.spelledAll_append.2 ⟨name, _, rfl, named,
    Piece.spelledAll_append.2 ⟨comma, _, rfl, separated,
      Piece.spelledAll_append.2 ⟨opening, _, rfl, opens,
        Piece.spelledAll_append.2 ⟨choice, _, rfl, chosen,
          spelledAll_append_sign spelled breaks closes⟩⟩⟩⟩

theorem completable_symbol {run : List Token} (breaks : Breaks run) :
    Completable (Arguments "special") run := by
  have word : Text.IsName "shop_buy" := by decide
  refine ⟨[.name "shop_buy" [' ']], .special .shopBuy, by simpa using Lexeme.filler_name word, rfl, ?_⟩
  have name := @Piece.Spelled.name Expr.Spells run ⟨.identifier, "shop_buy", .start⟩ breaks rfl
  simpa [Instruction.arguments, Argument.pieces, Piece.separated, Special.symbol] using Piece.SpelledAll.cons name .nil

theorem behaviour_refused {symbol : Token} {stream rest : TokenStream} {fault : Fault}
    (reply : Rule.behaviour symbol stream = .refused fault rest) :
    ⟨.unknownSpecial, symbol⟩ = fault ∧ stream = rest := by
  unfold Rule.behaviour at reply
  cases found : Special.ofSymbol? symbol.value with
  | none => simpa [found, refuse] using reply
  | some known => simp [found, pure_apply] at reply

/-- An unknown symbol is refused when it has been passed, but the fault is about the symbol. -/
theorem viable_ofSymbol : ofSymbol.Viable (Arguments "special") where
  accepted reply := by
    rcases (readsArguments_ofSymbol.accepted _ _ _).1 reply with ⟨shape, spans⟩
    rcases spans.spelled with ⟨tokens, passed, spelled⟩
    exact ⟨tokens, passed, readsArguments_ofSymbol.kind _ shape, spelled⟩
  refused {stream rest fault} reply := by
    rcases passed_skipNewlines stream with ⟨run, breaks, skipped⟩
    have skips : ∀ kind, argument kind stream = expect kind stream.skipNewlines := fun _ => rfl
    have stands : fault.StandsAt stream.skipNewlines rest := by
      rcases (bind_refused _).1 reply with refused | ⟨symbol, middle, named, unknown⟩
      · rw [skips] at refused
        rcases token_refused.1 refused with ⟨_, rfl, rfl⟩
        exact Fault.standsAt_of_not_quotes rfl _
      · rw [skips] at named
        rcases token_accepted.1 named with ⟨isName, rfl, rfl⟩
        rcases behaviour_refused unknown with ⟨rfl, rfl⟩
        rw [beq_iff_eq] at isName
        have notEnd : stream.skipNewlines.current.kind ≠ .endOfInput := by simp [isName]
        exact ⟨rfl, by simpa using (passed_current notEnd).index, by simp, fun _ => isName⟩
    exact ⟨run, _, skipped, stands, completable_symbol breaks⟩
  inhabited := completable_symbol breaks_nil

theorem viable_insideOf (instruction : Instruction) :
    (insideOf instruction).Viable (Arguments instruction.kind) := by
  cases instruction with
  | jump target => exact viable_ofName .jump (fun _ => rfl) (fun _ => rfl)
  | jumpIf target condition =>
      exact viable_ofNameAndExpression .jumpIf (fun _ _ => rfl) (fun _ _ => rfl)
  | talk textId choices =>
      cases choices with
      | nil => exact viable_ofName (.talk · []) (fun _ => rfl) (fun _ => rfl)
      | cons first others => exact viable_ofChoices
  | assign name value => exact viable_ofNameAndExpression .assign (fun _ _ => rfl) (fun _ _ => rfl)
  | receiveMoney amount => exact viable_ofExpression
  | removeItem item => exact viable_ofName .removeItem (fun _ => rfl) (fun _ => rfl)
  | special behaviour => exact viable_ofSymbol

theorem viable_formOf (instruction : Instruction) :
    (formOf instruction).Viable fun written tokens => written.Written tokens := by
  rw [formOf_eq_form]
  exact viable_form instruction.isName_kind (viable_insideOf instruction)

theorem index_lt_of_formOf_refused {instruction : Instruction} {stream rest : TokenStream}
    {fault : Fault} (found : stream.current.isWord instruction.kind = true)
    (reply : formOf instruction stream = .refused fault rest) : stream.index < rest.index := by
  rw [formOf_eq_form, form_eq, bind_refused] at reply
  rcases reply with refused | ⟨word, middle, reached, refused⟩
  · rw [expectWord, token_refused, found] at refused
    exact absurd refused.1 (by simp)
  · have passed := (expectWord_accepted.1 reached).2.index
    rcases (viable_behindKeyword (viable_insideOf instruction)).refused refused with
      ⟨_, place, behind, stands, _⟩
    have further := behind.index_le
    rw [stands.index]
    rw [List.length_singleton] at passed
    omega

/-! ## Headers -/

def behindMarker (spaced : Bool) : Rule String := do
  let name ← current
  if name.kind ≠ .identifier then
    refuse ⟨.expectedSectionName, name⟩
  else if !spaced then
    refuse ⟨.unspacedSectionName, name⟩
  else do
    let _ ← advance
    let _ ← expectEndOfLine
    return name.value

theorem sectionHeader_of_marker {stream : TokenStream}
    (isMarker : stream.current.kind = .sectionMarker) :
    sectionHeader stream =
      behindMarker (spacedFrom stream.current stream.advance.current) stream.advance := by
  simp only [sectionHeader, bind_apply, expect, token, isMarker, beq_self_eq_true, ↓reduceIte]
  rfl

theorem sectionHeader_of_other {stream : TokenStream}
    (notMarker : stream.current.kind ≠ .sectionMarker) :
    sectionHeader stream = .refused ⟨.expected .sectionMarker, stream.current⟩ stream := by
  simp [sectionHeader, bind_apply, expect, token, notMarker]

theorem behindMarker_refused {spaced : Bool} {stream rest : TokenStream} {fault : Fault}
    (reply : behindMarker spaced stream = .refused fault rest) :
    fault.StandsAt rest rest ∧ (rest = stream ∨
      spaced = true ∧ stream.current.kind = .identifier ∧ rest = stream.advance) := by
  simp only [behindMarker, bind_apply, current] at reply
  split at reply
  · injection reply with sameFault sameRest
    subst sameFault sameRest
    exact ⟨Fault.standsAt_of_not_quotes rfl stream, .inl rfl⟩
  · next isName =>
      simp only [ne_eq, Decidable.not_not] at isName
      split at reply
      · injection reply with sameFault sameRest
        subst sameFault sameRest
        exact ⟨Fault.standsAt_of_not_quotes rfl stream, .inl rfl⟩
      · next isSpaced =>
          rcases (bind_refused expectEndOfLine).1 reply with refused | ⟨_, _, _, more⟩
          · rcases token_refused.1 refused with ⟨_, rfl, rfl⟩
            exact ⟨Fault.standsAt_of_not_quotes rfl stream.advance,
              .inr ⟨by simpa using isSpaced, isName, rfl⟩⟩
          · contradiction

end Rule

end EventScript
