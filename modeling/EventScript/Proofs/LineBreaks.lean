import EventScript.Proofs.FurthestRefusal
import EventScript.Proofs.Glyphs
import EventScript.Proofs.Relexing

/-! Line breaks among the arguments of instructions. A line break between two tokens changes
nothing, except for one place: the word of a question must have its parenthesis right behind
it, so a break between the two spoils the instruction. -/

namespace EventScript

open TokenStream

/-! ## Breaks among pieces -/

/-- A break between these tokens would cut the word of a question off its parenthesis. -/
def CutsQuestion (before behind : List Token) : Prop :=
  (∃ word ∈ before.getLast?, word.isWord "has_item" = true) ∧
    ∃ opening ∈ behind.head?, opening.kind = .leftParen

namespace CutsQuestion

variable {before last first behind : List Token}

theorem of_append (before : List Token) (cuts : CutsQuestion last behind) :
    CutsQuestion (before ++ last) behind := by
  rcases cuts with ⟨⟨word, isLast, asks⟩, opened⟩
  refine ⟨⟨word, ?_, asks⟩, opened⟩
  rw [List.getLast?_append, Option.mem_def.1 isLast]
  rfl

theorem append (cuts : CutsQuestion before first) (behind : List Token) :
    CutsQuestion before (first ++ behind) := by
  rcases cuts with ⟨asked, opening, head, opens⟩
  cases first with
  | nil => simp at head
  | cons token others => exact ⟨asked, opening, head, opens⟩

theorem of_essence {behind' : List Token} (cuts : CutsQuestion before behind)
    (same : behind'.map Token.essence = behind.map Token.essence) :
    CutsQuestion before behind' := by
  rcases cuts with ⟨asked, opening, head, opens⟩
  cases behind with
  | nil => simp at head
  | cons token others =>
      injection head with sameToken
      subst sameToken
      rcases List.map_eq_cons_iff.1 same with ⟨token', others', rfl, sameToken, _⟩
      exact ⟨asked, token', rfl, (Token.kind_of_essence sameToken).trans opens⟩

end CutsQuestion

variable {before behind tokens lines : List Token} {lineEnd : Token}

theorem Expr.Spread.head?_eq (spread : Spread tokens lines) : lines.head? = tokens.head? := by
  cases spread with
  | nil => rfl
  | cons => rfl

theorem Expr.Spread.insert (spread : Spread tokens lines) (parts : lines = before ++ behind)
    (nonempty : before ≠ []) (isEnd : lineEnd.kind = .newline)
    (uncut : ¬CutsQuestion before behind) : Spread tokens (before ++ lineEnd :: behind) := by
  induction spread generalizing before with
  | nil => simp [nonempty] at parts
  | @cons token run tokens lines breaks unbroken others induction =>
      rcases List.exists_cons_of_ne_nil nonempty with ⟨first, front, rfl⟩
      rw [List.cons_append, List.cons.injEq] at parts
      rcases parts with ⟨rfl, parts⟩
      -- The break may join those behind the token, or it comes later.
      have joins : ∀ middle, run = front ++ middle → behind = middle ++ lines →
          Spread (token :: tokens) (token :: front ++ lineEnd :: behind) := by
        intro middle sameRun sameBehind
        have joined : Spread (token :: tokens) (token :: ((front ++ lineEnd :: middle) ++ lines)) := by
          refine .cons ?_ (fun asks opened => ?_) others
          · rw [sameRun] at breaks
            simp only [Breaks, List.forall_mem_append, List.forall_mem_cons] at breaks ⊢
            exact ⟨breaks.1, isEnd, breaks.2⟩
          · have nothing := List.append_eq_nil_iff.1 (sameRun ▸ unbroken asks opened)
            rw [nothing.2, List.nil_append] at sameBehind
            rw [nothing.1, sameBehind] at uncut
            rw [← others.head?_eq] at opened
            exact absurd ⟨⟨token, rfl, asks⟩, opened⟩ uncut
        simpa [sameBehind] using joined
      rcases List.append_eq_append_iff.1 parts with
        ⟨middle, sameFront, sameLines⟩ | ⟨middle, sameRun, sameBehind⟩
      · by_cases nothing : middle = []
        · subst nothing
          exact joins [] (by simpa using sameFront.symm) (by simpa using sameLines.symm)
        · rw [sameFront] at uncut ⊢
          have later := induction sameLines nothing fun cuts =>
            uncut (cuts.of_append (token :: run))
          simpa using Spread.cons breaks unbroken later
      · exact joins middle sameRun sameBehind

theorem breaks_insert {run : List Token} (breaks : Breaks run) (parts : run = before ++ behind)
    (isEnd : lineEnd.kind = .newline) : Breaks (before ++ lineEnd :: behind) := by
  rw [parts] at breaks
  simp only [Breaks, List.forall_mem_append, List.forall_mem_cons] at breaks ⊢
  exact ⟨breaks.1, isEnd, breaks.2⟩

theorem Expr.Spells.insert {value : Expr} (spells : Spells value (before ++ behind))
    (isEnd : lineEnd.kind = .newline) (uncut : ¬CutsQuestion before behind) :
    Spells value (before ++ lineEnd :: behind) := by
  rcases spells with ⟨run, tokens, spread, parts, breaks, isSpread, derived⟩
  -- The break comes before the first token of the expression, or behind it.
  have joins : ∀ middle, run = before ++ middle → behind = middle ++ spread →
      Spells value (before ++ lineEnd :: behind) := by
    intro middle sameRun sameBehind
    exact ⟨_, tokens, spread, by simp [sameBehind], breaks_insert breaks sameRun isEnd, isSpread,
      derived⟩
  rcases List.append_eq_append_iff.1 parts with
    ⟨middle, sameRun, sameBehind⟩ | ⟨middle, sameBefore, sameSpread⟩
  · exact joins middle sameRun sameBehind
  · by_cases nothing : middle = []
    · subst nothing
      exact joins [] (by simpa using sameBefore.symm) (by simpa using sameSpread.symm)
    · rw [sameBefore] at uncut ⊢
      refine ⟨run, tokens, _, by simp, breaks, isSpread.insert sameSpread nothing isEnd ?_, derived⟩
      exact fun cuts => uncut (cuts.of_append run)

namespace Piece

theorem Spelled.insert {piece : Piece} (spelled : piece.Spelled Expr.Spells tokens)
    (parts : tokens = before ++ behind) (nonempty : behind ≠ []) (isEnd : lineEnd.kind = .newline)
    (uncut : ¬CutsQuestion before behind) :
    piece.Spelled Expr.Spells (before ++ lineEnd :: behind) := by
  rcases List.eq_nil_or_concat' behind with rfl | ⟨others, last, rfl⟩
  · contradiction
  · have moved : before ++ lineEnd :: (others ++ [last]) = (before ++ lineEnd :: others) ++ [last] := by
      simp
    rw [← List.append_assoc] at parts
    cases spelled with
    | sign breaks =>
        rcases List.append_inj' parts rfl with ⟨sameRun, sameToken⟩
        injection sameToken with sameToken
        rw [moved, ← sameToken]
        exact .sign (breaks_insert breaks sameRun isEnd)
    | name breaks isName =>
        rcases List.append_inj' parts rfl with ⟨sameRun, sameToken⟩
        injection sameToken with sameToken
        rw [moved, ← sameToken]
        exact .name (breaks_insert breaks sameRun isEnd) isName
    | expression spells =>
        rw [parts, List.append_assoc] at spells
        exact .expression (spells.insert isEnd uncut)

theorem SpelledAll.insert {pieces : List Piece} (spelled : SpelledAll Expr.Spells pieces tokens)
    (parts : tokens = before ++ behind) (nonempty : behind ≠ []) (isEnd : lineEnd.kind = .newline)
    (uncut : ¬CutsQuestion before behind) :
    SpelledAll Expr.Spells pieces (before ++ lineEnd :: behind) := by
  induction spelled generalizing before behind with
  | nil =>
      have nothing := List.append_eq_nil_iff.1 parts.symm
      exact absurd nothing.2 nonempty
  | @cons piece pieces first others firstSpelled rest induction =>
      -- The break is among the other pieces if it comes right behind the first one.
      have later : ∀ middle, before = first ++ middle → others = middle ++ behind →
          SpelledAll Expr.Spells (piece :: pieces) (before ++ lineEnd :: behind) := by
        intro middle sameBefore sameOthers
        rw [sameBefore, List.append_assoc]
        refine .cons firstSpelled (induction sameOthers nonempty fun cuts => ?_)
        exact uncut (sameBefore ▸ cuts.of_append first)
      rcases List.append_eq_append_iff.1 parts with
        ⟨middle, sameBefore, sameOthers⟩ | ⟨middle, sameFirst, sameBehind⟩
      · exact later middle sameBefore sameOthers
      · by_cases nothing : middle = []
        · subst nothing
          exact later [] (by simpa using sameFirst.symm) (by simpa using sameBehind.symm)
        · rw [sameBehind] at uncut ⊢
          have whole : before ++ lineEnd :: (middle ++ others) =
              (before ++ lineEnd :: middle) ++ others := by simp
          rw [whole]
          refine .cons (firstSpelled.insert sameFirst nothing isEnd fun cuts => ?_) rest
          exact uncut (cuts.append others)

end Piece

/-- A break among the arguments of an instruction, before any token up to the closing
parenthesis, does not change the instruction, unless it cuts a question. -/
theorem Instruction.Written.insert {instruction : Instruction}
    (written : instruction.Written (before ++ behind)) (nonempty : before ≠ [])
    (inside : 2 ≤ behind.length) (isEnd : lineEnd.kind = .newline)
    (uncut : ¬CutsQuestion before behind) : instruction.Written (before ++ lineEnd :: behind) := by
  rcases written with ⟨word, pieces, last, parts, isWord, spelled, isLast⟩
  rcases List.exists_cons_of_ne_nil nonempty with ⟨first, front, rfl⟩
  rcases List.eq_nil_or_concat' behind with rfl | ⟨others, final, rfl⟩
  · simp at inside
  · rw [List.cons_append, List.cons.injEq, ← List.append_assoc] at parts
    rcases parts with ⟨rfl, parts⟩
    rcases List.append_inj' parts rfl with ⟨samePieces, sameLast⟩
    injection sameLast with sameLast
    subst sameLast
    have more : others ≠ [] := by
      intro nothing
      simp [nothing] at inside
    refine ⟨first, front ++ lineEnd :: others, final, by simp, isWord, ?_, isLast⟩
    refine spelled.insert samePieces.symm more isEnd fun cuts => uncut ?_
    exact (cuts.of_append [first]).append [final]

/-! ## Breaks in a text -/

/-- The place before a token of the given index is among the arguments of an instruction: it is
behind the keyword, and not behind the closing parenthesis. -/
structure Stage.Encloses (stage : Stage) (index : Nat) : Prop where
  inSection : stage.sections ≠ []
  among : ∃ instruction : Instruction, ∃ after, instruction.Spans stage.place after ∧
    stage.place.index < index ∧ index + 2 ≤ after.index

theorem exists_parts {front back earlier line rest : List Token}
    (whole : front ++ back = earlier ++ (line ++ rest)) (behind : earlier.length < front.length)
    (inside : front.length + 2 ≤ earlier.length + line.length) :
    ∃ before behind, front = earlier ++ before ∧ line = before ++ behind ∧
      back = behind ++ rest ∧ before ≠ [] ∧ 2 ≤ behind.length := by
  rcases List.append_eq_append_iff.1 whole with ⟨more, same, _⟩ | ⟨before, rfl, sameRest⟩
  · have length := congrArg List.length same
    rw [List.length_append] at length
    omega
  · rw [List.length_append] at behind inside
    rcases List.append_eq_append_iff.1 sameRest with ⟨more, same, _⟩ | ⟨more, rfl, sameBack⟩
    · have length := congrArg List.length same
      rw [List.length_append] at length
      omega
    · rw [List.length_append] at inside
      refine ⟨before, more, rfl, rfl, sameBack, ?_, by omega⟩
      intro nothing
      simp [nothing] at behind

/-- The tokens of an instruction in a broken text: those before the break, those behind it and
those behind the instruction, which look as they did before. -/
structure BrokenLine (stage : Stage) (lineEnd : Token) (broken : TokenStream) where
  instruction : Instruction
  after : TokenStream
  spans : instruction.Spans stage.place after
  place : TokenStream
  before : List Token
  behind : List Token
  rest : List Token
  reached : Stage.Reached broken ⟨stage.sections, place⟩
  ahead : place.ahead = (before ++ lineEnd :: behind) ++ rest
  written : instruction.Written (before ++ behind)
  nonempty : before ≠ []
  long : 2 ≤ behind.length
  alike : Alike after.ahead rest

theorem BrokenLine.current_kind {stage : Stage} {broken : TokenStream}
    (line : BrokenLine stage lineEnd broken) : line.place.current.kind = .identifier := by
  rcases List.exists_cons_of_ne_nil line.nonempty with ⟨first, front, same⟩
  rcases line.written with ⟨word, pieces, last, parts, isWord, _⟩
  rw [same, List.cons_append, List.cons.injEq] at parts
  have ahead := line.ahead
  rw [same, List.cons_append, List.cons_append] at ahead
  rw [current_eq ahead, parts.1]
  exact (kind_of_isWord isWord).1

theorem exists_brokenLine {tokens broken : Tokens} {front back back' : List Token}
    (list : tokens.list = front ++ back) (list' : broken.list = front ++ lineEnd :: back')
    (alike : Alike back back') {stage : Stage} (reached : Stage.Reached tokens.stream stage)
    (encloses : stage.Encloses front.length) :
    ∃ line : BrokenLine stage lineEnd broken.stream,
      CutsQuestion front back ↔ CutsQuestion line.before line.behind := by
  rcases encloses.among with ⟨instruction, after, spans, behind, inside⟩
  rcases Instruction.spans_iff_written.1 spans with ⟨line, linePassed, written⟩
  rcases reached.exists_passed with ⟨earlier, earlierPassed, reaches⟩
  have whole : front ++ back = earlier ++ (line ++ after.ahead) := by
    rw [← list, ← linePassed.ahead, ← earlierPassed.ahead]
    rfl
  have start : stage.place.index = earlier.length := earlierPassed.index_eq
  rw [linePassed.index, start] at inside
  rcases exists_parts whole (start ▸ behind) inside with
    ⟨before, middle, rfl, rfl, rfl, nonempty, long⟩
  rcases alike.split with ⟨middle', rest', rfl, alikeMiddle, alikeRest⟩
  have essences := alikeMiddle.map_essence
  have long' : 2 ≤ middle'.length := by
    have length := congrArg List.length essences
    rw [List.length_map, List.length_map] at length
    exact length ▸ long
  have ahead : broken.stream.ahead = earlier ++ ((before ++ lineEnd :: middle') ++ rest') := by
    rw [show broken.stream.ahead = broken.list from rfl, list']
    simp
  rcases Passed.exists_of_ahead ahead with ⟨place, placePassed, ahead⟩
  have starts : place.current.kind ≠ .newline := by
    rcases List.exists_cons_of_ne_nil nonempty with ⟨first, front, rfl⟩
    have same : place.current = stage.place.current := by
      rw [current_eq ahead, current_eq linePassed.ahead]
    rw [same, (kind_of_isWord spans.isWord).1]
    decide
  refine ⟨⟨instruction, after, spans, place, before, middle', rest',
    reaches _ _ place placePassed rfl starts, ahead, written.of_essence (by simp [essences]),
    nonempty, long', alikeRest⟩, fun cuts => ?_, fun cuts => ?_⟩
  · rcases cuts with ⟨⟨word, isLast, asks⟩, opening, head, opens⟩
    rw [List.getLast?_append_of_ne_nil _ nonempty] at isLast
    rw [List.head?_append_of_ne_nil _ (List.length_pos_iff.1 (by omega))] at head
    exact CutsQuestion.of_essence ⟨⟨word, isLast, asks⟩, opening, head, opens⟩ essences
  · exact ((cuts.of_essence essences.symm).of_append earlier).append after.ahead

theorem readSections_of_break {tokens broken : Tokens} {front back back' : List Token}
    (list : tokens.list = front ++ back) (list' : broken.list = front ++ lineEnd :: back')
    (isEnd : lineEnd.kind = .newline) (alike : Alike back back')
    (genuine : Parser.Genuine tokens.list) {stage : Stage}
    (reached : Stage.Reached tokens.stream stage) (encloses : stage.Encloses front.length)
    (uncut : ¬CutsQuestion front back) {sections : List Section}
    (read : (Parser.start tokens).readSections.1 = .ok sections) :
    (Parser.start broken).readSections.1 = .ok sections := by
  rcases exists_brokenLine list list' alike reached encloses with ⟨line, cut⟩
  rcases Parser.readSections_eq_ok_iff_reached.1 read with ⟨last, lastReached, finished, rfl⟩
  -- The line of the instruction, with the break in it.
  have written := line.written.insert line.nonempty line.long isEnd (cut.not.1 uncut)
  rcases Passed.exists_of_ahead line.ahead with ⟨behindLine, linePassed, ahead⟩
  have passes := line.reached.tail (.instruction encloses.inSection
    (Instruction.spans_iff_written.2 ⟨_, linePassed, written⟩))
  -- What follows looks the same in both texts.
  rcases Stage.exists_passed_of_skipped (reached.leads_to_final
    (.instruction encloses.inSection line.spans) lastReached finished.final) with
    ⟨others, othersPassed, leads⟩
  have ended : last.place.ahead = [] := by
    rcases reached.exists_passed with ⟨earlier, earlierPassed, _⟩
    rcases line.spans.passed with ⟨tokens, passed⟩
    exact Parser.ahead_eq_nil
      (genuine.of_passed ((earlierPassed.trans passed).trans othersPassed)) finished
  have sameOthers : line.after.ahead = others := by
    rw [othersPassed.ahead, ended, List.append_nil]
  rcases Passed.exists_of_ahead (ahead.trans (List.append_nil line.rest).symm) with
    ⟨final, finalPassed, nothing⟩
  have atEnd : final.current.kind = .endOfInput := by simp [current, nothing, Token.atEnd]
  have led := leads behindLine line.rest final finalPassed (sameOthers ▸ line.alike)
    (by simp [atEnd])
  exact Parser.readSections_eq_ok_iff_reached.2 ⟨_, passes.trans led, atEnd, rfl⟩

/-! ## Breaks that cut a question -/

def Uncut : List Token → Prop
  | [] => True
  | token :: rest =>
      (token.isWord "has_item" = true → (∃ next ∈ rest.head?, next.kind = .newline) →
        ∀ opening ∈ (Expr.spoken rest).head?, opening.kind ≠ .leftParen) ∧ Uncut rest

theorem Uncut.of_append {first rest : List Token} (uncut : Uncut (first ++ rest)) : Uncut rest := by
  induction first with
  | nil => exact uncut
  | cons token others induction => exact induction uncut.2

theorem Uncut.cons {token : Token} {rest : List Token} (notName : token.kind ≠ .identifier)
    (uncut : Uncut rest) : Uncut (token :: rest) :=
  ⟨fun asks => absurd (kind_of_isWord asks).1 notName, uncut⟩

theorem Uncut.append_breaks {run rest : List Token} (breaks : Breaks run) (uncut : Uncut rest) :
    Uncut (run ++ rest) := by
  induction run with
  | nil => exact uncut
  | cons token others induction =>
      rw [Breaks, List.forall_mem_cons] at breaks
      exact .cons (by simp [breaks.1]) (induction breaks.2)

def Unopened (rest : List Token) : Prop :=
  ∀ opening ∈ (Expr.spoken rest).head?, opening.kind ≠ .leftParen

theorem uncut_of_spread {tokens lines rest : List Token} (spread : Expr.Spread tokens lines)
    (unbroken : ∀ token ∈ tokens, token.kind ≠ .newline) (unopened : Unopened rest)
    (uncut : Uncut rest) : Uncut (lines ++ rest) := by
  induction spread with
  | nil => exact uncut
  | @cons token run tokens lines breaks whole others induction =>
      rw [List.forall_mem_cons] at unbroken
      rw [List.cons_append, List.append_assoc]
      refine ⟨fun asks broken opening head => ?_, (induction unbroken.2).append_breaks breaks⟩
      rw [Expr.spoken_append, Expr.spoken_eq_nil breaks, List.nil_append, Expr.spoken_append,
        others.spoken_eq unbroken.2] at head
      cases tokens with
      | nil => exact unopened opening head
      | cons next more =>
          injection head with same
          subst same
          intro opens
          have nothing := whole asks ⟨next, rfl, opens⟩
          have behind := others.head?_eq
          rcases broken with ⟨lineEnd, isNext, isEnd⟩
          rw [nothing, List.nil_append, List.head?_append, behind] at isNext
          injection isNext with same
          rw [same, isEnd] at opens
          contradiction

namespace Piece

theorem unopened_of_before {piece : Piece} {pieces : List Piece} {tokens rest : List Token}
    (notSign : ∀ kind, piece ≠ .sign kind) (chain : (piece :: pieces).IsChain Before)
    (spelled : SpelledAll Expr.Spells pieces tokens) (unopened : Unopened rest) :
    Unopened (tokens ++ rest) := by
  cases pieces with
  | nil => rwa [spelledAll_nil.1 spelled]
  | cons next others =>
      rcases exists_sign_of_before ((List.isChain_cons.1 chain).1 next rfl) notSign with
        ⟨kind, rfl, closer⟩
      rcases spelledAll_cons.1 spelled with ⟨first, more, rfl, firstSpelled, _⟩
      rcases exists_of_spelled_sign firstSpelled with ⟨run, token, breaks, isSign, rfl⟩
      have plain : token.kind ≠ .newline ∧ token.kind ≠ .leftParen := by
        rw [isSign]
        rcases closer with rfl | rfl | rfl <;> decide
      have alone : Expr.spoken [token] = [token] := Expr.spoken_eq_self (by simp [plain.1])
      intro opening head
      rw [Expr.spoken_append, Expr.spoken_append, Expr.spoken_append, Expr.spoken_eq_nil breaks,
        alone] at head
      injection head with same
      exact same ▸ plain.2

theorem uncut_of_spelledAll {pieces : List Piece} {tokens rest : List Token}
    (spelled : SpelledAll Expr.Spells pieces tokens) (chain : pieces.IsChain Before)
    (signs : ∀ kind, .sign kind ∈ pieces → kind ≠ .identifier) (unopened : Unopened rest)
    (uncut : Uncut rest) : Uncut (tokens ++ rest) := by
  induction spelled with
  | nil => exact uncut
  | @cons piece pieces first others firstSpelled more induction =>
      have behind := induction (List.isChain_cons.1 chain).2 fun kind member =>
        signs kind (by simp [member])
      rw [List.append_assoc]
      cases firstSpelled with
      | sign breaks =>
          rw [List.append_assoc]
          exact (Uncut.cons (signs _ (by simp)) behind).append_breaks breaks
      | name breaks isName =>
          have unopened := unopened_of_before (by simp) chain more unopened
          rw [List.append_assoc]
          exact Uncut.append_breaks breaks ⟨fun _ _ => unopened, behind⟩
      | expression spells =>
          have unopened := unopened_of_before (by simp) chain more unopened
          rcases spells with ⟨run, tokens, spread, rfl, breaks, isSpread, derived⟩
          rw [List.append_assoc]
          exact (uncut_of_spread isSpread (Expr.unbroken_of_derives derived) unopened
            behind).append_breaks breaks

end Piece

theorem groupLength_insert {first rest : List TokenKind} {depth : Nat}
    (inside : first.length < groupLength depth (first ++ rest)) :
    groupLength depth (first ++ .newline :: rest) = groupLength depth (first ++ rest) + 1 := by
  fun_induction groupLength depth first with
  | case1 depth =>
      rw [List.nil_append, groupLength_plain (by decide) (by decide), Nat.add_comm, List.nil_append]
  | case2 depth first induction =>
      simp only [List.cons_append, groupLength, List.length_cons] at inside ⊢
      rw [induction (by omega), Nat.add_assoc]
  | case3 depth first induction =>
      simp only [List.cons_append, groupLength, List.length_cons] at inside ⊢
      rw [induction (by omega), Nat.add_assoc]
  | case4 depth first shallow =>
      rw [List.cons_append, groupLength.eq_4 _ _ shallow] at inside
      simp at inside
  | case5 depth kind first notOpening notDeep notClosing induction =>
      rw [List.cons_append, groupLength_plain notOpening notClosing, List.length_cons] at inside
      rw [List.cons_append, List.cons_append, groupLength_plain notOpening notClosing,
        groupLength_plain notOpening notClosing, induction (by omega), Nat.add_assoc]

namespace Instruction

theorem kind_ne_hasItem (instruction : Instruction) : instruction.kind ≠ "has_item" := by
  cases instruction <;> simp [kind]

theorem uncut_of_spelledAll {instruction : Instruction} {tokens : List Token}
    (spelled : Piece.SpelledAll Expr.Spells instruction.pieces tokens) : Uncut tokens := by
  have unopened : Unopened [] := by simp [Unopened, Expr.spoken]
  rw [← List.append_nil tokens]
  refine Piece.uncut_of_spelledAll spelled instruction.isChain_pieces ?_ unopened trivial
  intro kind member isName
  have closed := isClosed_of_mem_pieces member
  simp [isName, Lexeme.isClosed] at closed

theorem eq_of_broken {instruction other : Instruction} {front behind tokens rest rest' : List Token}
    (spelled : Piece.SpelledAll Expr.Spells instruction.pieces (front ++ behind))
    (spelled' : Piece.SpelledAll Expr.Spells other.pieces tokens) (nonempty : behind ≠ [])
    (isEnd : lineEnd.kind = .newline)
    (same : tokens ++ rest' = (front ++ lineEnd :: behind) ++ rest) :
    tokens = front ++ lineEnd :: behind := by
  have group := groupLength_instruction (fun _ _ => balanced_of_spells) spelled
    (rest.map Token.kind)
  have group' := groupLength_instruction (fun _ _ => balanced_of_spells) spelled'
    (rest'.map Token.kind)
  have positive := List.length_pos_iff.2 nonempty
  rw [← List.map_append, same] at group'
  simp only [List.map_append, List.map_cons, List.append_assoc, List.cons_append, isEnd]
    at group group'
  rw [groupLength_insert (by rw [group]; simpa using positive), group] at group'
  refine (List.append_inj same ?_).1
  simpa [Nat.add_assoc] using group'.symm

/-- Where the line of an instruction has been cut between the word of a question and its
parenthesis, no instruction is written. -/
theorem not_written_of_cutsQuestion {instruction other : Instruction}
    (written : instruction.Written (before ++ behind)) (nonempty : before ≠ [])
    (long : 2 ≤ behind.length) (isEnd : lineEnd.kind = .newline)
    (cuts : CutsQuestion before behind) {line rest rest' : List Token}
    (same : line ++ rest' = (before ++ lineEnd :: behind) ++ rest) : ¬other.Written line := by
  intro otherWritten
  rcases written with ⟨word, pieces, last, parts, isWord, spelled, _⟩
  rcases otherWritten with ⟨_, pieces', last', rfl, _, spelled', _⟩
  rcases List.exists_cons_of_ne_nil nonempty with ⟨first, front, rfl⟩
  rcases List.eq_nil_or_concat' behind with rfl | ⟨others, final, rfl⟩
  · simp at long
  rw [List.cons_append, List.cons.injEq, ← List.append_assoc] at parts
  rcases parts with ⟨rfl, parts⟩
  rcases List.append_inj' parts rfl with ⟨rfl, _⟩
  rcases cuts with ⟨⟨asking, isLast, asks⟩, opening, head, opens⟩
  cases others with
  | nil => simp at long
  | cons next more =>
      injection head with sameNext
      subst sameNext
      have tokens : pieces' ++ ([last'] ++ rest') =
          (front ++ lineEnd :: (next :: more)) ++ ([final] ++ rest) := by
        rw [List.cons_append, List.cons_append, List.cons_append, List.cons.injEq] at same
        simpa using same.2
      have uncut := uncut_of_spelledAll spelled'
      rw [eq_of_broken spelled spelled' (by simp) isEnd tokens] at uncut
      -- The keyword of an instruction is no question, so one stands before the cut.
      rcases List.eq_nil_or_concat' front with rfl | ⟨earlier, question, rfl⟩
      · injection isLast with sameWord
        rw [← sameWord] at asks
        exact instruction.kind_ne_hasItem
          ((kind_of_isWord isWord).2.symm.trans (kind_of_isWord asks).2)
      · have sameQuestion : question = asking := by simpa [List.getLast?_cons] using isLast
        subst sameQuestion
        rw [List.append_assoc] at uncut
        exact uncut.of_append.1 asks ⟨lineEnd, rfl, isEnd⟩ next
          (by simp [Expr.spoken, isEnd, opens]) opens

end Instruction

theorem readSections_of_cut {tokens broken : Tokens} {front back back' : List Token}
    (list : tokens.list = front ++ back) (list' : broken.list = front ++ lineEnd :: back')
    (isEnd : lineEnd.kind = .newline) (alike : Alike back back') {stage : Stage}
    (reached : Stage.Reached tokens.stream stage) (encloses : stage.Encloses front.length)
    (cuts : CutsQuestion front back) (sections : List Section) :
    (Parser.start broken).readSections.1 ≠ .ok sections := by
  intro read
  rcases exists_brokenLine list list' alike reached encloses with ⟨line, cut⟩
  rcases Parser.readSections_eq_ok_iff_reached.1 read with ⟨last, lastReached, finished, _⟩
  have isName := line.current_kind
  refine line.reached.not_finished ⟨?_, ?_, ?_⟩ lastReached finished
  · simp [isName]
  · intro _ form listed other rest accepted
    have spans := Rule.spans_of_accepted listed accepted
    rcases Instruction.spans_iff_written.1 spans with ⟨tokens, passed, written⟩
    exact Instruction.not_written_of_cutsQuestion line.written line.nonempty line.long isEnd
      (cut.1 cuts) (passed.ahead.symm.trans line.ahead) written
  · intro title rest accepted
    rcases Parser.sectionHeader_accepted_iff_passed.1 accepted with
      ⟨_, _, _, isMarker, _, _, _, passed, _⟩
    rw [current_eq passed.ahead, isMarker] at isName
    contradiction

/-! ## Broken texts -/

def lineBreaks : List (List Char) :=
  [['\n'], ['\r', '\n']]

/-- The second text is the first one with a line terminator before the lexeme of the given index,
behind some of the blanks that stand there. -/
inductive BreaksAt (text broken : String) (index : Nat) : Prop
  | intro {front back : List Lexeme} {lexeme : Lexeme} {first second lineBreak rest : List Char}
      (lexemes : (Scan.read text.toList).lexemes = front ++ lexeme :: back)
      (length : front.length = index) (blanks : lexeme.blanks = first ++ second) (isBreak : lineBreak ∈ lineBreaks)
      (whole : text.toList = (Lexeme.textOf front ++ first) ++ rest)
      (wholeBroken : broken.toList = (Lexeme.textOf front ++ first) ++ (lineBreak ++ rest))

theorem Text.separated_of_blank {blanks tail : List Char}
    (blank : ∀ c ∈ blanks, isBlank c = true) (separated : Separated tail) :
    Separated (blanks ++ tail) := by
  cases blanks with
  | nil => exact separated
  | cons c others => exact .of_isBlank (blank c (by simp)) _

theorem standsBefore_lineBreak {blanks lineBreak : List Char}
    (blank : ∀ c ∈ blanks, Text.isBlank c = true) (isBreak : lineBreak ∈ lineBreaks)
    (tail : List Char) : Lexeme.StandsBefore ⟨blanks, .newline, lineBreak, lineBreak⟩ tail := by
  simp only [lineBreaks, List.mem_cons, List.not_mem_nil, or_false] at isBreak
  rcases isBreak with rfl | rfl
  · exact Lexeme.standsBefore_lineEnd blank
  · refine ⟨blank, '\r', '\n' :: tail, rfl, by decide, ?_⟩
    simp [Reading.read, sign?, signs, List.isPrefixOf]

theorem row_of_break {front back : List Lexeme} {lexeme : Lexeme}
    {first second lineBreak tail : List Char} (row : Lexeme.Row (front ++ lexeme :: back) tail)
    (blanks : lexeme.blanks = first ++ second) (isBreak : lineBreak ∈ lineBreaks) :
    Lexeme.Row (front ++ ⟨first, .newline, lineBreak, lineBreak⟩ ::
      { lexeme with blanks := second } :: back) tail := by
  rcases Lexeme.row_append.1 row with ⟨frontRow, stands, backRow⟩
  have blank := stands.blanks
  rw [blanks, List.forall_mem_append] at blank
  refine Lexeme.row_append.2 ⟨?_, standsBefore_lineBreak blank.1 isBreak _, ⟨blank.2, stands.reading⟩,
    backRow⟩
  have separated : Text.Separated (lineBreak ++ (second ++ (lexeme.source ++
      (Lexeme.textOf back ++ tail)))) := by
    simp only [lineBreaks, List.mem_cons, List.not_mem_nil, or_false] at isBreak
    rcases isBreak with rfl | rfl
    · exact .cons (by decide) _
    · exact .cons (by decide) _
  have behind := Text.separated_of_blank blank.1 separated
  rw [← List.nil_append (Lexeme.textOf _ ++ tail)] at frontRow
  simpa using Lexeme.row_of_separated frontRow behind

theorem exists_tokens_of_breaksAt {index : Nat} {text broken : String} {tokens : Tokens}
    (breaks : BreaksAt text broken index) (lexed : Tokens.ofText text = .ok tokens) :
    ∃ tokens' front back back' lineEnd, Tokens.ofText broken = .ok tokens' ∧
      tokens.list = front ++ back ∧ tokens'.list = front ++ lineEnd :: back' ∧
      front.length = index ∧ lineEnd.kind = .newline ∧ Alike back back' := by
  cases breaks with
  | @intro front back lexeme first second lineBreak rest lexemes length blanks isBreak spelled
      spelled' =>
      rcases Tokens.list_of_ofText lexed with ⟨sound, list⟩
      rcases Scan.row_of_read sound with ⟨row, whole, blank⟩
      rw [lexemes] at row whole list
      have row' := row_of_break row blanks isBreak
      have sameRest : rest =
          second ++ (lexeme.source ++ (Lexeme.textOf back ++ (Scan.read text.toList).blanks)) := by
        rw [Lexeme.textOf_append, Lexeme.textOf_cons, blanks] at whole
        simpa using spelled.symm.trans whole
      have lexed' := @Tokens.ofText_of_row broken _ _ row' blank (by
        rw [spelled', sameRest]
        simp)
      rw [Scan.locate_append] at list lexed'
      rw [Scan.locate_cons] at lexed'
      refine ⟨_, _, _, _, _, lexed', list, rfl, by simpa using length, rfl, ?_⟩
      have wellFormed := (List.forall_mem_append.1 (Lexeme.wellFormed_of_row row)).2
      have wellFormed' := (List.forall_mem_append.1 (Lexeme.wellFormed_of_row row')).2
      rw [Alike, glyphs_locate _ wellFormed, glyphs_locate _ fun other member =>
        wellFormed' other (by simp [member])]
      cases back <;> rfl

section

variable {file : Path} {text broken : String} {tokens : Tokens} {stage : Stage} {index : Nat}

theorem parseSections_of_uncut {sections : List Section}
    (parsed : parseSections file text = .ok sections) (lexed : Tokens.ofText text = .ok tokens)
    (reached : Stage.Reached tokens.stream stage) (encloses : stage.Encloses index)
    (breaks : BreaksAt text broken index)
    (uncut : ¬CutsQuestion (tokens.list.take index) (tokens.list.drop index)) :
    parseSections file broken = .ok sections := by
  rcases parseSections_eq_ok.1 parsed with ⟨tokens', lexed', read⟩
  have same := lexed.symm.trans lexed'
  injection same with same
  subst same
  rcases exists_tokens_of_breaksAt breaks lexed with
    ⟨tokens', front, back, back', lineEnd, lexed', list, list', rfl, isEnd, alike⟩
  rw [list, List.take_left, List.drop_left] at uncut
  exact parseSections_eq_ok.2 ⟨tokens', lexed', readSections_of_break list list' isEnd alike
    (Parser.genuine_of_ofText lexed) reached encloses uncut read⟩

theorem parseSections_of_cut (lexed : Tokens.ofText text = .ok tokens)
    (reached : Stage.Reached tokens.stream stage) (encloses : stage.Encloses index)
    (breaks : BreaksAt text broken index)
    (cuts : CutsQuestion (tokens.list.take index) (tokens.list.drop index))
    (sections : List Section) : parseSections file broken ≠ .ok sections := by
  intro parsed
  rcases exists_tokens_of_breaksAt breaks lexed with
    ⟨tokens', front, back, back', lineEnd, lexed', list, list', rfl, isEnd, alike⟩
  rw [list, List.take_left, List.drop_left] at cuts
  rcases parseSections_eq_ok.1 parsed with ⟨tokens'', lexed'', read⟩
  have same := lexed'.symm.trans lexed''
  injection same with same
  subst same
  exact readSections_of_cut list list' isEnd alike reached encloses cuts sections read

/-- A line terminator among the arguments of an instruction does not count, except right behind
the word of a question: there it makes the text no script. -/
theorem parseSections_of_breaksAt {sections : List Section}
    (parsed : parseSections file text = .ok sections) (lexed : Tokens.ofText text = .ok tokens)
    (reached : Stage.Reached tokens.stream stage) (encloses : stage.Encloses index)
    (breaks : BreaksAt text broken index) :
    (¬CutsQuestion (tokens.list.take index) (tokens.list.drop index) →
        parseSections file broken = .ok sections) ∧
      (CutsQuestion (tokens.list.take index) (tokens.list.drop index) →
        ∀ others, parseSections file broken ≠ .ok others) :=
  ⟨parseSections_of_uncut parsed lexed reached encloses breaks,
    parseSections_of_cut lexed reached encloses breaks⟩

end

theorem exists_stage_of_question : ∃ tokens stage,
    Tokens.ofText "--- a\nreceive_money(has_item(key))\n" = .ok tokens ∧
      Stage.Reached tokens.stream stage ∧ stage.Encloses 6 ∧ stage.Encloses 7 ∧
      CutsQuestion (tokens.list.take 6) (tokens.list.drop 6) ∧
      ¬CutsQuestion (tokens.list.take 7) (tokens.list.drop 7) ∧
      parseSections unnamedFile "--- a\nreceive_money(has_item(key))\n" =
        .ok [⟨"a", [.receiveMoney (.hasItem "key")]⟩] := by
  have lexed : Tokens.ofText "--- a\nreceive_money(has_item(key))\n" = .ok
      ⟨[⟨.sectionMarker, "---", ⟨1, 1⟩⟩, ⟨.identifier, "a", ⟨1, 5⟩⟩, ⟨.newline, "\n", ⟨1, 6⟩⟩,
        ⟨.identifier, "receive_money", ⟨2, 1⟩⟩, ⟨.leftParen, "(", ⟨2, 14⟩⟩,
        ⟨.identifier, "has_item", ⟨2, 15⟩⟩, ⟨.leftParen, "(", ⟨2, 23⟩⟩,
        ⟨.identifier, "key", ⟨2, 24⟩⟩, ⟨.rightParen, ")", ⟨2, 27⟩⟩, ⟨.rightParen, ")", ⟨2, 28⟩⟩,
        ⟨.newline, "\n", ⟨2, 29⟩⟩], ⟨3, 1⟩⟩ := by decide +kernel
  have spans : (Instruction.receiveMoney (.hasItem "key")).Spans ⟨3,
      [⟨.identifier, "receive_money", ⟨2, 1⟩⟩, ⟨.leftParen, "(", ⟨2, 14⟩⟩,
        ⟨.identifier, "has_item", ⟨2, 15⟩⟩, ⟨.leftParen, "(", ⟨2, 23⟩⟩,
        ⟨.identifier, "key", ⟨2, 24⟩⟩, ⟨.rightParen, ")", ⟨2, 27⟩⟩, ⟨.rightParen, ")", ⟨2, 28⟩⟩,
        ⟨.newline, "\n", ⟨2, 29⟩⟩], ⟨3, 1⟩⟩ ⟨11, [], ⟨3, 1⟩⟩ :=
    Rule.formOf_accepted.1 (by cbv)
  refine ⟨_, ⟨[⟨"a", []⟩], _⟩, lexed, .single (.header rfl),
    ⟨by simp, _, _, spans, by decide, by decide⟩, ⟨by simp, _, _, spans, by decide, by decide⟩,
    by simp [CutsQuestion, Token.isWord], by simp [CutsQuestion, Token.isWord], ?_⟩
  refine parseSections_eq_ok.2 ⟨_, lexed, Parser.readSections_eq_ok_iff_reached.2 ⟨_,
    .tail (.single (.header rfl)) (.instruction (by simp) spans), rfl, rfl⟩⟩

theorem parseSections_of_broken_question :
    ∃ tokens stage,
      parseSections unnamedFile "--- a\nreceive_money(has_item(key))\n" =
        .ok [⟨"a", [.receiveMoney (.hasItem "key")]⟩] ∧
      Tokens.ofText "--- a\nreceive_money(has_item(key))\n" = .ok tokens ∧
      Stage.Reached tokens.stream stage ∧ stage.Encloses 7 ∧
      BreaksAt "--- a\nreceive_money(has_item(key))\n"
        "--- a\nreceive_money(has_item(\nkey))\n" 7 ∧
      parseSections unnamedFile "--- a\nreceive_money(has_item(\nkey))\n" =
        .ok [⟨"a", [.receiveMoney (.hasItem "key")]⟩] := by
  rcases exists_stage_of_question with
    ⟨tokens, stage, lexed, reached, _, encloses, _, uncut, parsed⟩
  have breaks : BreaksAt "--- a\nreceive_money(has_item(key))\n"
      "--- a\nreceive_money(has_item(\nkey))\n" 7 := by
    let lexemes := (Scan.read "--- a\nreceive_money(has_item(key))\n".toList).lexemes
    exact @BreaksAt.intro _ _ 7 (lexemes.take 7) (lexemes.drop 8) (.name "key" []) [] [] ['\n']
      "key))\n".toList (by decide +kernel) (by decide +kernel) rfl (by decide) (by decide +kernel)
      (by decide +kernel)
  exact ⟨tokens, stage, parsed, lexed, reached, encloses, breaks,
    (parseSections_of_breaksAt parsed lexed reached encloses breaks).1 uncut⟩

/-- Behind the word of a question, a line terminator does count. -/
theorem parseSections_of_cut_question :
    ∃ tokens stage,
      parseSections unnamedFile "--- a\nreceive_money(has_item(key))\n" =
        .ok [⟨"a", [.receiveMoney (.hasItem "key")]⟩] ∧
      Tokens.ofText "--- a\nreceive_money(has_item(key))\n" = .ok tokens ∧
      Stage.Reached tokens.stream stage ∧ stage.Encloses 6 ∧
      BreaksAt "--- a\nreceive_money(has_item(key))\n"
        "--- a\nreceive_money(has_item\n(key))\n" 6 ∧
      parseSections unnamedFile "--- a\nreceive_money(has_item\n(key))\n" ≠
        .ok [⟨"a", [.receiveMoney (.hasItem "key")]⟩] := by
  rcases exists_stage_of_question with
    ⟨tokens, stage, lexed, reached, encloses, _, cuts, _, parsed⟩
  have breaks : BreaksAt "--- a\nreceive_money(has_item(key))\n"
      "--- a\nreceive_money(has_item\n(key))\n" 6 := by
    let lexemes := (Scan.read "--- a\nreceive_money(has_item(key))\n".toList).lexemes
    exact @BreaksAt.intro _ _ 6 (lexemes.take 6) (lexemes.drop 7) (.sign .leftParen []) [] [] ['\n']
      "(key))\n".toList (by decide +kernel) (by decide +kernel) rfl (by decide) (by decide +kernel)
      (by decide +kernel)
  exact ⟨tokens, stage, parsed, lexed, reached, encloses, breaks,
    parseSections_of_cut lexed reached encloses breaks cuts _⟩

end EventScript
