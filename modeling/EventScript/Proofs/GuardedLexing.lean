import EventScript.Guarded.Scanner
import EventScript.Proofs.Relexing
import EventScript.Token.Lexer

/-! Guarded lexing. A scanner cuts a text into the same tokens as the lexer does, or refuses it with
the same error. -/

namespace EventScript.Guarded

open Run

namespace Scanner

/-! ## What is passed -/

def cursorAt (passed : List Char) : Cursor :=
  ⟨passed.length, .after .start passed⟩

@[simp] theorem index_cursorAt (passed : List Char) : (cursorAt passed).index = passed.length := rfl

@[simp] theorem place_cursorAt (passed : List Char) :
    (cursorAt passed).place = .after .start passed := rfl

variable {text passed ahead rest : List Char} {first c : Char}

theorem charAt_eq (whole : text = passed ++ ahead) {distance : Nat} {found : Char}
    (stands : ahead[distance]? = some found) (cursor : Cursor) :
    charAt (passed.length + distance) text cursor = (.ok found, cursor) := by
  have index : text[passed.length + distance]? = some found := by
    rw [whole, List.getElem?_append_right (Nat.le_add_right _ _), Nat.add_sub_cancel_left, stands]
  rw [charAt, bind_input, index]
  rfl

theorem look_eq (whole : text = passed ++ ahead) (distance : Nat) :
    look distance text (cursorAt passed) = (.ok ahead[distance]?, cursorAt passed) := by
  have length : text.length = passed.length + ahead.length := by rw [whole, List.length_append]
  rw [look, bind_state, bind_input, index_cursorAt]
  cases stands : ahead[distance]? with
  | none =>
      have beyond := List.getElem?_eq_none_iff.1 stands
      rw [if_pos (by omega)]
      rfl
  | some found =>
      have inside := (List.getElem?_eq_some_iff.1 stands).1
      rw [if_neg (by omega), bind_ok (charAt_eq whole stands _)]
      rfl

theorem bind_look {α : Type} {next : Option Char → Scanner α} (whole : text = passed ++ c :: ahead) :
    (look 0 >>= next) text (cursorAt passed) = next (some c) text (cursorAt passed) :=
  bind_ok (look_eq whole 0)

theorem bind_look_end {α : Type} {next : Option Char → Scanner α} (whole : text = passed ++ []) :
    (look 0 >>= next) text (cursorAt passed) = next none text (cursorAt passed) :=
  bind_ok (look_eq whole 0)

theorem advance_eq (whole : text = passed ++ c :: ahead) :
    advance text (cursorAt passed) = (.ok (), cursorAt (passed ++ [c])) := by
  have inside : passed.length < text.length := by simp [whole]
  have found : (c :: ahead)[0]? = some c := rfl
  rw [advance, bind_state, bind_input, index_cursorAt, if_pos inside, ← Nat.add_zero passed.length,
    bind_ok (charAt_eq whole found _)]
  simp [put, cursorAt]

theorem rounds_behind {α β : Type} {round : β → Scanner (β ⊕ α)} {carried next : β}
    {others : List Char} (whole : text = passed ++ others ++ ahead) (nonempty : others ≠ [])
    (again : round carried text (cursorAt passed) =
      (.ok (.inl next), cursorAt (passed ++ others))) :
    rounds left round carried text (cursorAt passed) =
      rounds left round next text (cursorAt (passed ++ others)) := by
  refine rounds_again again ?_
  have positive := List.length_pos_iff.2 nonempty
  simp only [left, index_cursorAt, whole, List.length_append]
  omega

theorem runs_eq {continues : Char → Bool} (run : List Char) (whole : text = passed ++ ahead) :
    rounds left (runRound continues) run text (cursorAt passed) =
      (.ok (run ++ ahead.takeWhile continues),
        cursorAt (passed ++ ahead.takeWhile continues)) := by
  induction ahead generalizing run passed with
  | nil =>
      rw [List.takeWhile_nil, List.append_nil, List.append_nil]
      refine rounds_done ?_
      rw [runRound, bind_look_end whole]
      rfl
  | cons c ahead induction =>
      by_cases inside : continues c = true
      · have whole' : text = passed ++ [c] ++ ahead := by rw [whole, List.append_cons]
        have again : runRound continues run text (cursorAt passed) =
            (.ok (.inl (run ++ [c])), cursorAt (passed ++ [c])) := by
          rw [runRound, bind_look whole]
          dsimp only
          rw [if_pos inside, bind_ok (advance_eq whole)]
          rfl
        rw [rounds_behind whole' (by simp) again, induction _ whole', List.takeWhile_cons_of_pos inside]
        simp
      · rw [List.takeWhile_cons_of_neg inside, List.append_nil, List.append_nil]
        refine rounds_done ?_
        rw [runRound, bind_look whole]
        dsimp only
        rw [if_neg inside]
        rfl

theorem readWhile_eq (continues : Char → Bool) (whole : text = passed ++ ahead) :
    readWhile continues text (cursorAt passed) =
      (.ok (ahead.takeWhile continues), cursorAt (passed ++ ahead.takeWhile continues)) :=
  runs_eq [] whole

theorem skipBlanks_eq (whole : text = passed ++ ahead) :
    skipBlanks text (cursorAt passed) =
      (.ok (), cursorAt (passed ++ ahead.takeWhile Text.isBlank)) :=
  bind_ok (readWhile_eq Text.isBlank whole)

/-! ## Literals -/

theorem literalRound_plain (value : List Char) (whole : text = passed ++ c :: rest)
    (inside : ¬(c = '"' ∨ c = '\n')) (plain : c ≠ '\\') :
    literalRound value text (cursorAt passed) =
      (.ok (.inl (value ++ [c])), cursorAt (passed ++ [c])) := by
  rw [literalRound, bind_look whole]
  dsimp only
  rw [if_neg inside, if_neg plain, bind_ok (advance_eq whole)]
  rfl

theorem literalRound_escape {escaped : Char} (value : List Char)
    (whole : text = passed ++ '\\' :: escaped :: rest) (notFeed : escaped ≠ '\n') :
    literalRound value text (cursorAt passed) =
      (.ok (.inl (value ++ [Text.unescape escaped])), cursorAt (passed ++ ['\\', escaped])) := by
  have behind : text = passed ++ ['\\'] ++ escaped :: rest := by rw [whole, List.append_cons]
  rw [literalRound, bind_look whole]
  dsimp only
  rw [if_neg (by decide), if_pos rfl, bind_ok (advance_eq whole), bind_look behind]
  dsimp only
  rw [if_neg notFeed, bind_ok (advance_eq behind), List.append_assoc]
  rfl

/-- A backslash is passed even where the literal ends behind it. -/
theorem literalRound_cut (value : List Char) (whole : text = passed ++ '\\' :: rest)
    (cut : ∀ c ∈ rest.head?, c = '\n') :
    literalRound value text (cursorAt passed) =
      (.ok (.inr value), cursorAt (passed ++ ['\\'])) := by
  have behind : text = passed ++ ['\\'] ++ rest := by rw [whole, List.append_cons]
  rw [literalRound, bind_look whole]
  dsimp only
  rw [if_neg (by decide), if_pos rfl, bind_ok (advance_eq whole)]
  cases rest with
  | nil =>
      rw [bind_look_end behind]
      rfl
  | cons escaped rest =>
      rw [bind_look behind]
      dsimp only
      rw [if_pos (cut escaped rfl)]
      rfl

theorem literal_eq {passed : List Char} (value : List Char) (whole : text = passed ++ rest) :
    rounds left literalRound value text (cursorAt passed) =
      (.ok (value ++ (Text.LiteralBody.read rest).value),
        cursorAt (passed ++ (Text.LiteralBody.read rest).source)) := by
  revert passed value
  fun_induction Text.LiteralBody.read rest with
  | case1 =>
      intro passed value whole
      simp only [List.append_nil]
      refine rounds_done ?_
      rw [literalRound, bind_look_end whole]
      rfl
  | case2 c rest stops =>
      intro passed value whole
      simp only [List.append_nil]
      refine rounds_done ?_
      rw [literalRound, bind_look whole]
      dsimp only
      rw [if_pos stops]
      rfl
  | case3 =>
      intro passed value whole
      simp only [List.append_nil]
      exact rounds_done (literalRound_cut value whole (by simp))
  | case4 rest =>
      intro passed value whole
      simp only [List.append_nil]
      exact rounds_done (literalRound_cut value whole (by simp))
  | case5 escaped rest notFeed body =>
      rename_i induction
      intro passed value whole
      have whole' : text = passed ++ ['\\', escaped] ++ rest := by rw [whole, List.append_assoc]; rfl
      rw [rounds_behind whole' (by simp) (literalRound_escape value whole notFeed),
        induction _ whole']
      simp [body]
  | case6 c rest inside plain body =>
      rename_i induction
      intro passed value whole
      have whole' : text = passed ++ [c] ++ rest := by rw [whole, List.append_cons]
      rw [rounds_behind whole' (by simp) (literalRound_plain value whole inside plain),
        induction _ whole']
      simp [body]

theorem readString_ok (whole : text = passed ++ '"' :: rest)
    (closed : (Text.LiteralBody.read rest).closed = true) :
    readString text (cursorAt passed) = (.ok (Text.LiteralBody.read rest).value,
      cursorAt (passed ++ ('"' :: (Text.LiteralBody.read rest).source ++ ['"']))) := by
  have whole' : text = passed ++ ['"'] ++ rest := by rw [whole, List.append_cons]
  rw [Text.LiteralBody.closed, beq_iff_eq] at closed
  rcases List.head?_eq_some_iff.1 closed with ⟨tail, behind⟩
  have split := Text.LiteralBody.source_append_rest rest
  rw [behind] at split
  have stands : text = passed ++ ['"'] ++ (Text.LiteralBody.read rest).source ++ '"' :: tail := by
    rw [List.append_assoc _ _ ('"' :: tail), split, whole']
  rw [readString, bind_state, bind_ok (advance_eq whole), bind_ok (literal_eq [] whole'),
    bind_look stands, if_pos rfl, bind_ok (advance_eq stands)]
  simp

theorem readString_error (whole : text = passed ++ '"' :: rest)
    (unclosed : (Text.LiteralBody.read rest).closed = false) :
    (readString text (cursorAt passed)).1 =
      .error (.refused ⟨.unterminated, .after .start passed⟩) := by
  have whole' : text = passed ++ ['"'] ++ rest := by rw [whole, List.append_cons]
  have split := Text.LiteralBody.source_append_rest rest
  have stands : text = passed ++ ['"'] ++ (Text.LiteralBody.read rest).source ++
      (Text.LiteralBody.read rest).rest := by
    rw [List.append_assoc _ _ (Text.LiteralBody.read rest).rest, split, whole']
  have noQuote : (Text.LiteralBody.read rest).rest[0]? ≠ some '"' := by
    rw [← List.head?_eq_getElem?]
    simpa [Text.LiteralBody.closed] using unclosed
  rw [readString, bind_state, bind_ok (advance_eq whole), bind_ok (literal_eq [] whole'),
    bind_ok (look_eq stands 0), if_neg noQuote]
  rfl

/-! ## Signs and pieces -/

theorem pass_eq {source : List Char} (whole : text = passed ++ (source ++ ahead)) :
    pass source text (cursorAt passed) = (.ok (), cursorAt (passed ++ source)) := by
  induction source generalizing passed with
  | nil => simp [pass]
  | cons c others induction =>
      have behind : text = passed ++ [c] ++ (others ++ ahead) := by
        rw [whole, List.cons_append, List.append_cons]
      rw [pass, bind_ok (advance_eq whole), induction behind, List.append_assoc]
      rfl

theorem startsWith_then {α : Type} {source : List Char} {next : Bool → Scanner α}
    (whole : text = passed ++ ahead) : (startsWith source >>= next) text (cursorAt passed) =
      next (source.isPrefixOf ahead) text (cursorAt passed) := by
  have behind : text.drop passed.length = ahead := by rw [whole, List.drop_left]
  exact bind_ok (by rw [startsWith, bind_input, bind_state, index_cursorAt, behind]; rfl)

def Gives (passed : List Char) (outcome : Except (Break LexicalError) (TokenKind × List Char) × Cursor) :
    Reading → Prop
  | .lexeme kind value source _ => outcome = (.ok (kind, value), cursorAt (passed ++ source))
  | .unterminated _ _ => outcome.1 = .error (.refused ⟨.unterminated, .after .start passed⟩)
  | .unexpected c => outcome.1 = .error (.refused ⟨.unexpected c, .after .start passed⟩)

theorem gives_sign {kind : TokenKind} {source : List Char} (whole : text = passed ++ first :: rest)
    (found : sign? (first :: rest) = some (kind, source)) :
    Gives passed (sign kind source text (cursorAt passed)) (Reading.read first rest) := by
  rcases List.isPrefixOf_iff_prefix.1 (Reading.sign?_spec found).2 with ⟨tail, split⟩
  rw [← split] at whole
  simp only [Reading.read, found, Gives]
  rw [sign, bind_ok (pass_eq whole)]
  rfl

theorem gives_literal (whole : text = passed ++ '"' :: rest) :
    Gives passed ((do return (.string, ← readString) : Scanner _) text (cursorAt passed))
      (Reading.read '"' rest) := by
  have noSign : sign? ('"' :: rest) = none := sign?_eq_none _ (by decide)
  have reading : Reading.read '"' rest = Reading.literal rest := by simp [Reading.read, noSign]
  rw [reading, Reading.literal]
  cases closed : (Text.LiteralBody.read rest).closed with
  | true =>
      simp only [if_true, Gives]
      rw [bind_ok (readString_ok whole closed)]
      rfl
  | false =>
      simp only [Bool.false_eq_true, if_false, Gives]
      rcases broken : readString text (cursorAt passed) with ⟨outcome, after⟩
      have refused := readString_error whole closed
      rw [broken] at refused
      rw [bind_error (broken.trans (congrArg (·, after) refused))]

theorem gives_word {kind : TokenKind} {continues : Char → Bool} (whole : text = passed ++ first :: rest)
    (inside : continues first = true) :
    Gives passed ((do return (kind, ← readWhile continues) : Scanner _) text (cursorAt passed))
      (Reading.word kind continues first rest) := by
  rw [Gives.eq_def, Reading.word]
  dsimp only
  rw [bind_ok (readWhile_eq continues whole), List.takeWhile_cons_of_pos inside]
  rfl

theorem gives_two {c d : Char} {kind : TokenKind} (whole : text = passed ++ first :: rest)
    (both : first = c ∧ rest.head? = some d)
    (found : ∀ tail, sign? (c :: d :: tail) = some (kind, [c, d])) :
    Gives passed (sign kind [c, d] text (cursorAt passed)) (Reading.read first rest) := by
  rcases both with ⟨rfl, head⟩
  rcases List.head?_eq_some_iff.1 head with ⟨tail, rfl⟩
  exact gives_sign whole (found tail)

theorem sign?_of_order (notEqual : rest.head? ≠ some '=') :
    sign? ('<' :: rest) = some (.less, ['<']) ∧ sign? ('>' :: rest) = some (.greater, ['>']) := by
  have apart : ['='].isPrefixOf rest = false := by
    rw [Bool.eq_false_iff]
    intro begins
    rcases List.isPrefixOf_iff_prefix.1 begins with ⟨tail, rfl⟩
    exact notEqual rfl
  constructor
  · simp [sign?, signs, List.isPrefixOf, apart]
  · simp [sign?, signs, List.isPrefixOf, apart]

/-- The signs of one character are the longest where no marker stands. -/
theorem sign?_of_single {kind : TokenKind} (single : singles.lookup first = some kind)
    (notMarker : ['-', '-', '-'].isPrefixOf (first :: rest) = false) :
    sign? (first :: rest) = some (kind, [first]) := by
  rcases List.lookup_eq_some_iff.1 single with ⟨before, behind, listed, _⟩
  have member : (first, kind) ∈ singles := by simp [listed]
  simp only [singles, List.mem_cons, Prod.mk.injEq, List.not_mem_nil, or_false] at member
  rcases member with ⟨rfl, rfl⟩ | ⟨rfl, rfl⟩ | ⟨rfl, rfl⟩ | ⟨rfl, rfl⟩ | ⟨rfl, rfl⟩ | ⟨rfl, rfl⟩ |
    ⟨rfl, rfl⟩ | ⟨rfl, rfl⟩ | ⟨rfl, rfl⟩ | ⟨rfl, rfl⟩
  case inr.inr.inr.inr.inr.inr.inl =>
      simp only [List.isPrefixOf, beq_self_eq_true, Bool.true_and] at notMarker
      simp [sign?, signs, List.isPrefixOf, notMarker]
  all_goals rfl

theorem sign?_of_apart (notFeed : first ≠ '\n') (notReturn : ¬(first = '\r' ∧ rest.head? = some '\n'))
    (notMarker : ['-', '-', '-'].isPrefixOf (first :: rest) = false)
    (notEqual : ¬(first = '=' ∧ rest.head? = some '='))
    (notUnequal : ¬(first = '!' ∧ rest.head? = some '='))
    (notLess : first ≠ '<') (notGreater : first ≠ '>') (notSingle : singles.lookup first = none) :
    sign? (first :: rest) = none := by
  have one {c : Char} (apart : first ≠ c) : ¬[c].isPrefixOf (first :: rest) = true := by
    simpa [List.isPrefixOf] using Ne.symm apart
  have two {c d : Char} (apart : ¬(first = c ∧ rest.head? = some d)) :
      ¬[c, d].isPrefixOf (first :: rest) = true := by
    rintro begins
    rcases List.isPrefixOf_iff_prefix.1 begins with ⟨tail, split⟩
    injection split with sameFirst sameRest
    exact apart ⟨sameFirst.symm, by rw [← sameRest]; rfl⟩
  have single : ∀ sign ∈ singles, first ≠ sign.1 := by
    simpa using List.lookup_eq_none_iff.1 notSingle
  simp only [singles, List.forall_mem_cons] at single
  rcases single with ⟨opens, closes, opensList, closesList, comma, plus, minus, star, slash, percent, _⟩
  rw [sign?, List.find?_eq_none]
  simp only [signs, List.forall_mem_cons]
  exact ⟨one notFeed, two notReturn, Bool.not_eq_true _ ▸ notMarker, two notEqual, two notUnequal,
    two fun both => notLess both.1, two fun both => notGreater both.1, one notLess, one notGreater,
    one opens, one closes, one opensList, one closesList, one comma, one plus, one minus, one star,
    one slash, one percent, by simp⟩

theorem piece_eq (whole : text = passed ++ first :: rest) :
    Gives passed (piece first text (cursorAt passed)) (Reading.read first rest) := by
  have next : (first :: rest)[1]? = rest.head? := by
    rw [List.getElem?_cons_succ, List.head?_eq_getElem?]
  rw [piece, bind_ok (look_eq whole 1), next]
  by_cases feed : first = '\n'
  · rw [if_pos feed]
    subst feed
    exact gives_sign whole rfl
  rw [if_neg feed]
  by_cases returns : first = '\r' ∧ rest.head? = some '\n'
  · rw [if_pos returns]
    exact gives_two whole returns fun _ => rfl
  rw [if_neg returns]
  by_cases quote : first = '"'
  · rw [if_pos quote]
    subst quote
    exact gives_literal whole
  rw [if_neg quote]
  by_cases digit : Text.isDigit first = true
  · rw [if_pos digit]
    have noSign := (Reading.plain_of_wordStart (.inr digit)).1 rest
    have reading : Reading.read first rest = .word .integer Text.isDigit first rest := by
      simp [Reading.read, noSign, quote, digit]
    exact reading ▸ gives_word whole digit
  rw [if_neg digit]
  by_cases start : Text.isNameStart first = true
  · rw [if_pos start]
    have noSign := (Reading.plain_of_wordStart (.inl start)).1 rest
    have reading : Reading.read first rest = .word .identifier Text.isNamePart first rest := by
      simp [Reading.read, noSign, quote, digit, start]
    exact reading ▸ gives_word whole (Text.isNamePart_of_isNameStart start)
  rw [if_neg start, startsWith_then whole]
  by_cases marker : ['-', '-', '-'].isPrefixOf (first :: rest) = true
  · rw [if_pos marker]
    rcases List.isPrefixOf_iff_prefix.1 marker with ⟨tail, split⟩
    injection split with sameFirst sameRest
    subst sameFirst sameRest
    exact gives_sign whole rfl
  rw [if_neg marker]
  rw [Bool.not_eq_true] at marker
  by_cases equal : first = '=' ∧ rest.head? = some '='
  · rw [if_pos equal]
    exact gives_two whole equal fun _ => rfl
  rw [if_neg equal]
  by_cases unequal : first = '!' ∧ rest.head? = some '='
  · rw [if_pos unequal]
    exact gives_two whole unequal fun _ => rfl
  rw [if_neg unequal]
  by_cases less : first = '<'
  · rw [if_pos less]
    by_cases orEqual : rest.head? = some '='
    · rw [if_pos orEqual]
      exact gives_two whole ⟨less, orEqual⟩ fun _ => rfl
    · rw [if_neg orEqual]
      exact gives_sign whole (less ▸ (sign?_of_order orEqual).1)
  rw [if_neg less]
  by_cases greater : first = '>'
  · rw [if_pos greater]
    by_cases orEqual : rest.head? = some '='
    · rw [if_pos orEqual]
      exact gives_two whole ⟨greater, orEqual⟩ fun _ => rfl
    · rw [if_neg orEqual]
      exact gives_sign whole (greater ▸ (sign?_of_order orEqual).2)
  rw [if_neg greater]
  cases single : singles.lookup first with
  | some kind => exact gives_sign whole (sign?_of_single single marker)
  | none =>
      have noSign := sign?_of_apart feed returns marker equal unequal less greater single
      have reading : Reading.read first rest = .unexpected first := by
        simp [Reading.read, noSign, quote, digit, start]
      rw [reading]
      rfl

/-! ## Tokens -/

theorem read_of_behind (behind : ahead.dropWhile Text.isBlank = first :: rest) :
    Scan.read ahead =
      match Reading.read first rest with
      | .lexeme kind value source tail =>
          (Scan.read tail).cons ⟨ahead.takeWhile Text.isBlank, kind, value, source⟩
      | .unterminated source _ => ⟨[], ahead.takeWhile Text.isBlank, source, some .unterminated⟩
      | .unexpected c => ⟨[], ahead.takeWhile Text.isBlank, [], some (.unexpected c)⟩ := by
  have blank : ∀ c ∈ ahead.takeWhile Text.isBlank, Text.isBlank c = true :=
    fun c member => List.mem_takeWhile_imp member
  have read := @Scan.read_of_blanks _ rest _ blank (Scan.notBlank_of_ahead behind)
  rwa [← Scan.text_of_ahead behind] at read

/-- What a scanner is to make of the text ahead: the tokens after those found so far, or the error.
-/
def outcome (ahead : List Char) (place : Position) (found : List Token) :
    Except (Break LexicalError) (List Token) :=
  match (Scan.read ahead).fault with
  | none => .ok (found ++ (Scan.read ahead).tokens place)
  | some fault => .error (.refused ⟨fault, (Scan.read ahead).finish place⟩)

theorem outcome_of_lexeme {kind : TokenKind} {value source tail : List Char}
    (behind : ahead.dropWhile Text.isBlank = first :: rest)
    (reading : Reading.read first rest = .lexeme kind value source tail) (place : Position)
    (found : List Token) :
    outcome ahead place found =
      outcome tail (place.after (ahead.takeWhile Text.isBlank ++ source))
        (found ++ [⟨kind, String.ofList value, place.after (ahead.takeWhile Text.isBlank)⟩]) := by
  have read : Scan.read ahead =
      (Scan.read tail).cons ⟨ahead.takeWhile Text.isBlank, kind, value, source⟩ := by
    rw [read_of_behind behind, reading]
  simp only [outcome, read, Scan.cons, Scan.tokens, Scan.finish, Scan.lexemeText, Scan.locate_cons,
    List.flatMap_cons, List.append_assoc, List.singleton_append, Position.after_append]

theorem tokenRound_eq (found : List Token) (whole : text = passed ++ ahead)
    (behind : ahead.dropWhile Text.isBlank = first :: rest) :
    tokenRound found text (cursorAt passed) =
      (do
        let (kind, value) ← piece first
        return .inl (found ++ [⟨kind, String.ofList value,
          Position.after .start (passed ++ ahead.takeWhile Text.isBlank)⟩]) :
        Scanner (List Token ⊕ List Token)) text
          (cursorAt (passed ++ ahead.takeWhile Text.isBlank)) := by
  have stands : text = passed ++ ahead.takeWhile Text.isBlank ++ first :: rest := by
    rw [whole, List.append_assoc, ← Scan.text_of_ahead behind]
  rw [tokenRound, bind_ok (skipBlanks_eq whole), bind_look stands]
  dsimp only
  rw [bind_state, place_cursorAt]

theorem tokenRound_end (found : List Token) (whole : text = passed ++ ahead)
    (blank : ∀ c ∈ ahead, Text.isBlank c = true) :
    tokenRound found text (cursorAt passed) = (.ok (.inr found), cursorAt text) := by
  have taken : ahead.takeWhile Text.isBlank = ahead := List.takeWhile_eq_self_iff.2 blank
  have ends : text = text ++ [] := (List.append_nil text).symm
  rw [tokenRound, bind_ok (skipBlanks_eq whole), taken, ← whole, bind_look_end ends]
  rfl

theorem rounds_of_fault {fault : LexicalFault} (found : List Token) (whole : text = passed ++ ahead)
    (behind : ahead.dropWhile Text.isBlank = first :: rest)
    (gives : (piece first text (cursorAt (passed ++ ahead.takeWhile Text.isBlank))).1 =
      .error (.refused ⟨fault, .after .start (passed ++ ahead.takeWhile Text.isBlank)⟩))
    {source : List Char}
    (read : Scan.read ahead = ⟨[], ahead.takeWhile Text.isBlank, source, some fault⟩) :
    ∃ after, ((Scan.read ahead).fault = none → after = cursorAt text) ∧
      rounds left tokenRound found text (cursorAt passed) =
        (outcome ahead (.after .start passed) found, after) := by
  rcases broken : piece first text (cursorAt (passed ++ ahead.takeWhile Text.isBlank)) with
    ⟨outcome, after⟩
  rw [broken] at gives
  have round := tokenRound_eq found whole behind
  rw [bind_error (broken.trans (congrArg (·, after) gives))] at round
  refine ⟨after, fun sound => ?_, ?_⟩
  · rw [read] at sound
    contradiction
  · rw [rounds_error round, Scanner.outcome, read]
    simp [Scan.finish, Scan.lexemeText]

theorem tokens_eq {passed ahead : List Char} (found : List Token) (whole : text = passed ++ ahead) :
    ∃ after, ((Scan.read ahead).fault = none → after = cursorAt text) ∧
      rounds left tokenRound found text (cursorAt passed) =
        (outcome ahead (.after .start passed) found, after) := by
  cases behind : ahead.dropWhile Text.isBlank with
  | nil =>
      have blank : ∀ c ∈ ahead, Text.isBlank c = true := List.dropWhile_eq_nil_iff.1 behind
      refine ⟨cursorAt text, fun _ => rfl, ?_⟩
      rw [rounds_done (tokenRound_end found whole blank), outcome, Scan.read_blanks blank]
      simp [Scan.tokens]
  | cons first rest =>
      have round := tokenRound_eq found whole behind
      have stands : text = passed ++ ahead.takeWhile Text.isBlank ++ first :: rest := by
        rw [whole, List.append_assoc, ← Scan.text_of_ahead behind]
      have gives := piece_eq stands
      have read := read_of_behind behind
      cases reading : Reading.read first rest with
      | lexeme kind value source tail =>
          have shorter := Scan.tail_length_lt behind reading
          rw [reading] at gives read
          have whole' : text = passed ++ (ahead.takeWhile Text.isBlank ++ source) ++ tail := by
            rw [stands, ← Reading.source_append_rest reading]
            simp only [List.append_assoc]
          rw [bind_ok gives, List.append_assoc] at round
          have nonempty : ahead.takeWhile Text.isBlank ++ source ≠ [] :=
            List.append_ne_nil_of_right_ne_nil _ (Reading.source_ne_nil reading)
          rcases tokens_eq (found ++ [⟨kind, String.ofList value,
            Position.after .start (passed ++ ahead.takeWhile Text.isBlank)⟩]) whole' with
            ⟨after, ends, tokens⟩
          refine ⟨after, fun sound => ends (by rwa [read] at sound), ?_⟩
          rw [rounds_behind whole' nonempty round, tokens, outcome_of_lexeme behind reading]
          simp only [Position.after_append]
      | unterminated source tail =>
          rw [reading] at gives read
          exact rounds_of_fault found whole behind gives read
      | unexpected c =>
          rw [reading] at gives read
          exact rounds_of_fault found whole behind gives read
termination_by ahead.length

theorem tokenize_eq (text : String) :
    (tokenize text.toList (cursorAt [])).1 =
      match Tokens.ofText text with
      | .ok tokens => .ok tokens.toList
      | .error error => .error (.refused error) := by
  rcases tokens_eq [] (List.nil_append text.toList).symm with ⟨after, ends, tokens⟩
  cases fault : (Scan.read text.toList).fault with
  | none =>
      have finish : (cursorAt text.toList).place = (Scan.read text.toList).finish .start := by
        rcases Scan.row_of_read fault with ⟨_, spelled, _⟩
        rw [place_cursorAt, Scan.finish]
        exact congrArg (Position.after .start) spelled
      simp only [outcome, fault] at tokens
      rw [tokenize, bind_ok tokens, bind_state, ends fault, finish]
      simp [Tokens.ofText, fault, Tokens.toList, Position.after]
  | some fault =>
      simp only [outcome, fault] at tokens
      rw [tokenize, bind_error tokens]
      simp [Tokens.ofText, fault, Position.after]

end Scanner

end EventScript.Guarded
