import EventScript.Proofs.CountedPlaces
import EventScript.Proofs.Relexing
import EventScript.Proofs.WrittenLexemes

/-! Texts laid out as tokens. A text consists of tokens exactly if it is made of their spellings
with blanks between them, each spelling as long as it can be; and every token has the place that is
counted up to it. -/

namespace EventScript

/-! ## Spellings -/

namespace Text

inductive Unescapes : List Char → List Char → Prop
  | nil : Unescapes [] []
  | plain {c : Char} {written value : List Char} (notQuote : c ≠ '"') (notFeed : c ≠ '\n')
      (notEscape : c ≠ '\\') (others : Unescapes written value) :
      Unescapes (c :: written) (c :: value)
  | escaped {c : Char} {written value : List Char} (notFeed : c ≠ '\n')
      (others : Unescapes written value) :
      Unescapes ('\\' :: c :: written) (unescape c :: value)

theorem LiteralBody.read_of_unescapes {written value : List Char}
    (unescapes : Unescapes written value) (tail : List Char) :
    read (written ++ '"' :: tail) = ⟨value, written, '"' :: tail⟩ := by
  induction unescapes with
  | nil =>
      rw [List.nil_append, read.eq_def]
      simp
  | plain notQuote notFeed notEscape _ induction =>
      rw [List.cons_append, read.eq_def]
      simp [notQuote, notFeed, notEscape, induction]
  | escaped notFeed _ induction =>
      rw [List.cons_append, List.cons_append, read.eq_def]
      simp [notFeed, induction]

theorem LiteralBody.unescapes_of_closed {text : List Char} (closed : (read text).closed = true) :
    Unescapes (read text).source (read text).value := by
  fun_induction read text with
  | case1 => simp [LiteralBody.closed] at closed
  | case2 => exact .nil
  | case3 => simp [LiteralBody.closed] at closed
  | case4 => simp [LiteralBody.closed] at closed
  | case5 escaped rest notFeed body _ induction => exact .escaped notFeed (induction closed)
  | case6 c rest plain notEscape body induction =>
      rw [not_or] at plain
      exact .plain plain.1 plain.2 notEscape (induction closed)

end Text

namespace TokenKind

/-- How a token of a kind is written: names, integers and signs as their values, and texts between
quotes. -/
inductive Spells : TokenKind → List Char → List Char → Prop
  | name {word : String} (isName : Text.IsName word) :
      Spells .identifier word.toList word.toList
  | integer {digits : List Char} (nonempty : digits ≠ [])
      (allDigits : ∀ c ∈ digits, Text.isDigit c = true) : Spells .integer digits digits
  | literal {written value : List Char} (unescapes : Text.Unescapes written value) :
      Spells .string value ('"' :: written ++ ['"'])
  | sign {kind : TokenKind} {source : List Char} (listed : (kind, source) ∈ signs) :
      Spells kind source source

/-- A token of a kind ends before a text that it could not go on with. -/
def EndsBefore (kind : TokenKind) (tail : List Char) : Prop :=
  match kind with
  | .identifier => Text.EndsRun Text.isNamePart tail
  | .integer => Text.EndsRun Text.isDigit tail
  | .less | .greater => ¬ ['='] <+: tail
  | .minus => ¬ ['-', '-'] <+: tail
  | _ => True

end TokenKind

def Text.Apart (tail : List Char) : Prop :=
  ∀ c ∈ tail.head?, isNamePart c = false ∧ c ≠ '='

theorem Text.EndsRun.of_apart {continues : Char → Bool} {common tail tail' : List Char}
    (ends : EndsRun continues (common ++ tail)) (apart : Apart tail')
    (narrow : ∀ c, continues c = true → isNamePart c = true) :
    EndsRun continues (common ++ tail') := by
  cases common with
  | nil =>
      intro c head
      rw [Bool.eq_false_iff]
      intro goesOn
      have stops := (apart c head).1
      rw [narrow c goesOn] at stops
      contradiction
  | cons c others => exact .cons (ends c rfl) _

theorem Text.not_isPrefix_of_apart {sign common tail tail' : List Char}
    (inside : ∀ c ∈ sign, isNamePart c = true ∨ c = '=') (ends : ¬ sign <+: common ++ tail)
    (apart : Apart tail') : ¬ sign <+: common ++ tail' := by
  intro isPrefix
  rcases List.prefix_or_prefix_of_prefix isPrefix (List.prefix_append common tail')
    with short | ⟨more, rfl⟩
  · exact ends (short.trans (List.prefix_append _ _))
  · cases more with
    | nil => exact ends (by simp)
    | cons c others =>
        rw [List.prefix_append_right_inj] at isPrefix
        rcases isPrefix with ⟨rest, rfl⟩
        have stops := apart c rfl
        rcases inside c (by simp) with goesOn | same
        · rw [goesOn] at stops
          exact absurd stops.1 (by decide)
        · exact stops.2 same

theorem TokenKind.EndsBefore.of_apart {kind : TokenKind} {common tail tail' : List Char}
    (ends : kind.EndsBefore (common ++ tail)) (apart : Text.Apart tail') :
    kind.EndsBefore (common ++ tail') := by
  cases kind with
  | identifier => exact Text.EndsRun.of_apart ends apart fun _ => id
  | integer => exact Text.EndsRun.of_apart ends apart fun _ => Lexeme.isNamePart_of_isDigit
  | less => exact Text.not_isPrefix_of_apart (by simp) ends apart
  | greater => exact Text.not_isPrefix_of_apart (by simp) ends apart
  | minus => exact Text.not_isPrefix_of_apart (by simp [Text.isNamePart]) ends apart
  | _ => trivial

/-! ## Signs -/

theorem sign?_of_endsBefore {tail : List Char} :
    ∀ sign ∈ signs, sign.1.EndsBefore tail → sign? (sign.2 ++ tail) = some sign := by
  have apart (longer : List Char) (ends : ¬ longer <+: tail) : longer.isPrefixOf tail = false := by
    rwa [← List.isPrefixOf_iff_prefix, Bool.not_eq_true] at ends
  simp only [signs, List.forall_mem_cons, TokenKind.EndsBefore]
  refine ⟨?_, ?_, ?_, ?_, ?_, ?_, ?_, ?_, ?_, ?_, ?_, ?_, ?_, ?_, ?_, ?_, ?_, ?_, ?_, by simp⟩
  all_goals
    intro ends
    simp [sign?, signs, List.isPrefixOf, *]

theorem source_of_kind : ∀ sign ∈ signs, (sign.1 = .less → sign.2 = ['<']) ∧
    (sign.1 = .greater → sign.2 = ['>']) ∧ (sign.1 = .minus → sign.2 = ['-']) := by
  decide

theorem endsBefore_of_sign? {kind : TokenKind} {source tail : List Char}
    (found : sign? (source ++ tail) = some (kind, source)) : kind.EndsBefore tail := by
  have listed := (Reading.sign?_spec found).1
  have kinds := signs_kind _ listed
  have sources := source_of_kind _ listed
  cases kind with
  | identifier => exact absurd rfl kinds.2.1
  | integer => exact absurd rfl kinds.2.2.1
  | less =>
      rintro ⟨rest, rfl⟩
      rw [show source = ['<'] from sources.1 rfl] at found
      simp [sign?, signs, List.isPrefixOf] at found
  | greater =>
      rintro ⟨rest, rfl⟩
      rw [show source = ['>'] from sources.2.1 rfl] at found
      simp [sign?, signs, List.isPrefixOf] at found
  | minus =>
      rintro ⟨rest, rfl⟩
      rw [show source = ['-'] from sources.2.2 rfl] at found
      simp [sign?, signs, List.isPrefixOf] at found
  | _ => trivial

/-! ## Lexemes -/

theorem Reading.spells_of_read {first : Char} {rest : List Char} {kind : TokenKind}
    {value source tail : List Char} (read_eq : read first rest = .lexeme kind value source tail) :
    kind.Spells value source ∧ kind.EndsBefore tail := by
  have spelled := source_append_rest read_eq
  unfold read at read_eq
  split at read_eq
  · next found =>
      injection read_eq with sameKind sameValue sameSource sameTail
      subst sameKind sameValue sameSource
      rw [← spelled] at found
      exact ⟨.sign (sign?_spec found).1, endsBefore_of_sign? found⟩
  · split at read_eq
    · unfold literal at read_eq
      simp only at read_eq
      split at read_eq
      · next closed =>
          injection read_eq with sameKind sameValue sameSource sameTail
          subst sameKind sameValue sameSource
          exact ⟨.literal (Text.LiteralBody.unescapes_of_closed closed), trivial⟩
      · contradiction
    · split at read_eq
      · next digit =>
          injection read_eq with sameKind sameValue sameSource sameTail
          subst sameKind sameValue sameSource sameTail
          refine ⟨.integer (by simp) ?_, Text.EndsRun.dropWhile _ _⟩
          intro c member
          rcases List.mem_cons.1 member with rfl | member
          · exact digit
          · exact List.mem_takeWhile_imp member
      · split at read_eq
        · next start =>
            injection read_eq with sameKind sameValue sameSource sameTail
            subst sameKind sameValue sameSource sameTail
            have isName : Text.IsName (String.ofList (first :: rest.takeWhile Text.isNamePart)) :=
              ⟨first, _, String.toList_ofList, start, fun c member => List.mem_takeWhile_imp member⟩
            have spells := TokenKind.Spells.name isName
            rw [String.toList_ofList] at spells
            exact ⟨spells, Text.EndsRun.dropWhile _ _⟩
        · contradiction

namespace Lexeme

theorem exists_read_of_spells {kind : TokenKind} {value source tail : List Char}
    (spells : kind.Spells value source) (ends : kind.EndsBefore tail) :
    ∃ first rest, source ++ tail = first :: rest ∧ Text.isBlank first = false ∧
      Reading.read first rest = .lexeme kind value source tail := by
  cases spells with
  | name isName => exact Reading.read_name isName ends
  | integer nonempty allDigits => exact Reading.read_digits nonempty allDigits ends
  | @literal written value unescapes =>
      have noSign : sign? ('"' :: (written ++ '"' :: tail)) = none := sign?_eq_none _ (by decide)
      refine ⟨'"', written ++ '"' :: tail, by simp, by decide, ?_⟩
      simp [Reading.read, noSign, Reading.literal, Text.LiteralBody.read_of_unescapes unescapes,
        Text.LiteralBody.closed]
  | sign listed =>
      have found := sign?_of_endsBefore _ listed ends
      rcases List.exists_cons_of_ne_nil (Reading.signs_nonempty _ listed) with ⟨first, rest, same⟩
      simp only at same found
      subst same
      refine ⟨first, rest ++ tail, rfl, (signs_head _ listed first rfl).2.2.2, ?_⟩
      rw [List.cons_append] at found
      simp [Reading.read, found]

theorem standsBefore_iff {lexeme : Lexeme} {tail : List Char} :
    lexeme.StandsBefore tail ↔ (∀ c ∈ lexeme.blanks, Text.isBlank c = true) ∧
      lexeme.kind.Spells lexeme.value lexeme.source ∧ lexeme.kind.EndsBefore tail := by
  constructor
  · intro stands
    rcases stands.reading with ⟨first, rest, _, _, found⟩
    exact ⟨stands.blanks, Reading.spells_of_read found⟩
  · intro holds
    exact ⟨holds.1, exists_read_of_spells holds.2.1 holds.2.2⟩

theorem StandsBefore.of_apart {lexeme : Lexeme} {common tail tail' : List Char}
    (stands : lexeme.StandsBefore (common ++ tail)) (apart : Text.Apart tail') :
    lexeme.StandsBefore (common ++ tail') := by
  rcases standsBefore_iff.1 stands with ⟨blank, spells, ends⟩
  exact standsBefore_iff.2 ⟨blank, spells, ends.of_apart apart⟩

theorem row_of_apart {lexemes : List Lexeme} {common tail tail' : List Char}
    (row : Row lexemes (common ++ tail)) (apart : Text.Apart tail') :
    Row lexemes (common ++ tail') := by
  induction lexemes with
  | nil => trivial
  | cons lexeme others induction =>
      refine ⟨?_, induction row.2⟩
      have first := row.1
      rw [← List.append_assoc] at first ⊢
      exact first.of_apart apart

theorem row_of_forall_split {lexemes : List Lexeme} {tail : List Char}
    (stand : ∀ before lexeme behind, lexemes = before ++ lexeme :: behind →
      lexeme.StandsBefore (textOf behind ++ tail)) : Row lexemes tail := by
  induction lexemes with
  | nil => trivial
  | cons lexeme others induction =>
      refine ⟨stand [] lexeme others rfl, induction fun before other behind split => ?_⟩
      exact stand (lexeme :: before) other behind (by rw [split, List.cons_append])

end Lexeme

/-! ## Spots -/

/-- A lexeme and the offset of its first character, which stands behind the blanks. -/
structure Spot where
  lexeme : Lexeme
  offset : Nat
deriving DecidableEq, Repr

namespace Spot

def token (text : List Char) (spot : Spot) : Token :=
  ⟨spot.lexeme.kind, String.ofList spot.lexeme.value, .counted (text.take spot.offset)⟩

/-- Lexemes at the offsets where they stand one after another, from a first offset on. -/
def inOrder : Nat → List Lexeme → List Spot
  | _, [] => []
  | start, lexeme :: others =>
      let offset := start + lexeme.blanks.length
      ⟨lexeme, offset⟩ :: inOrder (offset + lexeme.source.length) others

@[simp] theorem inOrder_nil (start : Nat) : inOrder start [] = [] := rfl

theorem inOrder_cons (start : Nat) (lexeme : Lexeme) (others : List Lexeme) :
    inOrder start (lexeme :: others) = ⟨lexeme, start + lexeme.blanks.length⟩ ::
      inOrder (start + lexeme.blanks.length + lexeme.source.length) others := rfl

@[simp] theorem map_lexeme_inOrder (start : Nat) (lexemes : List Lexeme) :
    (inOrder start lexemes).map lexeme = lexemes := by
  induction lexemes generalizing start with
  | nil => rfl
  | cons lexeme others induction => rw [inOrder_cons, List.map_cons, induction]

theorem offset_of_inOrder {start : Nat} {lexemes : List Lexeme} {before behind : List Spot}
    {spot : Spot} (split : inOrder start lexemes = before ++ spot :: behind) :
    spot.offset =
      start + (Lexeme.textOf (before.map lexeme) ++ spot.lexeme.blanks).length := by
  induction before generalizing start lexemes with
  | nil =>
      cases lexemes with
      | nil => simp at split
      | cons first others =>
          rw [inOrder_cons, List.nil_append, List.cons.injEq] at split
          simp [← split.1]
  | cons earlier before induction =>
      cases lexemes with
      | nil => simp at split
      | cons first others =>
          rw [inOrder_cons, List.cons_append, List.cons.injEq] at split
          rw [induction split.2, ← split.1]
          simp only [List.map_cons, Lexeme.textOf_cons, List.length_append]
          omega

theorem eq_inOrder {start : Nat} {spots : List Spot}
    (offsets : ∀ before spot behind, spots = before ++ spot :: behind → spot.offset =
      start + (Lexeme.textOf (before.map lexeme) ++ spot.lexeme.blanks).length) :
    spots = inOrder start (spots.map lexeme) := by
  induction spots generalizing start with
  | nil => rfl
  | cons spot others induction =>
      have first := offsets [] spot others rfl
      simp only [List.map_nil, Lexeme.textOf_nil, List.nil_append] at first
      rw [List.map_cons, inOrder_cons, ← first, ← induction]
      intro before other behind split
      rw [offsets (spot :: before) other behind (by rw [split, List.cons_append]), first]
      simp only [List.map_cons, Lexeme.textOf_cons, List.length_append]
      omega

theorem le_offset_of_mem_inOrder {start : Nat} {lexemes : List Lexeme} :
    ∀ spot ∈ inOrder start lexemes, start ≤ spot.offset := by
  intro spot member
  rcases List.append_of_mem member with ⟨before, behind, split⟩
  rw [offset_of_inOrder split]
  exact Nat.le_add_right _ _

theorem pairwise_inOrder (start : Nat) {lexemes : List Lexeme}
    (sourced : ∀ lexeme ∈ lexemes, lexeme.source ≠ []) :
    ((inOrder start lexemes).map offset).Pairwise (· < ·) := by
  induction lexemes generalizing start with
  | nil => exact .nil
  | cons lexeme others induction =>
      rw [List.forall_mem_cons] at sourced
      rw [inOrder_cons, List.map_cons, List.pairwise_cons]
      refine ⟨?_, induction _ sourced.2⟩
      intro later member
      rcases List.mem_map.1 member with ⟨spot, inside, rfl⟩
      have behind := le_offset_of_mem_inOrder spot inside
      have nonempty := List.length_pos_iff.2 sourced.1
      simp only
      omega

theorem map_token_inOrder (passed : List Char) (lexemes : List Lexeme) (tail : List Char) :
    (inOrder passed.length lexemes).map (token (passed ++ (Lexeme.textOf lexemes ++ tail))) =
      Scan.locate (.counted passed) lexemes := by
  induction lexemes generalizing passed with
  | nil => rfl
  | cons lexeme others induction =>
      have place (more : List Char) :
          (Position.counted passed).after more = .counted (passed ++ more) := by
        rw [← Position.after_start, ← Position.after_start, Position.after_append]
      have upTo : (passed ++ (Lexeme.textOf (lexeme :: others) ++ tail)).take
          (passed.length + lexeme.blanks.length) = passed ++ lexeme.blanks := by
        rw [← List.length_append, Lexeme.textOf_cons, List.append_assoc, ← List.append_assoc,
          List.take_left]
      have behind := induction (passed ++ (lexeme.blanks ++ lexeme.source))
      simp only [List.length_append, List.append_assoc, ← Nat.add_assoc] at behind
      rw [Scan.locate_cons, place, place, inOrder_cons, List.map_cons, ← behind, token, upTo]
      simp

end Spot

/-! ## Layouts -/

structure Layout (text : List Char) (tokens : Tokens) (spots : List Spot) (blanks : List Char) :
    Prop where
  /-- The text is the lexemes with the blanks before each, and blanks behind the last. -/
  whole : text = Lexeme.textOf (spots.map Spot.lexeme) ++ blanks
  blank : ∀ spot ∈ spots, ∀ c ∈ spot.lexeme.blanks, Text.isBlank c = true
  blankBehind : ∀ c ∈ blanks, Text.isBlank c = true
  /-- Each offset counts all that stands before the lexeme. -/
  offset : ∀ before spot behind, spots = before ++ spot :: behind →
    spot.offset = (Lexeme.textOf (before.map Spot.lexeme) ++ spot.lexeme.blanks).length
  increasing : (spots.map Spot.offset).Pairwise (· < ·)
  spelled : ∀ spot ∈ spots, spot.lexeme.kind.Spells spot.lexeme.value spot.lexeme.source
  /-- No spelling could go on. -/
  ends : ∀ spot ∈ spots,
    spot.lexeme.kind.EndsBefore (text.drop (spot.offset + spot.lexeme.source.length))
  /-- Every token is the one at its spot. -/
  placed : tokens.list = spots.map (Spot.token text)
  finish : tokens.finish = .counted text

theorem Lexeme.drop_of_split {lexemes before behind : List Lexeme} {lexeme : Lexeme}
    (split : lexemes = before ++ lexeme :: behind) (blanks : List Char) :
    (textOf lexemes ++ blanks).drop
      ((textOf before ++ lexeme.blanks).length + lexeme.source.length) =
        textOf behind ++ blanks := by
  rw [split, textOf_append, textOf_cons, ← List.length_append]
  have regroup : textOf before ++ (lexeme.blanks ++ (lexeme.source ++ textOf behind)) ++ blanks =
      (textOf before ++ lexeme.blanks ++ lexeme.source) ++ (textOf behind ++ blanks) := by simp
  rw [regroup, List.drop_left]

theorem layout_of_row {lexemes : List Lexeme} {blanks : List Char}
    (row : Lexeme.Row lexemes blanks) (blank : ∀ c ∈ blanks, Text.isBlank c = true) :
    Layout (Lexeme.textOf lexemes ++ blanks)
      ⟨Scan.locate .start lexemes, Position.start.after (Lexeme.textOf lexemes ++ blanks)⟩
      (Spot.inOrder 0 lexemes) blanks := by
  have stand : ∀ spot ∈ Spot.inOrder 0 lexemes, spot.lexeme.StandsBefore
      ((Lexeme.textOf lexemes ++ blanks).drop (spot.offset + spot.lexeme.source.length)) := by
    intro spot member
    rcases List.append_of_mem member with ⟨before, behind, split⟩
    have lexemesSplit := congrArg (List.map Spot.lexeme) split
    rw [Spot.map_lexeme_inOrder, List.map_append, List.map_cons] at lexemesSplit
    rw [Spot.offset_of_inOrder split, Nat.zero_add, Lexeme.drop_of_split lexemesSplit]
    rw [lexemesSplit, Lexeme.row_append, Lexeme.row_cons] at row
    exact row.2.1
  exact {
    whole := by rw [Spot.map_lexeme_inOrder]
    blank := fun spot member => (stand spot member).blanks
    blankBehind := blank
    offset := fun before spot behind split => by
      rw [Spot.offset_of_inOrder split, Nat.zero_add]
    increasing := Spot.pairwise_inOrder 0 fun lexeme member => by
      rcases Lexeme.exists_standsBefore_of_row row lexeme member with ⟨_, stands⟩
      exact stands.source_ne_nil
    spelled := fun spot member => (Lexeme.standsBefore_iff.1 (stand spot member)).2.1
    ends := fun spot member => (Lexeme.standsBefore_iff.1 (stand spot member)).2.2
    placed := (Spot.map_token_inOrder [] lexemes blanks).symm
    finish := Position.after_start _ }

namespace Layout

variable {text : List Char} {tokens : Tokens} {spots : List Spot} {blanks : List Char}

theorem row (layout : Layout text tokens spots blanks) :
    Lexeme.Row (spots.map Spot.lexeme) blanks := by
  apply Lexeme.row_of_forall_split
  intro before lexeme behind split
  rcases List.map_eq_append_iff.1 split with ⟨earlier, others, rfl, rfl, rest⟩
  rcases List.map_eq_cons_iff.1 rest with ⟨spot, later, rfl, rfl, rfl⟩
  have member : spot ∈ earlier ++ spot :: later := by simp
  have tail := Lexeme.drop_of_split split blanks
  rw [← layout.whole, ← layout.offset earlier spot later rfl] at tail
  rw [← tail]
  exact Lexeme.standsBefore_iff.2
    ⟨layout.blank spot member, layout.spelled spot member, layout.ends spot member⟩

theorem tokens_eq (layout : Layout text tokens spots blanks) :
    tokens = ⟨Scan.locate .start (spots.map Spot.lexeme), Position.start.after text⟩ := by
  have inOrder : spots = Spot.inOrder 0 (spots.map Spot.lexeme) :=
    Spot.eq_inOrder fun before spot behind split => by
      rw [layout.offset before spot behind split, Nat.zero_add]
  have list := Spot.map_token_inOrder [] (spots.map Spot.lexeme) blanks
  rw [List.nil_append, ← layout.whole, List.length_nil, ← inOrder, ← layout.placed] at list
  have finish := layout.finish
  rw [← Position.after_start] at finish
  cases tokens
  simp only at list finish
  rw [list, finish]
  rfl

end Layout

/-- A text consists of tokens exactly if it can be laid out as these tokens. -/
theorem Tokens.ofText_eq_ok_iff_layout {text : String} {tokens : Tokens} :
    ofText text = .ok tokens ↔ ∃ spots blanks, Layout text.toList tokens spots blanks := by
  constructor
  · intro lexed
    rcases Scan.row_of_read (list_of_ofText lexed).1 with ⟨row, spelled, blank⟩
    rw [ofText_of_row row blank spelled, ← spelled] at lexed
    injection lexed with same
    subst same
    have layout := layout_of_row row blank
    rw [← spelled] at layout
    exact ⟨_, _, layout⟩
  · rintro ⟨spots, blanks, layout⟩
    rw [ofText_of_row layout.row layout.blankBehind layout.whole, ← layout.whole]
    rw [layout.tokens_eq]

end EventScript
