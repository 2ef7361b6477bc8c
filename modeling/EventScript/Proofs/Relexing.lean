import EventScript.Proofs.Lexing

/-! Texts that go on differently. A lexeme is told from what follows it by the characters up
to the next blank or line terminator, so behind such a place a text can be changed without
changing the lexemes before. -/

namespace EventScript

/-! ## Separated continuations -/

namespace Text

/-- A blank or a line terminator, or the end of the text, which ends every lexeme but those it
is a part of. -/
def Separated (tail : List Char) : Prop :=
  ∀ c ∈ tail.head?, c ∈ [' ', '\t', '\n', '\r']

theorem Separated.nil : Separated [] := by
  simp [Separated]

theorem Separated.cons {c : Char} (separates : c ∈ [' ', '\t', '\n', '\r']) (rest : List Char) :
    Separated (c :: rest) := by
  simpa [Separated] using separates

theorem Separated.of_isBlank {c : Char} (blank : isBlank c = true) (rest : List Char) :
    Separated (c :: rest) := by
  simp only [isBlank, Bool.or_eq_true, beq_iff_eq] at blank
  apply Separated.cons
  rcases blank with rfl | rfl
  · simp
  · simp

theorem isDigit_of_separator : ∀ c ∈ [' ', '\t', '\n', '\r'], isDigit c = false := by
  simp only [List.forall_mem_cons]
  exact ⟨by decide, by decide, by decide, by decide, by simp⟩

theorem isNamePart_of_separator : ∀ c ∈ [' ', '\t', '\n', '\r'], isNamePart c = false := by
  simp only [List.forall_mem_cons]
  exact ⟨by decide, by decide, by decide, by decide, by simp⟩

theorem Separated.endsRun {continues : Char → Bool} {tail : List Char}
    (separated : Separated tail)
    (stops : ∀ c ∈ [' ', '\t', '\n', '\r'], continues c = false) : EndsRun continues tail :=
  fun c head => stops c (separated c head)

theorem EndsRun.of_separated {continues : Char → Bool} {common tail tail' : List Char}
    (ends : EndsRun continues (common ++ tail)) (separated : Separated tail')
    (stops : ∀ c ∈ [' ', '\t', '\n', '\r'], continues c = false) :
    EndsRun continues (common ++ tail') := by
  cases common with
  | nil => exact separated.endsRun stops
  | cons c others => exact .cons (ends c rfl) _

theorem LiteralBody.read_of_closed {text tail : List Char} (closed : (read text).rest = '"' :: tail)
    (other : List Char) :
    read ((read text).source ++ '"' :: other) =
      ⟨(read text).value, (read text).source, '"' :: other⟩ := by
  fun_induction read text with
  | case1 => contradiction
  | case2 c rest stops => rw [List.nil_append, read.eq_def]; simp
  | case3 => contradiction
  | case4 => simp at closed
  | case5 escaped rest notFeed body _ induction =>
      have others := induction closed
      rw [List.cons_append, List.cons_append, read.eq_def]
      simp [notFeed, others, body]
  | case6 c rest plain notEscape body induction =>
      have others := induction closed
      rw [List.cons_append, read.eq_def]
      simp [plain, notEscape, others, body]

end Text

/-! ## One lexeme -/

theorem signs_separator : ∀ sign ∈ signs, ∀ longer ∈ signs, sign.2.isPrefixOf longer.2 = true →
    ∀ c ∈ longer.2.drop sign.2.length, c ∉ [' ', '\t', '\n', '\r'] := by
  have checked : ∀ sign ∈ signs, ∀ longer ∈ signs, sign.2.isPrefixOf longer.2 = true →
      (longer.2.drop sign.2.length).all (fun c => !([' ', '\t', '\n', '\r'].contains c)) = true := by
    decide
  intro sign listed longer longerListed isPrefix
  simpa using checked sign listed longer longerListed isPrefix

theorem isPrefixOf_of_separated {kind : TokenKind} {source common tail' : List Char}
    (listed : (kind, source) ∈ signs) (separated : Text.Separated tail')
    {sign : TokenKind × List Char} (signListed : sign ∈ signs)
    (isPrefix : sign.2.isPrefixOf (source ++ (common ++ tail')) = true) (tail : List Char) :
    sign.2.isPrefixOf (source ++ (common ++ tail)) = true := by
  rw [List.isPrefixOf_iff_prefix, ← List.append_assoc] at isPrefix ⊢
  have known : source ++ common <+: source ++ common ++ tail' := List.prefix_append _ _
  rcases List.prefix_or_prefix_of_prefix isPrefix known with short | long
  · exact short.trans (List.prefix_append _ _)
  · rcases long with ⟨more, spelled⟩
    cases more with
    | nil =>
        rw [← spelled, List.append_nil]
        exact List.prefix_append _ _
    | cons c others =>
        rw [← spelled, List.prefix_append_right_inj] at isPrefix
        rcases isPrefix with ⟨rest, whole⟩
        have separates := separated c (by rw [← whole]; rfl)
        have starts : source.isPrefixOf sign.2 = true := by
          rw [List.isPrefixOf_iff_prefix, ← spelled, List.append_assoc]
          exact List.prefix_append _ _
        have member : c ∈ sign.2.drop source.length := by
          rw [← spelled, List.append_assoc, List.drop_left]
          simp
        exact absurd separates (signs_separator _ listed _ signListed starts c member)

theorem sign?_of_separated {kind : TokenKind} {source common tail tail' : List Char}
    (found : sign? (source ++ (common ++ tail)) = some (kind, source))
    (separated : Text.Separated tail') :
    sign? (source ++ (common ++ tail')) = some (kind, source) := by
  have listed := (Reading.sign?_spec found).1
  rw [sign?, List.find?_eq_some_iff_append] at found ⊢
  rcases found with ⟨_, before, after, same, earlier⟩
  refine ⟨?_, before, after, same, fun sign member => ?_⟩
  · rw [List.isPrefixOf_iff_prefix]
    exact List.prefix_append _ _
  · have fails := earlier sign member
    simp only [Bool.not_eq_true'] at fails ⊢
    rw [Bool.eq_false_iff] at fails ⊢
    intro isPrefix
    exact fails (isPrefixOf_of_separated listed separated (by simp [same, member]) isPrefix tail)

namespace Reading

theorem literal_of_separated {rest : List Char} {kind : TokenKind} {value source tail : List Char}
    (found : literal rest = .lexeme kind value source tail) (tail' : List Char) :
    ∃ inside, source = '"' :: inside ∧
      literal (inside ++ tail') = .lexeme kind value source tail' := by
  unfold literal at found
  simp only at found
  split at found
  · next closed =>
      injection found with sameKind sameValue sameSource sameTail
      subst sameKind sameValue sameSource
      simp only [Text.LiteralBody.closed, beq_iff_eq] at closed
      cases after : (Text.LiteralBody.read rest).rest with
      | nil => simp [after] at closed
      | cons quote others =>
          simp only [after, List.head?_cons, Option.some.injEq] at closed
          subst closed
          refine ⟨(Text.LiteralBody.read rest).source ++ ['"'], rfl, ?_⟩
          rw [List.append_assoc, List.singleton_append, literal]
          simp [Text.LiteralBody.read_of_closed after, Text.LiteralBody.closed]
  · contradiction

theorem word_of_separated {kind kind' : TokenKind} {continues : Char → Bool} {first : Char}
    {rest value source common tail tail' : List Char}
    (found : word kind continues first rest = .lexeme kind' value source (common ++ tail))
    (separated : Text.Separated tail')
    (stops : ∀ c ∈ [' ', '\t', '\n', '\r'], continues c = false) :
    ∃ inside, source = first :: inside ∧
      word kind continues first (inside ++ (common ++ tail')) =
        .lexeme kind' value source (common ++ tail') := by
  injection found with sameKind sameValue sameSource sameTail
  subst sameKind sameValue sameSource
  have inside : ∀ c ∈ rest.takeWhile continues, continues c = true :=
    fun c member => List.mem_takeWhile_imp member
  have ends : Text.EndsRun continues (common ++ tail) := sameTail ▸ .dropWhile continues rest
  have ends' := ends.of_separated separated stops
  refine ⟨rest.takeWhile continues, rfl, ?_⟩
  rw [word, Text.takeWhile_run inside ends', Text.dropWhile_run inside ends']

theorem read_of_separated {first : Char} {rest : List Char} {kind : TokenKind}
    {value source common tail tail' : List Char}
    (found : read first rest = .lexeme kind value source (common ++ tail))
    (separated : Text.Separated tail') :
    ∃ rest', source ++ (common ++ tail') = first :: rest' ∧
      read first rest' = .lexeme kind value source (common ++ tail') := by
  have spelled := source_append_rest found
  rcases List.exists_cons_of_ne_nil (source_ne_nil found) with ⟨c, more, rfl⟩
  rw [List.cons_append, List.cons.injEq] at spelled
  rcases spelled with ⟨rfl, rfl⟩
  refine ⟨more ++ (common ++ tail'), rfl, ?_⟩
  unfold read at found
  split at found
  · next signFound =>
      injection found with sameKind sameValue sameSource sameTail
      subst sameKind sameValue sameSource
      rw [← List.cons_append] at signFound
      have again := sign?_of_separated signFound separated
      rw [List.cons_append] at again
      simp [read, again]
  · split at found
    · next quote =>
        subst quote
        rcases literal_of_separated found (common ++ tail') with ⟨inside, same, again⟩
        injection same with _ sameInside
        subst sameInside
        have noSign : sign? ('"' :: (more ++ (common ++ tail'))) = none :=
          sign?_eq_none _ (by decide)
        simp [read, noSign, again]
    · next notQuote =>
        split at found
        · next digit =>
            rcases word_of_separated found separated Text.isDigit_of_separator with
              ⟨inside, same, again⟩
            injection same with _ sameInside
            subst sameInside
            simp [read, (plain_of_wordStart (.inr digit)).1, notQuote, digit, again]
        · next notDigit =>
            split at found
            · next start =>
                rcases word_of_separated found separated Text.isNamePart_of_separator with
                  ⟨inside, same, again⟩
                injection same with _ sameInside
                subst sameInside
                simp [read, (plain_of_wordStart (.inl start)).1, notQuote, notDigit, start, again]
            · contradiction

end Reading

/-! ## Lexemes in a row -/

namespace Lexeme

theorem StandsBefore.wellFormed {lexeme : Lexeme} {tail : List Char}
    (stands : lexeme.StandsBefore tail) : lexeme.WellFormed := by
  rcases stands.reading with ⟨_, _, _, _, found⟩
  exact Reading.wellFormed_of_read stands.blanks found

theorem StandsBefore.source_ne_nil {lexeme : Lexeme} {tail : List Char}
    (stands : lexeme.StandsBefore tail) : lexeme.source ≠ [] := by
  rcases stands.reading with ⟨_, _, _, _, found⟩
  exact Reading.source_ne_nil found

theorem exists_standsBefore_of_row {lexemes : List Lexeme} {tail : List Char}
    (row : Row lexemes tail) : ∀ lexeme ∈ lexemes, ∃ behind, lexeme.StandsBefore behind := by
  induction lexemes with
  | nil => simp
  | cons lexeme others induction =>
      exact List.forall_mem_cons.2 ⟨⟨_, row.1⟩, induction row.2⟩

theorem wellFormed_of_row {lexemes : List Lexeme} {tail : List Char} (row : Row lexemes tail) :
    ∀ lexeme ∈ lexemes, lexeme.WellFormed := by
  intro lexeme member
  rcases exists_standsBefore_of_row row lexeme member with ⟨_, stands⟩
  exact stands.wellFormed

theorem StandsBefore.of_separated {lexeme : Lexeme} {common tail tail' : List Char}
    (stands : lexeme.StandsBefore (common ++ tail)) (separated : Text.Separated tail') :
    lexeme.StandsBefore (common ++ tail') := by
  rcases stands.reading with ⟨first, rest, _, notBlank, found⟩
  rcases Reading.read_of_separated found separated with ⟨rest', spelled, again⟩
  exact ⟨stands.blanks, first, rest', spelled, notBlank, again⟩

theorem row_of_separated {lexemes : List Lexeme} {common tail tail' : List Char}
    (row : Row lexemes (common ++ tail)) (separated : Text.Separated tail') :
    Row lexemes (common ++ tail') := by
  induction lexemes with
  | nil => trivial
  | cons lexeme others induction =>
      refine ⟨?_, induction row.2⟩
      have first := row.1
      rw [← List.append_assoc] at first ⊢
      exact first.of_separated separated

def indent (blanks : List Char) : List Lexeme → List Lexeme
  | [] => []
  | first :: others => { first with blanks := blanks ++ first.blanks } :: others

theorem textOf_indent {lexemes : List Lexeme} (nonempty : lexemes ≠ []) (blanks : List Char) :
    textOf (indent blanks lexemes) = blanks ++ textOf lexemes := by
  cases lexemes with
  | nil => contradiction
  | cons first others => simp [indent]

theorem row_indent {lexemes : List Lexeme} {blanks tail : List Char} (row : Row lexemes tail)
    (blank : ∀ c ∈ blanks, Text.isBlank c = true) : Row (indent blanks lexemes) tail := by
  cases lexemes with
  | nil => trivial
  | cons first others =>
      exact ⟨⟨List.forall_mem_append.2 ⟨blank, row.1.blanks⟩, row.1.reading⟩, row.2⟩

@[simp] theorem map_token_indent (blanks : List Char) (lexemes : List Lexeme) :
    (indent blanks lexemes).map token = lexemes.map token := by
  cases lexemes <;> rfl

end Lexeme

/-! ## Whole texts -/

namespace Scan

theorem text_of_ahead {text ahead : List Char} (isAhead : text.dropWhile Text.isBlank = ahead) :
    text = text.takeWhile Text.isBlank ++ ahead := by
  rw [← isAhead, List.takeWhile_append_dropWhile]

theorem notBlank_of_ahead {text rest : List Char} {first : Char}
    (ahead : text.dropWhile Text.isBlank = first :: rest) : Text.isBlank first = false := by
  have stops := List.head?_dropWhile_not Text.isBlank text
  simpa [ahead] using stops

theorem standsBefore_of_ahead {text rest : List Char} {first : Char} {kind : TokenKind}
    {value source tail : List Char} (ahead : text.dropWhile Text.isBlank = first :: rest)
    (found : Reading.read first rest = .lexeme kind value source tail) :
    Lexeme.StandsBefore ⟨text.takeWhile Text.isBlank, kind, value, source⟩ tail :=
  ⟨fun _ member => List.mem_takeWhile_imp member, first, rest, Reading.source_append_rest found,
    notBlank_of_ahead ahead, found⟩

theorem row_of_read {text : List Char} (sound : (read text).fault = none) :
    Lexeme.Row (read text).lexemes (read text).blanks ∧
      text = Lexeme.textOf (read text).lexemes ++ (read text).blanks ∧
      ∀ c ∈ (read text).blanks, Text.isBlank c = true := by
  fun_induction read text with
  | case1 text blanks ahead =>
      refine ⟨trivial, ?_, fun c member => List.mem_takeWhile_imp member⟩
      have whole := text_of_ahead ahead
      rwa [List.append_nil] at whole
  | case2 text blanks first rest ahead kind value source tail found shorter induction =>
      rcases induction sound with ⟨row, spelled, blank⟩
      have stands := standsBefore_of_ahead ahead found
      have whole := text_of_ahead ahead
      rw [← Reading.source_append_rest found] at whole
      rw [spelled] at stands whole
      exact ⟨⟨stands, row⟩, by simpa [Scan.cons, blanks] using whole, blank⟩
  | case3 => contradiction
  | case4 => contradiction

@[simp] theorem length_locate (place : Position) (lexemes : List Lexeme) :
    (locate place lexemes).length = lexemes.length := by
  have unplaced := congrArg List.length (map_unplaced_locate place lexemes)
  rwa [List.length_map, List.length_map] at unplaced

theorem take_locate (place : Position) (lexemes : List Lexeme) (count : Nat) :
    (locate place lexemes).take count = locate place (lexemes.take count) := by
  induction lexemes generalizing place count with
  | nil => simp
  | cons lexeme others induction =>
      cases count with
      | zero => rfl
      | succ count => rw [locate_cons, List.take_succ_cons, List.take_succ_cons, locate_cons, induction]

end Scan

namespace Tokens

theorem list_of_ofText {text : String} {tokens : Tokens} (lexed : ofText text = .ok tokens) :
    (Scan.read text.toList).fault = none ∧
      tokens.list = Scan.locate .start (Scan.read text.toList).lexemes := by
  unfold ofText at lexed
  simp only at lexed
  split at lexed
  · next sound =>
      injection lexed with same
      subst same
      exact ⟨sound, rfl⟩
  · contradiction

end Tokens

end EventScript
