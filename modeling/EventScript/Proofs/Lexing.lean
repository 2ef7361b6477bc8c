import EventScript.Proofs.Spelling
import EventScript.Token.Lexer
import Mathlib.Data.List.Chain
import Mathlib.Data.List.TakeWhile

/-! Texts put together from lexemes. If every lexeme can be told from what follows it,
reading the text gives the lexemes back; and the lexemes of any text are well
formed. -/

namespace EventScript

/-! ## Words -/

namespace Text

def IsName (word : String) : Prop :=
  ∃ first rest, word.toList = first :: rest ∧ isNameStart first = true ∧
    ∀ c ∈ rest, isNamePart c = true

instance (word : String) : Decidable (IsName word) :=
  match spelled : word.toList with
  | [] => .isFalse fun ⟨_, _, same, _⟩ => by simp [spelled] at same
  | first :: rest =>
      decidable_of_iff (isNameStart first = true ∧ rest.all isNamePart = true)
        ⟨fun parts => ⟨first, rest, spelled, parts.1, List.all_eq_true.1 parts.2⟩,
          fun ⟨_, _, same, start, parts⟩ => by
            rw [spelled] at same
            injection same with sameFirst sameRest
            subst sameFirst sameRest
            exact ⟨start, List.all_eq_true.2 parts⟩⟩

theorem isBlank_of_mem_space : ∀ c ∈ [' '], isBlank c = true := by
  simp [isBlank]

/-- A run of characters of a class is complete if what follows does not go on with it. -/
def EndsRun (continues : Char → Bool) (tail : List Char) : Prop :=
  ∀ c ∈ tail.head?, continues c = false

theorem EndsRun.nil (continues : Char → Bool) : EndsRun continues [] := by
  simp [EndsRun]

theorem EndsRun.cons {continues : Char → Bool} {c : Char} (stops : continues c = false)
    (rest : List Char) : EndsRun continues (c :: rest) := by
  simpa [EndsRun] using stops

theorem EndsRun.dropWhile (continues : Char → Bool) (rest : List Char) :
    EndsRun continues (rest.dropWhile continues) := by
  intro c head
  have stopped := List.head?_dropWhile_not continues rest
  rw [Option.mem_def.1 head] at stopped
  simpa using stopped

theorem takeWhile_run {continues : Char → Bool} {run tail : List Char}
    (inside : ∀ c ∈ run, continues c = true) (ends : EndsRun continues tail) :
    (run ++ tail).takeWhile continues = run := by
  rw [List.takeWhile_append_of_pos inside]
  cases tail with
  | nil => simp
  | cons c rest => simp [ends c rfl]

theorem dropWhile_run {continues : Char → Bool} {run tail : List Char}
    (inside : ∀ c ∈ run, continues c = true) (ends : EndsRun continues tail) :
    (run ++ tail).dropWhile continues = tail := by
  rw [List.dropWhile_append_of_pos inside]
  cases tail with
  | nil => simp
  | cons c rest => simp [ends c rfl]

theorem toNat_of_isDigit {c : Char} (digit : isDigit c = true) :
    48 ≤ c.toNat ∧ c.toNat ≤ 57 := by
  simp only [isDigit, Bool.and_eq_true, decide_eq_true_eq] at digit
  exact ⟨digit.1, digit.2⟩

theorem isDigit_of_isNameStart {c : Char} (start : isNameStart c = true) : isDigit c = false := by
  rw [Bool.eq_false_iff]
  intro digit
  have bounds := toNat_of_isDigit digit
  have checked : ∀ code ∈ List.range' 48 10, isNameStart (Char.ofNat code) = false := by decide
  have apart := checked c.toNat (by rw [List.mem_range'_1]; omega)
  rw [Char.ofNat_toNat, start] at apart
  contradiction

end Text

/-! ## One lexeme -/

theorem signs_head : ∀ sign ∈ signs, ∀ c ∈ sign.2.head?,
    Text.isNameStart c = false ∧ Text.isDigit c = false ∧ c ≠ '"' ∧ Text.isBlank c = false := by
  -- Checked on the heads alone: there is no deciding over all characters.
  have checked : (signs.all fun sign => sign.2.head?.all fun c =>
      !Text.isNameStart c && !Text.isDigit c && c != '"' && !Text.isBlank c) = true := by
    decide
  intro sign listed c begins
  have apart := List.all_eq_true.1 checked sign listed
  rw [begins] at apart
  simpa [and_assoc] using apart

theorem sign?_eq_none {first : Char} (rest : List Char)
    (apart : ∀ sign ∈ signs, first ∉ sign.2.head?) : sign? (first :: rest) = none := by
  rw [sign?, List.find?_eq_none]
  intro sign listed isPrefix
  have nonempty := Reading.signs_nonempty sign listed
  have headApart := apart sign listed
  cases spelling : sign.2 with
  | nil => exact nonempty spelling
  | cons c others =>
      rw [spelling] at isPrefix headApart
      simp only [List.isPrefixOf, Bool.and_eq_true, beq_iff_eq] at isPrefix
      exact headApart (by simp [isPrefix.1])

namespace Reading

theorem plain_of_wordStart {c : Char}
    (start : Text.isNameStart c = true ∨ Text.isDigit c = true) :
    (∀ rest, sign? (c :: rest) = none) ∧ c ≠ '"' ∧ Text.isBlank c = false := by
  refine ⟨fun rest => sign?_eq_none rest fun sign listed member => ?_, ?_, ?_⟩
  · have apart := signs_head sign listed c member
    rcases start with start | start
    · simp [apart.1] at start
    · simp [apart.2.1] at start
  · intro same
    subst same
    exact absurd start (by decide)
  · rw [Bool.eq_false_iff]
    intro blank
    simp only [Text.isBlank, Bool.or_eq_true, beq_iff_eq] at blank
    rcases blank with rfl | rfl
    · exact absurd start (by decide)
    · exact absurd start (by decide)

theorem read_name {name : String} (isName : Text.IsName name) {tail : List Char}
    (ends : Text.EndsRun Text.isNamePart tail) :
    ∃ first rest, name.toList ++ tail = first :: rest ∧ Text.isBlank first = false ∧
      read first rest = .lexeme .identifier name.toList name.toList tail := by
  rcases isName with ⟨first, rest, spelled, start, parts⟩
  rcases plain_of_wordStart (.inl start) with ⟨noSign, notQuote, notBlank⟩
  refine ⟨first, rest ++ tail, by rw [spelled]; rfl, notBlank, ?_⟩
  simp [read, noSign, notQuote, Text.isDigit_of_isNameStart start, start, word, spelled,
    Text.takeWhile_run parts ends, Text.dropWhile_run parts ends]

theorem read_digits {digits tail : List Char} (nonempty : digits ≠ [])
    (allDigits : ∀ c ∈ digits, Text.isDigit c = true)
    (ends : Text.EndsRun Text.isDigit tail) :
    ∃ first rest, digits ++ tail = first :: rest ∧ Text.isBlank first = false ∧
      read first rest = .lexeme .integer digits digits tail := by
  rcases List.exists_cons_of_ne_nil nonempty with ⟨first, rest, rfl⟩
  have digit := allDigits first (by simp)
  have others : ∀ c ∈ rest, Text.isDigit c = true := fun c member => allDigits c (by simp [member])
  rcases plain_of_wordStart (.inr digit) with ⟨noSign, notQuote, notBlank⟩
  refine ⟨first, rest ++ tail, rfl, notBlank, ?_⟩
  simp [read, noSign, notQuote, digit, word, Text.takeWhile_run others ends,
    Text.dropWhile_run others ends]

theorem read_literal (value tail : List Char) :
    read '"' (value.flatMap Text.escapeChar ++ '"' :: tail) =
      .lexeme .string value ('"' :: value.flatMap Text.escapeChar ++ ['"']) tail := by
  have noSign : sign? ('"' :: (value.flatMap Text.escapeChar ++ '"' :: tail)) = none :=
    sign?_eq_none _ (by decide)
  simp [read, noSign, literal, Text.LiteralBody.read_escape, Text.LiteralBody.closed]

end Reading

/-! ## Lexemes in a row -/

namespace Lexeme

def textOf (lexemes : List Lexeme) : List Char :=
  lexemes.flatMap fun lexeme => lexeme.blanks ++ lexeme.source

@[simp] theorem textOf_nil : textOf [] = [] := rfl

@[simp] theorem textOf_cons (lexeme : Lexeme) (others : List Lexeme) :
    textOf (lexeme :: others) = lexeme.blanks ++ (lexeme.source ++ textOf others) := by
  simp [textOf]

@[simp] theorem textOf_append (first second : List Lexeme) :
    textOf (first ++ second) = textOf first ++ textOf second := by
  simp [textOf]

/-- A lexeme that is read as such where it stands, with `tail` behind it. -/
structure StandsBefore (lexeme : Lexeme) (tail : List Char) : Prop where
  blanks : ∀ c ∈ lexeme.blanks, Text.isBlank c = true
  reading : ∃ first rest, lexeme.source ++ tail = first :: rest ∧ Text.isBlank first = false ∧
    Reading.read first rest = .lexeme lexeme.kind lexeme.value lexeme.source tail

/-- Lexemes each of which stands before the text of the others and of what follows them. -/
def Row : List Lexeme → List Char → Prop
  | [], _ => True
  | lexeme :: others, tail => lexeme.StandsBefore (textOf others ++ tail) ∧ Row others tail

@[simp] theorem row_nil (tail : List Char) : Row [] tail := trivial

theorem row_cons {lexeme : Lexeme} {others : List Lexeme} {tail : List Char} :
    Row (lexeme :: others) tail ↔
      lexeme.StandsBefore (textOf others ++ tail) ∧ Row others tail := Iff.rfl

theorem row_append {first second : List Lexeme} {tail : List Char} :
    Row (first ++ second) tail ↔ Row first (textOf second ++ tail) ∧ Row second tail := by
  induction first with
  | nil => simp
  | cons lexeme others induction =>
      rw [List.cons_append, row_cons, row_cons, induction, textOf_append, List.append_assoc,
        and_assoc]

end Lexeme

namespace Scan

def prepend (lexemes : List Lexeme) (scan : Scan) : Scan :=
  { scan with lexemes := lexemes ++ scan.lexemes }

theorem read_of_blanks {blanks rest : List Char} {first : Char}
    (blank : ∀ c ∈ blanks, Text.isBlank c = true) (notBlank : Text.isBlank first = false) :
    read (blanks ++ first :: rest) =
      match Reading.read first rest with
      | .lexeme kind value source tail => (read tail).cons ⟨blanks, kind, value, source⟩
      | .unterminated source _ => ⟨[], blanks, source, some .unterminated⟩
      | .unexpected c => ⟨[], blanks, [], some (.unexpected c)⟩ := by
  have ends : Text.EndsRun Text.isBlank (first :: rest) := .cons notBlank rest
  have taken := Text.takeWhile_run blank ends
  have dropped := Text.dropWhile_run blank ends
  rw [read.eq_def]
  split
  · next nothing => simp [dropped] at nothing
  · next first' rest' same =>
      rw [dropped, List.cons.injEq] at same
      rcases same with ⟨rfl, rfl⟩
      rw [taken]
      split
      · next found => simp only [found]
      · next found => simp only [found]
      · next found => simp only [found]

theorem read_of_standsBefore {lexeme : Lexeme} {tail : List Char}
    (stands : lexeme.StandsBefore tail) :
    read (lexeme.blanks ++ (lexeme.source ++ tail)) = (read tail).cons lexeme := by
  rcases stands.reading with ⟨first, rest, spelled, notBlank, found⟩
  rw [spelled, read_of_blanks stands.blanks notBlank, found]

theorem read_row {lexemes : List Lexeme} {tail : List Char} (row : Lexeme.Row lexemes tail) :
    read (Lexeme.textOf lexemes ++ tail) = (read tail).prepend lexemes := by
  induction lexemes with
  | nil => rfl
  | cons lexeme others induction =>
      rw [Lexeme.textOf_cons, List.append_assoc, List.append_assoc, read_of_standsBefore row.1,
        induction row.2]
      rfl

theorem read_blanks {blanks : List Char} (blank : ∀ c ∈ blanks, Text.isBlank c = true) :
    read blanks = ⟨[], blanks, [], none⟩ := by
  have taken : blanks.takeWhile Text.isBlank = blanks := List.takeWhile_eq_self_iff.2 blank
  have dropped : blanks.dropWhile Text.isBlank = [] := List.dropWhile_eq_nil_iff.2 blank
  rw [read.eq_def]
  split
  · rw [taken]
  · next ahead => simp [dropped] at ahead

end Scan

/-! ## What lexemes look like -/

/-- The facts about a lexeme that hold of every text it was read from. -/
structure Lexeme.WellFormed (lexeme : Lexeme) : Prop where
  blanks : ∀ c ∈ lexeme.blanks, Text.isBlank c = true
  notEnd : lexeme.kind ≠ .endOfInput
  name : lexeme.kind = .identifier → Text.IsName (String.ofList lexeme.value)
  digits : lexeme.kind = .integer → ∀ c ∈ lexeme.value, Text.isDigit c = true
  marker : lexeme.kind = .sectionMarker → lexeme.source = ['-', '-', '-']

theorem signs_kind : ∀ sign ∈ signs, sign.1 ≠ .endOfInput ∧ sign.1 ≠ .identifier ∧
    sign.1 ≠ .integer ∧ (sign.1 = .sectionMarker → sign.2 = ['-', '-', '-']) := by
  decide

theorem Reading.wellFormed_of_read {first : Char} {rest : List Char} {kind : TokenKind}
    {value source tail blanks : List Char} (blank : ∀ c ∈ blanks, Text.isBlank c = true)
    (read_eq : read first rest = .lexeme kind value source tail) :
    Lexeme.WellFormed ⟨blanks, kind, value, source⟩ := by
  unfold read at read_eq
  split at read_eq
  · next found =>
      rcases signs_kind _ (sign?_spec found).1 with ⟨notEnd, notName, notInteger, marker⟩
      injection read_eq with kindEq _ sourceEq _
      subst kindEq sourceEq
      exact ⟨blank, notEnd, fun isName => absurd isName notName,
        fun isInteger => absurd isInteger notInteger, marker⟩
  · split at read_eq
    · unfold literal at read_eq
      simp only at read_eq
      split at read_eq
      · injection read_eq with kindEq _ _ _
        subst kindEq
        exact ⟨blank, by simp, by simp, by simp, by simp⟩
      · contradiction
    · split at read_eq
      · next digit =>
          injection read_eq with kindEq valueEq _ _
          subst kindEq valueEq
          refine ⟨blank, by simp, by simp, fun _ c member => ?_, by simp⟩
          rcases List.mem_cons.1 member with rfl | member
          · exact digit
          · exact List.mem_takeWhile_imp member
      · split at read_eq
        · next start =>
            injection read_eq with kindEq valueEq _ _
            subst kindEq valueEq
            exact ⟨blank, by simp, fun _ => ⟨first, rest.takeWhile Text.isNamePart, by simp, start,
              fun c member => List.mem_takeWhile_imp member⟩, by simp, by simp⟩
        · contradiction

theorem Scan.wellFormed_of_mem {text : List Char} :
    ∀ lexeme ∈ (read text).lexemes, lexeme.WellFormed := by
  fun_induction read text with
  | case1 => simp
  | case2 text blanks first rest ahead kind value source tail found shorter induction =>
      intro lexeme member
      rcases List.mem_cons.1 member with rfl | member
      · exact Reading.wellFormed_of_read (fun c inside => List.mem_takeWhile_imp inside) found
      · exact induction lexeme member
  | case3 => simp
  | case4 => simp

/-! ## Tokens -/

namespace Token

def unplaced (token : Token) : Token :=
  { token with place := .start }

@[simp] theorem kind_unplaced (token : Token) : token.unplaced.kind = token.kind := rfl

@[simp] theorem value_unplaced (token : Token) : token.unplaced.value = token.value := rfl

/-- The facts about a token that hold of every text it comes from. -/
structure WellFormed (token : Token) : Prop where
  notEnd : token.kind ≠ .endOfInput
  name : token.kind = .identifier → Text.IsName token.value
  digits : token.kind = .integer → ∀ c ∈ token.value.toList, Text.isDigit c = true

end Token

def Lexeme.token (lexeme : Lexeme) : Token :=
  ⟨lexeme.kind, String.ofList lexeme.value, .start⟩

/-- Only a line feed begins a line, and every other character takes a column. -/
theorem Position.after_eq {place : Position} {passed : List Char}
    (noFeed : ∀ c ∈ passed, c ≠ '\n') :
    place.after passed = ⟨place.line, place.column + passed.length⟩ := by
  induction passed generalizing place with
  | nil => rfl
  | cons c rest induction =>
      rw [after_cons, induction fun c member => noFeed c (List.mem_cons_of_mem _ member)]
      simp [next, noFeed c (by simp)]
      omega

theorem Position.line_after {place : Position} {passed : List Char}
    (noFeed : ∀ c ∈ passed, c ≠ '\n') : (place.after passed).line = place.line := by
  rw [after_eq noFeed]

namespace Scan

@[simp] theorem locate_nil (place : Position) : locate place [] = [] := rfl

theorem locate_cons (place : Position) (lexeme : Lexeme) (others : List Lexeme) :
    locate place (lexeme :: others) =
      ⟨lexeme.kind, String.ofList lexeme.value, place.after lexeme.blanks⟩ ::
        locate (place.after (lexeme.blanks ++ lexeme.source)) others := by
  rw [Position.after_append]
  rfl

theorem locate_append (place : Position) (first second : List Lexeme) :
    locate place (first ++ second) =
      locate place first ++ locate (place.after (Lexeme.textOf first)) second := by
  induction first generalizing place with
  | nil => rfl
  | cons lexeme others induction =>
      rw [List.cons_append, locate_cons, locate_cons, induction]
      simp

@[simp] theorem map_unplaced_locate (place : Position) (lexemes : List Lexeme) :
    (locate place lexemes).map Token.unplaced = lexemes.map Lexeme.token := by
  induction lexemes generalizing place with
  | nil => rfl
  | cons lexeme others induction =>
      rw [locate_cons, List.map_cons, induction]
      rfl

theorem exists_lexeme_of_mem_locate {place : Position} {lexemes : List Lexeme} {token : Token}
    (member : token ∈ locate place lexemes) :
    ∃ lexeme ∈ lexemes, token.kind = lexeme.kind ∧ token.value = String.ofList lexeme.value := by
  have unplaced := List.mem_map_of_mem (f := Token.unplaced) member
  rw [map_unplaced_locate] at unplaced
  rcases List.mem_map.1 unplaced with ⟨lexeme, inside, same⟩
  exact ⟨lexeme, inside, by rw [← Token.kind_unplaced, ← same]; rfl,
    by rw [← Token.value_unplaced, ← same]; rfl⟩

theorem marker_line_locate {place : Position} {lexemes : List Lexeme}
    (wellFormed : ∀ lexeme ∈ lexemes, lexeme.WellFormed) :
    (locate place lexemes).IsChain fun first second =>
      first.kind = .sectionMarker → second.place.line = first.place.line := by
  induction lexemes generalizing place with
  | nil => simp
  | cons lexeme others induction =>
      have wellFormedOthers := fun other member => wellFormed other (List.mem_cons_of_mem _ member)
      rw [locate_cons, List.isChain_cons]
      refine ⟨?_, induction wellFormedOthers⟩
      cases others with
      | nil => simp
      | cons next more =>
          intro second isNext isMarker
          rw [locate_cons, List.head?_cons, Option.mem_some_iff] at isNext
          have source := (wellFormed lexeme (by simp)).marker isMarker
          have blanks := (wellFormed next (by simp)).blanks
          subst isNext
          simp only [Position.after_append, source]
          rw [Position.line_after, Position.line_after]
          · simp
          · intro c member feed
            subst feed
            exact absurd (blanks _ member) (by decide)

end Scan

namespace Tokens

theorem wellFormed_of_ofText {text : String} {tokens : Tokens}
    (read : ofText text = .ok tokens) : ∀ token ∈ tokens.list, token.WellFormed := by
  unfold ofText at read
  simp only at read
  split at read
  · injection read with same
    subst same
    intro token member
    rcases Scan.exists_lexeme_of_mem_locate member with ⟨lexeme, inside, kindEq, valueEq⟩
    have wellFormed := Scan.wellFormed_of_mem lexeme inside
    refine ⟨kindEq ▸ wellFormed.notEnd, fun isName => ?_, fun isInteger => ?_⟩
    · exact valueEq ▸ wellFormed.name (kindEq ▸ isName)
    · rw [valueEq, String.toList_ofList]
      exact wellFormed.digits (kindEq ▸ isInteger)
  · contradiction

theorem marker_line_of_ofText {text : String} {tokens : Tokens}
    (read : ofText text = .ok tokens) : tokens.list.IsChain fun first second =>
      first.kind = .sectionMarker → second.place.line = first.place.line := by
  unfold ofText at read
  simp only at read
  split at read
  · injection read with same
    subst same
    exact Scan.marker_line_locate Scan.wellFormed_of_mem
  · contradiction

theorem ofText_of_row {text : String} {lexemes : List Lexeme} {blanks : List Char}
    (row : Lexeme.Row lexemes blanks) (blank : ∀ c ∈ blanks, Text.isBlank c = true)
    (spelled : text.toList = Lexeme.textOf lexemes ++ blanks) :
    ofText text = .ok ⟨Scan.locate .start lexemes,
      Position.start.after (Lexeme.textOf lexemes ++ blanks)⟩ := by
  have scan : Scan.read text.toList = ⟨lexemes, blanks, [], none⟩ := by
    rw [spelled, Scan.read_row row, Scan.read_blanks blank]
    simp [Scan.prepend]
  simp [ofText, scan, Scan.tokens, Scan.finish, Scan.lexemeText, Lexeme.textOf]

theorem ofText_row {text : String} {lexemes : List Lexeme} (row : Lexeme.Row lexemes [])
    (spelled : text.toList = Lexeme.textOf lexemes) :
    ofText text =
      .ok ⟨Scan.locate .start lexemes, Position.start.after (Lexeme.textOf lexemes)⟩ := by
  have noBlanks : text.toList = Lexeme.textOf lexemes ++ [] := by rw [spelled, List.append_nil]
  rw [ofText_of_row row (by simp) noBlanks, List.append_nil]

end Tokens

end EventScript
