import EventScript.Proofs.AlikeReports
import EventScript.Proofs.Continuations

/-! Texts with other line terminators. Carriage returns before the line feeds of a text change
neither its script nor its report: the grammar does not see them, they take no place on a line,
and an excerpt leaves them out. -/

namespace EventScript

open TokenStream

/-! ## Texts with carriage returns -/

namespace Text

/-- A text with a carriage return before each line feed. -/
def withReturns (text : List Char) : List Char :=
  text.flatMap fun c => if c = '\n' then ['\r', '\n'] else [c]

@[simp] theorem withReturns_nil : withReturns [] = [] := rfl

@[simp] theorem withReturns_feed (rest : List Char) :
    withReturns ('\n' :: rest) = '\r' :: '\n' :: withReturns rest := rfl

theorem withReturns_cons {c : Char} (noFeed : c ≠ '\n') (rest : List Char) :
    withReturns (c :: rest) = c :: withReturns rest := by
  simp [withReturns, noFeed]

@[simp] theorem withReturns_append (first second : List Char) :
    withReturns (first ++ second) = withReturns first ++ withReturns second :=
  List.flatMap_append

@[simp] theorem withReturns_eq_nil {text : List Char} : withReturns text = [] ↔ text = [] := by
  cases text with
  | nil => simp
  | cons c rest => by_cases feed : c = '\n' <;> simp [withReturns, feed]

theorem withReturns_eq_self {text : List Char} (noFeed : '\n' ∉ text) :
    withReturns text = text := by
  induction text with
  | nil => rfl
  | cons c rest induction =>
      simp only [List.mem_cons, not_or] at noFeed
      rw [withReturns_cons (Ne.symm noFeed.1), induction noFeed.2]

theorem withReturns_of_blank {blanks : List Char} (blank : ∀ c ∈ blanks, isBlank c = true) :
    withReturns blanks = blanks :=
  withReturns_eq_self fun feed => absurd (blank _ feed) (by decide)

theorem exists_separated_withReturns (text : List Char) :
    ∃ common behind, text = common ++ behind ∧ withReturns text = common ++ withReturns behind ∧
      Separated (withReturns behind) := by
  induction text with
  | nil => exact ⟨[], [], rfl, rfl, .nil⟩
  | cons c rest induction =>
      by_cases feed : c = '\n'
      · subst feed
        exact ⟨[], '\n' :: rest, rfl, rfl, .cons (by decide) _⟩
      · rcases induction with ⟨common, behind, whole, returned, separated⟩
        refine ⟨c :: common, behind, ?_, ?_, separated⟩
        · rw [whole, List.cons_append]
        · rw [withReturns_cons feed, returned, List.cons_append]

theorem isPrefix_of_withReturns {part text : List Char} (noReturn : '\r' ∉ part)
    (isPrefix : part <+: withReturns text) : part <+: text := by
  induction part generalizing text with
  | nil => exact List.nil_prefix
  | cons c part induction =>
      simp only [List.mem_cons, not_or] at noReturn
      cases text with
      | nil => simp at isPrefix
      | cons first rest =>
          by_cases feed : first = '\n'
          · subst feed
            rw [withReturns_feed, List.cons_prefix_cons] at isPrefix
            exact absurd isPrefix.1.symm noReturn.1
          · rw [withReturns_cons feed, List.cons_prefix_cons] at isPrefix
            exact List.cons_prefix_cons.2 ⟨isPrefix.1, induction noReturn.2 isPrefix.2⟩

theorem LiteralBody.read_feed (rest : List Char) :
    read ('\n' :: rest) = ⟨[], [], '\n' :: rest⟩ := by
  rw [read.eq_def]
  simp

/-- A carriage return behind a backslash or at the end of a line closes no literal, nor does the
line feed behind it. -/
theorem LiteralBody.closed_withReturns (text : List Char) :
    (read (withReturns text)).closed = (read text).closed := by
  fun_induction read text with
  | case1 => rfl
  | case2 c rest stops =>
      rcases stops with rfl | rfl
      · rw [withReturns_cons (by decide), read.eq_def]
        simp [closed]
      · rw [withReturns_feed]
        simp [read, read_feed, closed]
  | case3 => rfl
  | case4 rest =>
      rw [withReturns_cons (by decide), withReturns_feed]
      simp [read, read_feed, closed]
  | case5 escaped rest notFeed body plain induction =>
      rw [withReturns_cons (by decide), withReturns_cons notFeed, read.eq_def]
      simpa [closed, notFeed] using induction
  | case6 c rest plain notEscape body induction =>
      rw [withReturns_cons (fun feed => plain (.inr feed)), read.eq_def]
      simpa [closed, plain, notEscape] using induction

end Text

theorem Position.after_withReturns (place : Position) (text : List Char) :
    place.after (Text.withReturns text) = place.after text := by
  induction text generalizing place with
  | nil => rfl
  | cons c rest induction =>
      by_cases feed : c = '\n'
      · subst feed
        rw [Text.withReturns_feed, after_cons, after_cons, after_cons, induction]
        simp [next]
      · rw [Text.withReturns_cons feed, after_cons, after_cons, induction]

/-! ## Excerpts -/

namespace Text

theorem withoutReturn_cons {c : Char} (plain : c ≠ '\r') (piece : List Char) :
    withoutReturn (c :: piece) = c :: withoutReturn piece := by
  cases piece with
  | nil => simp [withoutReturn, plain]
  | cons next rest =>
      rw [withoutReturn, withoutReturn, List.getLast?_cons_cons, List.dropLast_cons_cons]
      split
      · rfl
      · rfl

theorem exists_pieces (separator : Char) (text : List Char) :
    ∃ first others, pieces separator text = first :: others := by
  induction text with
  | nil => exact ⟨[], [], rfl⟩
  | cons c rest induction =>
      rcases induction with ⟨first, others, same⟩
      by_cases separates : c = separator
      · exact ⟨[], pieces separator rest, by simp [pieces, separates]⟩
      · exact ⟨c :: first, others, by simp [pieces, separates, same]⟩

theorem map_withoutReturn_pieces {text : List Char} (noReturn : '\r' ∉ text) :
    (pieces '\n' (withReturns text)).map withoutReturn =
      (pieces '\n' text).map withoutReturn := by
  induction text with
  | nil => rfl
  | cons c rest induction =>
      simp only [List.mem_cons, not_or] at noReturn
      have lines := induction noReturn.2
      by_cases feed : c = '\n'
      · subst feed
        simp [pieces, lines, withoutReturn]
      · rcases exists_pieces '\n' (withReturns rest) with ⟨first, others, same⟩
        rcases exists_pieces '\n' rest with ⟨first', others', same'⟩
        rw [same, same', List.map_cons, List.map_cons, List.cons.injEq] at lines
        simp only [withReturns_cons feed, pieces, feed, if_false, same, same', List.map_cons]
        rw [withoutReturn_cons (Ne.symm noReturn.1), withoutReturn_cons (Ne.symm noReturn.1),
          lines.1, lines.2]

theorem sourceLines_withReturns {text : List Char} (noReturn : '\r' ∉ text) :
    sourceLines (withReturns text) = sourceLines text := by
  simp only [sourceLines, map_withoutReturn_pieces noReturn]

end Text

theorem Diagnostic.atPosition_withReturns (message : String) (file : Path) {text : String}
    (noReturn : '\r' ∉ text.toList) (place : Position) :
    atPosition message file (String.ofList (Text.withReturns text.toList)) place =
      atPosition message file text place := by
  have sameLines := Text.sourceLines_withReturns noReturn
  have sameEmpty : (String.ofList (Text.withReturns text.toList)).isEmpty = text.isEmpty := by
    rw [Bool.eq_iff_iff, String.isEmpty_iff, String.isEmpty_iff]
    simp
  simp only [atPosition, Text.excerpt, String.toList_ofList, sameLines, sameEmpty]

/-! ## Lexemes -/

namespace Reading

theorem of_unterminated {first : Char} {rest source tail : List Char}
    (found : read first rest = .unterminated source tail) :
    first = '"' ∧ (Text.LiteralBody.read rest).closed = false := by
  unfold read at found
  split at found
  · contradiction
  · split at found
    · next quote =>
        unfold literal at found
        simp only at found
        split at found
        · contradiction
        · next unclosed => exact ⟨quote, by simpa using unclosed⟩
    · split at found
      · contradiction
      · split at found
        · contradiction
        · contradiction

theorem unterminated_withReturns {first : Char} {rest source tail : List Char}
    (found : read first rest = .unterminated source tail) :
    ∃ source' tail', read first (Text.withReturns rest) = .unterminated source' tail' := by
  rcases of_unterminated found with ⟨rfl, unclosed⟩
  have noSign : sign? ('"' :: Text.withReturns rest) = none := sign?_eq_none _ (by decide)
  rw [← Text.LiteralBody.closed_withReturns] at unclosed
  simp [read, noSign, literal, unclosed]

theorem return_not_mem_sign : ∀ sign ∈ signs, '\r' ∈ sign.2 → sign.2.head? = some '\r' := by
  decide

theorem sign?_withReturns {first : Char} {rest : List Char} (noReturn : first ≠ '\r')
    (noSign : sign? (first :: rest) = none) : sign? (first :: Text.withReturns rest) = none := by
  rw [sign?, List.find?_eq_none] at noSign ⊢
  intro sign listed begins
  rw [List.isPrefixOf_iff_prefix] at begins
  refine noSign sign listed (List.isPrefixOf_iff_prefix.2 ?_)
  rcases List.exists_cons_of_ne_nil (signs_nonempty sign listed) with ⟨c, others, spelled⟩
  have plain : '\r' ∉ sign.2 := by
    intro member
    have head := return_not_mem_sign sign listed member
    rw [spelled, List.cons_prefix_cons] at begins
    rw [spelled, List.head?_cons, Option.some.injEq] at head
    exact noReturn (begins.1.symm.trans head)
  rw [spelled, List.cons_prefix_cons] at begins ⊢
  rw [spelled] at plain
  exact ⟨begins.1, Text.isPrefix_of_withReturns (fun member => plain (.tail c member)) begins.2⟩

theorem ne_feed_of_unexpected {first c : Char} {rest : List Char}
    (found : read first rest = .unexpected c) : first ≠ '\n' := by
  rintro rfl
  simp [read, sign?, signs] at found

theorem unexpected_withReturns {first c : Char} {rest : List Char} (noReturn : first ≠ '\r')
    (found : read first rest = .unexpected c) :
    read first (Text.withReturns rest) = .unexpected c := by
  unfold read at found
  split at found
  · contradiction
  · next noSign =>
      have noSign' := sign?_withReturns noReturn noSign
      split at found
      · unfold literal at found
        simp only at found
        split at found
        · contradiction
        · contradiction
      · next notQuote =>
          split at found
          · contradiction
          · next notDigit =>
              split at found
              · contradiction
              · next notStart => simpa [read, noSign', notQuote, notDigit, notStart] using found

end Reading

namespace Lexeme

def withReturns (lexeme : Lexeme) : Lexeme :=
  { lexeme with
    value := if lexeme.kind = .newline then Text.withReturns lexeme.value else lexeme.value
    source := Text.withReturns lexeme.source }

theorem StandsBefore.withReturns {lexeme : Lexeme} {tail : List Char}
    (stands : lexeme.StandsBefore tail) (noReturn : '\r' ∉ lexeme.source) :
    lexeme.withReturns.StandsBefore (Text.withReturns tail) := by
  by_cases isEnd : lexeme.kind = .newline
  · rcases stands.eq_lineBreak isEnd with ⟨lineBreak, isBreak, same⟩
    rw [same] at noReturn ⊢
    simp only [lineBreaks, List.mem_cons, List.not_mem_nil, or_false] at isBreak
    rcases isBreak with rfl | rfl
    · have isBreak : ['\r', '\n'] ∈ lineBreaks := by decide
      exact standsBefore_lineBreak stands.blanks isBreak _
    · exact absurd noReturn (by simp)
  · have same : lexeme.withReturns = lexeme := by
      rw [Lexeme.withReturns, if_neg isEnd, Text.withReturns_eq_self (stands.feed_not_mem isEnd)]
    rcases Text.exists_separated_withReturns tail with ⟨common, behind, rfl, returned, separated⟩
    rw [same, returned]
    exact stands.of_separated separated

end Lexeme

namespace Scan

theorem read_withReturns_of_standsBefore {lexeme : Lexeme} {tail : List Char}
    (stands : lexeme.StandsBefore tail) (noReturn : '\r' ∉ lexeme.source) :
    read (Text.withReturns (lexeme.blanks ++ (lexeme.source ++ tail))) =
      (read (Text.withReturns tail)).cons lexeme.withReturns := by
  rw [Text.withReturns_append, Text.withReturns_append, Text.withReturns_of_blank stands.blanks]
  exact read_of_standsBefore (stands.withReturns noReturn)

theorem read_withReturns_of_blanks {blanks rest : List Char} {first : Char}
    (blank : ∀ c ∈ blanks, Text.isBlank c = true) (notBlank : Text.isBlank first = false)
    (noFeed : first ≠ '\n') :
    read (Text.withReturns (blanks ++ first :: rest)) =
      match Reading.read first (Text.withReturns rest) with
      | .lexeme kind value source tail => (read tail).cons ⟨blanks, kind, value, source⟩
      | .unterminated source _ => ⟨[], blanks, source, some .unterminated⟩
      | .unexpected c => ⟨[], blanks, [], some (.unexpected c)⟩ := by
  rw [Text.withReturns_append, Text.withReturns_of_blank blank, Text.withReturns_cons noFeed]
  exact read_of_blanks blank notBlank

theorem read_withReturns {text : List Char} (noReturn : '\r' ∉ text) :
    (read (Text.withReturns text)).lexemes = (read text).lexemes.map Lexeme.withReturns ∧
      (read (Text.withReturns text)).blanks = (read text).blanks ∧
      (read (Text.withReturns text)).fault = (read text).fault := by
  have returned {text whole : List Char} (same : text = whole) :
      read (Text.withReturns text) = read (Text.withReturns whole) := by rw [same]
  fun_induction read text with
  | case1 text blanks ahead =>
      have blank := List.dropWhile_eq_nil_iff.1 ahead
      rw [Text.withReturns_of_blank blank, read_blanks blank]
      exact ⟨rfl, (List.takeWhile_eq_self_iff.2 blank).symm, rfl⟩
  | case2 text blanks first rest ahead kind value source tail found shorter induction =>
      have stands := standsBefore_of_ahead ahead found
      have whole := text_of_ahead ahead
      rw [← Reading.source_append_rest found] at whole
      rw [whole, List.mem_append, List.mem_append, not_or, not_or] at noReturn
      rcases induction noReturn.2.2 with ⟨lexemes, sameBlanks, fault⟩
      rw [(returned whole).trans (read_withReturns_of_standsBefore stands noReturn.2.1)]
      exact ⟨congrArg (_ :: ·) lexemes, sameBlanks, fault⟩
  | case3 text blanks first rest ahead source tail found =>
      have blank : ∀ c ∈ blanks, Text.isBlank c = true :=
        fun c member => List.mem_takeWhile_imp member
      have noFeed : first ≠ '\n' := by
        rw [(Reading.of_unterminated found).1]
        decide
      rcases Reading.unterminated_withReturns found with ⟨source', tail', found'⟩
      rw [(returned (text_of_ahead ahead)).trans
        (read_withReturns_of_blanks blank (notBlank_of_ahead ahead) noFeed), found']
      exact ⟨rfl, rfl, rfl⟩
  | case4 text blanks first rest ahead c found =>
      have blank : ∀ c ∈ blanks, Text.isBlank c = true :=
        fun c member => List.mem_takeWhile_imp member
      have notReturn : first ≠ '\r' := by
        intro isReturn
        rw [text_of_ahead ahead, isReturn] at noReturn
        exact noReturn (by simp)
      have noFeed := Reading.ne_feed_of_unexpected found
      rw [(returned (text_of_ahead ahead)).trans
        (read_withReturns_of_blanks blank (notBlank_of_ahead ahead) noFeed),
        Reading.unexpected_withReturns notReturn found]
      exact ⟨rfl, rfl, rfl⟩

end Scan

/-! ## Tokens -/

namespace Token

def withReturns (token : Token) : Token :=
  { token with
    value :=
      if token.kind = .newline then String.ofList (Text.withReturns token.value.toList)
      else token.value }

@[simp] theorem kind_withReturns (token : Token) : token.withReturns.kind = token.kind := rfl

@[simp] theorem place_withReturns (token : Token) : token.withReturns.place = token.place := rfl

theorem withReturns_eq_self {token : Token} (notBreak : token.kind ≠ .newline) :
    token.withReturns = token := by
  rw [withReturns, if_neg notBreak]

@[simp] theorem essence_withReturns (token : Token) :
    token.withReturns.essence = token.essence := by
  by_cases isBreak : token.kind = .newline
  · simp [essence, isBreak]
  · rw [withReturns_eq_self isBreak]

end Token

theorem glyphs_map_withReturns (previous : Option Token) (tokens : List Token) :
    glyphs (previous.map Token.withReturns) (tokens.map Token.withReturns) =
      glyphs previous tokens := by
  induction tokens generalizing previous with
  | nil => rfl
  | cons token tokens induction =>
      have others := induction (some token)
      rw [Option.map_some] at others
      rw [List.map_cons, glyphs, glyphs, others, Token.essence_withReturns, Option.any_map]
      rfl

namespace Scan

theorem locate_withReturns (place : Position) (lexemes : List Lexeme) :
    locate place (lexemes.map Lexeme.withReturns) =
      (locate place lexemes).map Token.withReturns := by
  induction lexemes generalizing place with
  | nil => rfl
  | cons lexeme others induction =>
      rw [List.map_cons, locate_cons, locate_cons, List.map_cons, Position.after_append,
        Position.after_append, Lexeme.withReturns, Position.after_withReturns, ← induction]
      simp [Token.withReturns, apply_ite String.ofList]

theorem after_textOf_withReturns (place : Position) (lexemes : List Lexeme) :
    place.after (Lexeme.textOf (lexemes.map Lexeme.withReturns)) =
      place.after (Lexeme.textOf lexemes) := by
  induction lexemes generalizing place with
  | nil => rfl
  | cons lexeme others induction =>
      rw [List.map_cons, Lexeme.textOf_cons, Lexeme.textOf_cons, Lexeme.withReturns]
      simp only [Position.after_append, Position.after_withReturns, induction]

end Scan

namespace Tokens

def withReturns (tokens : Tokens) : Tokens :=
  { tokens with list := tokens.list.map Token.withReturns }

@[simp] theorem toList_withReturns (tokens : Tokens) :
    tokens.withReturns.toList = tokens.toList.map Token.withReturns := by
  simp [toList, withReturns, Token.withReturns, Token.atEnd]

theorem ofText_withReturns {text : String} (noReturn : '\r' ∉ text.toList) :
    ofText (String.ofList (Text.withReturns text.toList)) = (ofText text).map withReturns := by
  rcases Scan.read_withReturns noReturn with ⟨lexemes, blanks, fault⟩
  have tokens : (Scan.read (Text.withReturns text.toList)).tokens .start =
      ((Scan.read text.toList).tokens .start).map Token.withReturns := by
    rw [Scan.tokens, lexemes, Scan.locate_withReturns, Scan.tokens]
  have finish : (Scan.read (Text.withReturns text.toList)).finish .start =
      (Scan.read text.toList).finish .start := by
    have sameText := Scan.after_textOf_withReturns .start (Scan.read text.toList).lexemes
    rw [← lexemes] at sameText
    rw [Scan.finish, Scan.finish, Position.after_append, Position.after_append, blanks]
    exact congrArg (Position.after · _) sameText
  simp only [ofText, String.toList_ofList, fault, tokens, finish]
  cases (Scan.read text.toList).fault with
  | none => rfl
  | some fault => rfl

end Tokens

/-! ## Reports -/

namespace Fault

theorem message_eq_of_description {fault other : Fault}
    (complaint : other.complaint = fault.complaint)
    (description : other.token.description = fault.token.description)
    (unquoted : fault.complaint.quotes = false) : other.message = fault.message := by
  simp only [message, complaint, description]
  split <;> simp_all [Complaint.quotes]

/-- A message shows a line terminator as the end of the line, whichever one it is, and quotes only
names. -/
theorem message_withReturns {fault other : Fault} (complaint : other.complaint = fault.complaint)
    (token : other.token = fault.token.withReturns)
    (quoted : fault.complaint.quotes = true → fault.token.kind = .identifier) :
    other.message = fault.message := by
  by_cases isBreak : fault.token.kind = .newline
  · have description : other.token.description = fault.token.description := by
      simp [Token.description, token, isBreak]
    refine message_eq_of_description complaint description ?_
    rw [Bool.eq_false_iff]
    intro quotes
    have isName := quoted quotes
    rw [isBreak] at isName
    contradiction
  · rw [Token.withReturns_eq_self isBreak] at token
    rw [message, message, complaint, token]

end Fault

theorem Fault.diagnostic_withReturns {fault other : Fault} (file : Path) {text : String}
    (noReturn : '\r' ∉ text.toList) (complaint : other.complaint = fault.complaint)
    (token : other.token = fault.token.withReturns)
    (quoted : fault.complaint.quotes = true → fault.token.kind = .identifier) :
    other.diagnostic file (String.ofList (Text.withReturns text.toList)) =
      fault.diagnostic file text := by
  rw [diagnostic, diagnostic, message_withReturns complaint token quoted, token,
    Token.place_withReturns, Diagnostic.atPosition_withReturns _ file noReturn]

theorem parseSections_withReturns (file : Path) {text : String} (noReturn : '\r' ∉ text.toList) :
    parseSections file (String.ofList (Text.withReturns text.toList)) =
      parseSections file text := by
  rw [parseSections, parseSections, Tokens.ofText_withReturns noReturn]
  cases Tokens.ofText text with
  | error error => exact congrArg Except.error (Diagnostic.atPosition_withReturns _ _ noReturn _)
  | ok tokens =>
      have alike : glyphs none tokens.withReturns.toList = glyphs none tokens.toList := by
        rw [Tokens.toList_withReturns]
        exact glyphs_map_withReturns none tokens.toList
      simp only [Except.map]
      rcases reading : (Parser.start tokens).readSections with ⟨reply, parser⟩
      rcases reading' : (Parser.start tokens.withReturns).readSections with ⟨reply', parser'⟩
      cases reply with
      | ok sections =>
          have same := Parser.readSections_ok_of_alike alike (congrArg Prod.fst reading)
          rw [reading'] at same
          subst same
          rfl
      | error fault =>
          rcases Parser.readSections_error_of_alike alike (congrArg Prod.fst reading) with
            ⟨fault', index, same, complaint, token, token', quoted⟩
          rw [reading'] at same
          subst same
          rw [Tokens.toList_withReturns, List.getElem?_map, token, Option.map_some,
            Option.some.injEq] at token'
          exact congrArg Except.error
            (Fault.diagnostic_withReturns file noReturn complaint token'.symm quoted)

/-- Whether its lines end with line feeds or with carriage returns before them, a text has the same
script, or it is refused with the same message at the same place, shown by the same excerpt. -/
theorem compile_withReturns (file : Path) {text : String} (noReturn : '\r' ∉ text.toList) :
    compile file (String.ofList (Text.withReturns text.toList)) = compile file text := by
  rw [compile, compile, parseSections_withReturns file noReturn]

/-- The literal breaks off behind a backslash, which takes the carriage return with it. -/
theorem compile_withReturns_broken_literal :
    '\r' ∉ "--- a\njump(\"b\\\n".toList ∧
      compile unnamedFile "--- a\r\njump(\"b\\\r\n" =
        compile unnamedFile "--- a\njump(\"b\\\n" := by
  have noReturn : '\r' ∉ "--- a\njump(\"b\\\n".toList := by decide
  have returned : String.ofList (Text.withReturns "--- a\njump(\"b\\\n".toList) =
      "--- a\r\njump(\"b\\\r\n" := by decide
  rw [← returned]
  exact ⟨noReturn, compile_withReturns unnamedFile noReturn⟩

end EventScript
