import EventScript.Proofs.InstructionText
import EventScript.Proofs.ScriptGrammar
import EventScript.Proofs.SectionDefinitions

/-! Rendered scripts. A rendered script compiles to itself exactly if all of its expressions
read back as themselves; nothing else that stands in a script gets lost. -/

namespace EventScript

open TokenStream

/-! ## Lexemes of scripts -/

namespace Script

def expressions (script : Script) : List Expr :=
  script.sections.flatMap fun entry => entry.2.flatMap Instruction.expressions

def headerLexemes (name : String) : List Lexeme :=
  [.sign .sectionMarker [], .name name [' '], .plain .newline "\n" []]

def sectionLexemes (entry : String × List Instruction) : List Lexeme :=
  headerLexemes entry.1 ++ entry.2.flatMap Instruction.lexemes

/-- The lexemes of a rendered script. A script without sections is an empty line. -/
def lexemes (script : Script) : List Lexeme :=
  (if script.sections = [] then [.plain .newline "\n" []] else []) ++
    script.sections.flatMap sectionLexemes

theorem textOf_flatMap {α : Type} (items : List α) (lexemes : α → List Lexeme) :
    Lexeme.textOf (items.flatMap lexemes) =
      items.flatMap fun item => Lexeme.textOf (lexemes item) := by
  induction items with
  | nil => rfl
  | cons first others induction => simp [induction]

theorem toList_lines {lines : List String} (nonempty : lines ≠ []) :
    ("\n".intercalate lines ++ "\n").toList = lines.flatMap fun line => line.toList ++ ['\n'] := by
  cases lines with
  | nil => contradiction
  | cons first others =>
      rw [String.toList_append, String.toList_intercalate, List.map_cons, intercalate_cons]
      clear nonempty
      induction others generalizing first with
      | nil => simp
      | cons second others induction =>
          have rest := induction second
          simp only [List.append_assoc, List.flatMap_cons, List.map_cons] at rest ⊢
          rw [rest]
          simp

theorem textOf_headerLexemes (name : String) :
    Lexeme.textOf (headerLexemes name) = ("--- " ++ name ++ "\n").toList := by
  simp [headerLexemes, Lexeme.sign, Lexeme.name, Lexeme.plain, TokenKind.text]

theorem textOf_sectionLexemes (entry : String × List Instruction) :
    Lexeme.textOf (sectionLexemes entry) =
      (sectionLines entry).flatMap fun line => line.toList ++ ['\n'] := by
  rw [sectionLexemes, Lexeme.textOf_append, textOf_flatMap, sectionLines, List.flatMap_cons,
    List.flatMap_map, textOf_headerLexemes]
  simp only [Instruction.textOf_lexemes]
  simp

theorem textOf_lexemes (script : Script) :
    Lexeme.textOf script.lexemes = (script.render ++ "\n").toList := by
  cases sections : script.sections with
  | nil => simp [lexemes, render, sections, Lexeme.plain]
  | cons first others =>
      have nonempty : script.sections.flatMap sectionLines ≠ [] := by
        simp [sections, sectionLines]
      rw [render, toList_lines nonempty, lexemes, if_neg (by simp [sections]), List.nil_append,
        textOf_flatMap, List.flatMap_assoc]
      simp only [textOf_sectionLexemes]

/-! ## Scripts that can be written -/

def WellFormed (script : Script) : Prop :=
  ∀ entry ∈ script.sections, Text.IsName entry.1 ∧
    ∀ instruction ∈ entry.2, instruction.WellFormed

theorem row_flatMap {α : Type} {items : List α} {lexemes : α → List Lexeme}
    (rows : ∀ item ∈ items, ∀ tail, Lexeme.Row (lexemes item) tail) (tail : List Char) :
    Lexeme.Row (items.flatMap lexemes) tail := by
  induction items with
  | nil => trivial
  | cons first others induction =>
      rw [List.flatMap_cons]
      exact Lexeme.row_append.2 ⟨rows first (by simp) _,
        induction fun item member => rows item (by simp [member])⟩

theorem row_headerLexemes {name : String} (isName : Text.IsName name) (tail : List Char) :
    Lexeme.Row (headerLexemes name) tail := by
  exact ⟨Lexeme.standsBefore_closed (by simp) rfl,
    Lexeme.standsBefore_name Text.isBlank_of_mem_space isName (.cons (by decide) _),
    Lexeme.standsBefore_lineEnd (by simp), trivial⟩

theorem row_lexemes {script : Script} (wellFormed : script.WellFormed) :
    Lexeme.Row script.lexemes [] := by
  refine Lexeme.row_append.2 ⟨?_, row_flatMap (fun entry member tail => ?_) []⟩
  · split
    · exact ⟨Lexeme.standsBefore_lineEnd (by simp), trivial⟩
    · trivial
  · have parts := wellFormed entry member
    refine Lexeme.row_append.2 ⟨row_headerLexemes parts.1 _, row_flatMap ?_ tail⟩
    exact fun instruction inside tail => Instruction.row_lexemes (parts.2 instruction inside) tail

theorem locate_headerLexemes (place : Position) (title : String) :
    ∃ marker name lineEnd, Scan.locate place (headerLexemes title) = [marker, name, lineEnd] ∧
      marker.kind = .sectionMarker ∧ name.kind = .identifier ∧ name.value = title ∧
      marker.place.column + 3 < name.place.column ∧ lineEnd.kind = .newline := by
  refine ⟨_, _, _, rfl, rfl, rfl, ?_, ?_, rfl⟩
  · simp [Lexeme.name, Lexeme.plain]
  · simp [Lexeme.sign, Lexeme.name, Lexeme.plain, TokenKind.text, Position.after_cons,
      Position.next]

/-! ## Scripts stand where they are rendered -/

def toSection (entry : String × List Instruction) : Section :=
  ⟨entry.1, entry.2⟩

theorem lines_of_locate {instructions : List Instruction}
    (derived : ∀ instruction ∈ instructions, ∀ value ∈ instruction.expressions,
      Expr.Derives .disjunction value.tokens value)
    {place : Position} {before after : TokenStream}
    (passed : before.Passed (Scan.locate place (instructions.flatMap Instruction.lexemes)) after) :
    Instruction.Lines instructions before after := by
  induction instructions generalizing place before with
  | nil =>
      rw [(Passed.nothing before).eq passed]
      exact .nil
  | cons first others induction =>
      rw [List.flatMap_cons, Scan.locate_append] at passed
      rcases passed.split with ⟨middle, firstPassed, othersPassed⟩
      have spans := Instruction.spans_of_lexemes (derived first (by simp)) firstPassed
      refine .cons spans breaks_nil (.nothing middle) (induction ?_ othersPassed)
      exact fun instruction member => derived instruction (by simp [member])

theorem spans_of_locate {entry : String × List Instruction}
    (derived : ∀ instruction ∈ entry.2, ∀ value ∈ instruction.expressions,
      Expr.Derives .disjunction value.tokens value)
    {place : Position} {before after : TokenStream}
    (passed : before.Passed (Scan.locate place (sectionLexemes entry)) after) :
    (toSection entry).Spans before after := by
  rw [sectionLexemes, Scan.locate_append] at passed
  rcases passed.split with ⟨inside, headerPassed, linesPassed⟩
  rcases locate_headerLexemes place entry.1 with
    ⟨marker, name, lineEnd, located, isMarker, isName, title, apart, isEnd⟩
  rw [located] at headerPassed
  have lines := lines_of_locate derived linesPassed
  have spans := Section.Spans.intro isMarker isName apart isEnd breaks_nil headerPassed lines
  rw [title] at spans
  exact spans

theorem spanAll_of_locate {entries : List (String × List Instruction)}
    (derived : ∀ entry ∈ entries, ∀ instruction ∈ entry.2, ∀ value ∈ instruction.expressions,
      Expr.Derives .disjunction value.tokens value)
    {place : Position} {before after : TokenStream}
    (passed : before.Passed (Scan.locate place (entries.flatMap sectionLexemes)) after) :
    Section.SpanAll (entries.map toSection) before after := by
  induction entries generalizing place before with
  | nil =>
      rw [(Passed.nothing before).eq passed]
      exact .nil
  | cons first others induction =>
      rw [List.flatMap_cons, Scan.locate_append] at passed
      rcases passed.split with ⟨middle, firstPassed, othersPassed⟩
      have spans := spans_of_locate (derived first (by simp)) firstPassed
      refine .cons spans (induction ?_ othersPassed)
      exact fun entry member => derived entry (by simp [member])

def renderedTokens (script : Script) : Tokens :=
  ⟨Scan.locate .start script.lexemes, Position.start.after (Lexeme.textOf script.lexemes)⟩

theorem ofText_render {script : Script} (wellFormed : script.WellFormed) :
    Tokens.ofText (script.render ++ "\n") = .ok script.renderedTokens :=
  Tokens.ofText_row (row_lexemes wellFormed) script.textOf_lexemes.symm

theorem exists_leading (script : Script) :
    ∃ run place, Breaks run ∧ script.renderedTokens.list =
      run ++ Scan.locate place (script.sections.flatMap sectionLexemes) := by
  refine ⟨_, _, ?_, Scan.locate_append _ _ _⟩
  intro token member
  rcases Scan.exists_lexeme_of_mem_locate member with ⟨lexeme, inside, kind, _⟩
  split at inside
  · rw [List.mem_singleton.1 inside] at kind
    exact kind
  · contradiction

theorem spell_of_derived {script : Script}
    (derived : ∀ value ∈ script.expressions, Expr.Derives .disjunction value.tokens value) :
    script.renderedTokens.Spell (script.sections.map toSection) := by
  rcases exists_leading script with ⟨run, place, breaks, list⟩
  have passed : script.renderedTokens.stream.Passed
      (run ++ Scan.locate place (script.sections.flatMap sectionLexemes))
      ⟨script.renderedTokens.list.length, [], script.renderedTokens.finish⟩ := by
    rw [← list]
    exact .whole _
  rcases passed.split with ⟨first, runPassed, sectionsPassed⟩
  refine ⟨run, first, _, breaks, runPassed, spanAll_of_locate ?_ sectionsPassed, rfl⟩
  intro entry member instruction inside value isValue
  exact derived value (List.mem_flatMap.2
    ⟨entry, member, List.mem_flatMap.2 ⟨instruction, inside, isValue⟩⟩)

end Script

/-! ## What rendered scripts are read as -/

/-- One instruction is rendered as tokens from which the other one is derived. -/
def Instruction.ReadsAs (instruction other : Instruction) : Prop :=
  ∃ tokens, (∀ token ∈ tokens, token.kind ≠ .newline) ∧
    Piece.SpelledAll Piece.rendering instruction.pieces tokens ∧
    Piece.SpelledAll Expr.Spells other.pieces tokens

namespace Script

theorem readsAs_of_spans {instruction other : Instruction} (wellFormed : instruction.WellFormed)
    {place : Position} {before after : TokenStream} {rest : List Token}
    (ahead : before.ahead = Scan.locate place instruction.lexemes ++ rest)
    (spans : other.Spans before after) : instruction.ReadsAs other ∧ after.ahead = rest := by
  rcases Instruction.locate_lexemes place instruction with
    ⟨word, pieces, lineEnd, located, _, _, rendered, unbroken⟩
  rcases spans with ⟨word', lineEnd', opened, closed, _, wordPassed, spans, _, endPassed⟩
  rcases spans.spelled with ⟨tokens, piecesPassed, derived⟩
  rw [located, wordPassed.ahead, piecesPassed.ahead, endPassed.ahead] at ahead
  simp only [List.cons_append, List.nil_append, List.append_assoc, List.cons.injEq] at ahead
  have same : tokens = pieces :=
    eq_of_spelledAll (fun _ _ => balanced_of_spells) (fun _ _ => Piece.balanced_of_rendering)
      derived rendered ahead.2
  subst same
  have behind := List.append_cancel_left ahead.2
  injection behind with _ sameRest
  exact ⟨⟨tokens, unbroken wellFormed, rendered, derived⟩, sameRest⟩

theorem head_lines (place : Position) (instructions : List Instruction) (rest : List Token) :
    ∀ token ∈ (Scan.locate place (instructions.flatMap Instruction.lexemes) ++ rest).head?,
      token.kind = .identifier ∨ token ∈ rest.head? := by
  cases instructions with
  | nil => exact fun token member => .inr member
  | cons first others =>
      intro token member
      rw [List.flatMap_cons, Instruction.lexemes, List.cons_append, Scan.locate_cons] at member
      rw [List.cons_append, List.head?_cons, Option.mem_some_iff] at member
      exact .inl (member ▸ rfl)

theorem readsAs_of_lines {instructions others : List Instruction}
    (wellFormed : ∀ instruction ∈ instructions, instruction.WellFormed) {rest : List Token}
    (restMarked : ∀ token ∈ rest.head?, token.kind = .sectionMarker) {place : Position}
    {before after : TokenStream}
    (ahead : before.ahead =
      Scan.locate place (instructions.flatMap Instruction.lexemes) ++ rest)
    (lines : Instruction.Lines others before after) (stops : after.current.kind ≠ .identifier) :
    List.Forall₂ Instruction.ReadsAs instructions others ∧ after.ahead = rest := by
  induction instructions generalizing others place before with
  | nil =>
      cases lines with
      | nil => exact ⟨.nil, ahead⟩
      | cons spans =>
          have isName := (kind_of_isWord spans.isWord).1
          have notName : before.current.kind ≠ .identifier := by
            apply current_kind_ne (by decide)
            intro token member
            rw [ahead] at member
            rw [restMarked token member]
            decide
          exact absurd isName notName
  | cons first more induction =>
      rw [List.flatMap_cons, Scan.locate_append, List.append_assoc] at ahead
      cases lines with
      | nil =>
          have isName : after.current.kind = .identifier := by
            rw [Instruction.lexemes, Scan.locate_cons, List.cons_append] at ahead
            rw [current_eq ahead]
            rfl
          exact absurd isName stops
      | @cons _ _ run _ behind next _ spans breaks passed lines =>
          rcases readsAs_of_spans (wellFormed first (by simp)) ahead spans with
            ⟨readsAs, behindAhead⟩
          have unbroken : behind.current.kind ≠ .newline := by
            apply current_kind_ne (by decide)
            intro token member
            rw [behindAhead] at member
            rcases head_lines _ more rest token member with isName | marked
            · simp [isName]
            · simp [restMarked token marked]
          have same := eq_of_breaks breaks passed unbroken
          subst same
          rcases induction (fun other member => wellFormed other (by simp [member])) behindAhead
            lines with ⟨others, restAhead⟩
          exact ⟨.cons readsAs others, restAhead⟩

theorem head_sections (place : Position) (entries : List (String × List Instruction)) :
    ∀ token ∈ (Scan.locate place (entries.flatMap sectionLexemes)).head?,
      token.kind = .sectionMarker := by
  cases entries with
  | nil => simp
  | cons first others =>
      intro token member
      rw [List.flatMap_cons, sectionLexemes, headerLexemes, List.cons_append, List.cons_append,
        List.cons_append, Scan.locate_cons] at member
      rw [List.head?_cons, Option.mem_some_iff] at member
      exact member ▸ rfl

theorem readsAs_of_section {entry : String × List Instruction} {found : Section}
    (wellFormed : ∀ instruction ∈ entry.2, instruction.WellFormed) {rest : List Token}
    (restMarked : ∀ token ∈ rest.head?, token.kind = .sectionMarker) {place : Position}
    {before after : TokenStream}
    (ahead : before.ahead = Scan.locate place (sectionLexemes entry) ++ rest)
    (spans : found.Spans before after) (stops : after.current.kind ≠ .identifier) :
    entry.1 = found.name ∧ List.Forall₂ Instruction.ReadsAs entry.2 found.instructions ∧
      after.ahead = rest := by
  rcases locate_headerLexemes place entry.1 with ⟨marker, name, lineEnd, located, _, _, title, _, _⟩
  rw [sectionLexemes, Scan.locate_append, located, List.append_assoc] at ahead
  cases spans with
  | intro _ _ _ _ breaks passed lines =>
      rcases passed.split with ⟨behind, headerPassed, runPassed⟩
      rw [headerPassed.ahead] at ahead
      simp only [List.cons_append, List.nil_append, List.cons.injEq] at ahead
      rcases ahead with ⟨_, rfl, _, behindAhead⟩
      have unbroken : behind.current.kind ≠ .newline := by
        apply current_kind_ne (by decide)
        intro token member
        rw [behindAhead] at member
        rcases head_lines _ entry.2 rest token member with isName | marked
        · simp [isName]
        · simp [restMarked token marked]
      have same := eq_of_breaks breaks runPassed unbroken
      subst same
      exact ⟨title.symm, readsAs_of_lines wellFormed restMarked behindAhead lines stops⟩

theorem readsAs_of_spanAll {entries : List (String × List Instruction)}
    {sections : List Section}
    (wellFormed : ∀ entry ∈ entries, ∀ instruction ∈ entry.2, instruction.WellFormed)
    {place : Position} {before last : TokenStream}
    (ahead : before.ahead = Scan.locate place (entries.flatMap sectionLexemes))
    (spans : Section.SpanAll sections before last) (whole : last.ahead = []) :
    List.Forall₂ (fun entry found => entry.1 = found.name ∧
      List.Forall₂ Instruction.ReadsAs entry.2 found.instructions) entries sections := by
  induction entries generalizing sections place before with
  | nil =>
      cases spans with
      | nil => exact .nil
      | cons spans =>
          have marked := spans.current_kind
          simp [current, show before.ahead = [] from ahead, Token.atEnd] at marked
  | cons first others induction =>
      rw [List.flatMap_cons, Scan.locate_append] at ahead
      cases spans with
      | nil =>
          rw [whole, sectionLexemes, headerLexemes, List.cons_append, Scan.locate_cons] at ahead
          contradiction
      | @cons found more _ between _ spans rest =>
          have stops : between.current.kind ≠ .identifier := by
            cases rest with
            | nil => simp [current, whole, Token.atEnd]
            | cons next _ => simp [next.current_kind]
          rcases readsAs_of_section (wellFormed first (by simp)) (head_sections _ others) ahead
            spans stops with ⟨title, readsAs, behindAhead⟩
          exact .cons ⟨title, readsAs⟩
            (induction (fun entry member => wellFormed entry (by simp [member])) behindAhead rest)

theorem names_of_forall₂ {entries : List (String × List Instruction)} {sections : List Section}
    (aligned : List.Forall₂ (fun entry found => entry.1 = found.name ∧
      List.Forall₂ Instruction.ReadsAs entry.2 found.instructions) entries sections) :
    sections.map Section.name = entries.map Prod.fst := by
  induction aligned with
  | nil => rfl
  | cons first _ induction => rw [List.map_cons, List.map_cons, induction, first.1]

theorem derived_of_spell {script : Script} (wellFormed : script.WellFormed)
    (nodup : script.names.Nodup) {sections : List Section}
    (spell : script.renderedTokens.Spell sections) (same : ofSections sections = script) :
    ∀ value ∈ script.expressions, Expr.Derives .disjunction value.tokens value := by
  rcases exists_leading script with ⟨run, place, breaks, list⟩
  rcases spell with ⟨run', first, last, breaks', passed, spans, whole⟩
  have skipped : first.ahead =
      Scan.locate place (script.sections.flatMap sectionLexemes) := by
    have rendered : script.renderedTokens.stream.Passed run ⟨run.length,
        Scan.locate place (script.sections.flatMap sectionLexemes),
        script.renderedTokens.finish⟩ :=
      ⟨list, by simp [Tokens.stream, Tokens.streamAt], rfl⟩
    have stops : first.current.kind ≠ .newline := by
      cases spans with
      | nil => simp [current, whole, Token.atEnd]
      | cons spans => simp [spans.current_kind]
    have renderedStops : (⟨run.length, Scan.locate place (script.sections.flatMap sectionLexemes),
        script.renderedTokens.finish⟩ : TokenStream).current.kind ≠ .newline := by
      apply current_kind_ne (by decide)
      intro token member
      simp [head_sections place script.sections token member]
    rw [← skipNewlines_eq breaks' passed stops, skipNewlines_eq breaks rendered renderedStops]
  have aligned := readsAs_of_spanAll (fun entry member => (wellFormed entry member).2) skipped
    spans whole
  have names := names_of_forall₂ aligned
  have sectionsEq : sections = script.sections.map toSection := by
    have nodupSections : (sections.map Section.name).Nodup := by
      rw [names]
      exact nodup
    have built := ofSections_of_nodup nodupSections
    rw [same] at built
    rw [built, List.map_map]
    exact (List.map_id sections).symm
  rw [sectionsEq, List.forall₂_map_right_iff, List.forall₂_same] at aligned
  intro value member
  rcases List.mem_flatMap.1 member with ⟨entry, entryMember, inside⟩
  rcases List.mem_flatMap.1 inside with ⟨instruction, instructionMember, isValue⟩
  have readsItself :=
    List.forall₂_same.1 (aligned entry entryMember).2 instruction instructionMember
  rcases readsItself with ⟨tokens, unbroken, rendered, derived⟩
  exact Instruction.derives_of_spelledAll unbroken rendered derived value isValue

end Script

/-! ## Compiled scripts -/

theorem compile_eq_ok {file : Path} {text : String} {compilation : Compilation} :
    compile file text = .ok compilation ↔
      ∃ tokens sections, Tokens.ofText text = .ok tokens ∧
        (Parser.start tokens).readSections.1 = .ok sections ∧
        assemble file sections = compilation := by
  rw [compile]
  constructor
  · intro compiled
    cases parsed : parseSections file text with
    | error diagnostic => simp [parsed, Except.map] at compiled
    | ok sections =>
        rcases parseSections_eq_ok.1 parsed with ⟨tokens, lexed, read⟩
        rw [parsed, Except.map, Except.ok.injEq] at compiled
        exact ⟨tokens, sections, lexed, read, compiled⟩
  · intro holds
    rcases holds with ⟨tokens, sections, lexed, read, rfl⟩
    rw [parseSections_eq_ok.2 ⟨tokens, lexed, read⟩]
    rfl

theorem Instruction.wellFormed_of_lines {instructions : List Instruction}
    {before after : TokenStream} (lines : Instruction.Lines instructions before after)
    (wellFormed : ∀ token ∈ before.ahead, token.WellFormed) :
    ∀ instruction ∈ instructions, instruction.WellFormed := by
  induction lines with
  | nil => simp
  | cons spans _ blankLines _ induction =>
      rcases spans.passed with ⟨tokens, passed⟩
      refine List.forall_mem_cons.2 ⟨wellFormed_of_spans spans wellFormed, induction ?_⟩
      intro token member
      exact wellFormed token (by simp [passed.ahead, blankLines.ahead, member])

theorem Section.wellFormed_of_spanAll {sections : List Section} {before after : TokenStream}
    (spans : Section.SpanAll sections before after)
    (wellFormed : ∀ token ∈ before.ahead, token.WellFormed) :
    ∀ found ∈ sections, Text.IsName found.name ∧
      ∀ instruction ∈ found.instructions, instruction.WellFormed := by
  induction spans with
  | nil => simp
  | @cons first others before between after spans _ induction =>
      rcases spans.passed with ⟨tokens, passed⟩
      refine List.forall_mem_cons.2 ⟨?_, induction fun token member => wellFormed token (by
        simp [passed.ahead, member])⟩
      cases spans with
      | @intro marker name _ _ _ _ _ _ isMarker isName _ _ _ header lines =>
          refine ⟨(wellFormed name (by simp [header.ahead])).name isName, ?_⟩
          refine Instruction.wellFormed_of_lines lines fun token member => ?_
          exact wellFormed token (by simp [header.ahead, member])

namespace Script

theorem wellFormed_of_compile {file : Path} {text : String} {compilation : Compilation}
    (compiled : compile file text = .ok compilation) : compilation.script.WellFormed := by
  rcases compile_eq_ok.1 compiled with ⟨tokens, sections, lexed, read, rfl⟩
  have wellFormed := Tokens.wellFormed_of_ofText lexed
  rcases Parser.spanAll_of_readSections (Parser.start tokens) (Parser.genuine_of_ofText lexed) read
    with ⟨run, first, last, _, passed, spans, _⟩
  have list : tokens.list = run ++ first.ahead := passed.ahead
  intro entry member
  rcases exists_of_mem_ofSections member with ⟨found, inside, rfl⟩
  refine Section.wellFormed_of_spanAll spans (fun token member => ?_) found inside
  exact wellFormed token (by simp [list, member])

theorem ofSections_toSection {script : Script} (nodup : script.names.Nodup) :
    ofSections (script.sections.map toSection) = script := by
  have names : (script.sections.map toSection).map Section.name = script.names := by
    rw [List.map_map]
    rfl
  have built := ofSections_of_nodup (names ▸ nodup)
  rw [List.map_map] at built
  have sections : (ofSections (script.sections.map toSection)).sections = script.sections :=
    built.trans (List.map_id script.sections)
  cases script
  cases rebuilt : ofSections _
  simp_all

theorem ofSource_render_iff_derives {script : Script} (wellFormed : script.WellFormed)
    {value : Expr} (member : value ∈ script.expressions) :
    Expr.ofSource value.render = .ok value ↔ Expr.Derives .disjunction value.tokens value := by
  rcases List.mem_flatMap.1 member with ⟨entry, entryMember, inside⟩
  rcases List.mem_flatMap.1 inside with ⟨instruction, instructionMember, isValue⟩
  have instructionWellFormed := (wellFormed entry entryMember).2 instruction instructionMember
  exact Expr.ofSource_render_eq_ok_iff
    (Instruction.wellFormed_of_mem_expressions instructionWellFormed isValue)

theorem nodup_of_compile {file : Path} {text : String} {compilation : Compilation}
    (compiled : compile file text = .ok compilation) : compilation.script.names.Nodup := by
  rcases compile_eq_ok.1 compiled with ⟨_, sections, _, _, rfl⟩
  exact nodup_ofSections sections

theorem compile_render_of_derived {script : Script} (wellFormed : script.WellFormed)
    (nodup : script.names.Nodup)
    (derived : ∀ value ∈ script.expressions, Expr.Derives .disjunction value.tokens value)
    (file : Path) :
    ∃ compilation, compile file (script.render ++ "\n") = .ok compilation ∧
      compilation.script = script := by
  have lexed := ofText_render wellFormed
  have genuine := Parser.genuine_of_ofText lexed
  rcases spell_of_derived derived with ⟨run, first, last, breaks, passed, spans, whole⟩
  have read := Parser.readSections_of_spanAll spans whole (Parser.start script.renderedTokens)
    genuine breaks passed
  exact ⟨assemble file (script.sections.map toSection),
    compile_eq_ok.2 ⟨_, _, lexed, read, rfl⟩, ofSections_toSection nodup⟩

theorem derived_of_compile_render {script : Script} (wellFormed : script.WellFormed)
    (nodup : script.names.Nodup) {file : Path} {compilation : Compilation}
    (compiled : compile file (script.render ++ "\n") = .ok compilation)
    (same : compilation.script = script) :
    ∀ value ∈ script.expressions, Expr.Derives .disjunction value.tokens value := by
  rcases compile_eq_ok.1 compiled with ⟨tokens, sections, lexed, read, rfl⟩
  rw [ofText_render wellFormed] at lexed
  injection lexed with sameTokens
  subst sameTokens
  have genuine := Parser.genuine_of_ofText (ofText_render wellFormed)
  have spell := Parser.spanAll_of_readSections (Parser.start script.renderedTokens) genuine read
  exact derived_of_spell wellFormed nodup spell same

/-- A compiled script that is rendered and compiled again stays the same exactly if each of
its expressions, rendered and read again, does; and then its text stays the same. -/
theorem compile_render_iff {file : Path} {text : String} {compilation : Compilation}
    (compiled : compile file text = .ok compilation) (again : Path) :
    ((∃ other, compile again (compilation.script.render ++ "\n") = .ok other ∧
        other.script = compilation.script) ↔
      ∀ value ∈ compilation.script.expressions, Expr.ofSource value.render = .ok value) ∧
    ((∀ value ∈ compilation.script.expressions, Expr.ofSource value.render = .ok value) →
      ∀ other, compile again (compilation.script.render ++ "\n") = .ok other →
        other.script.render = compilation.script.render) := by
  have wellFormed := wellFormed_of_compile compiled
  have nodup := nodup_of_compile compiled
  have rebuilt : (∀ value ∈ compilation.script.expressions,
      Expr.ofSource value.render = .ok value) →
      ∃ other, compile again (compilation.script.render ++ "\n") = .ok other ∧
        other.script = compilation.script := by
    intro readBack
    apply compile_render_of_derived wellFormed nodup
    intro value member
    exact (ofSource_render_iff_derives wellFormed member).1 (readBack value member)
  refine ⟨⟨?_, rebuilt⟩, ?_⟩
  · intro shape value member
    rcases shape with ⟨other, compiledAgain, same⟩
    rw [ofSource_render_iff_derives wellFormed member]
    exact derived_of_compile_render wellFormed nodup compiledAgain same value member
  · intro readBack other compiledAgain
    rcases rebuilt readBack with ⟨other', compiledAgain', same⟩
    rw [compiledAgain] at compiledAgain'
    injection compiledAgain' with sameOther
    rw [sameOther, same]

theorem compile_render_payment :
    ∃ compilation, compile unnamedFile "--- a\nreceive_money(-5)\n" = .ok compilation ∧
      compilation.script.expressions = [.unary .negate (.literal (.integer 5))] ∧
      ∃ other, compile unnamedFile (compilation.script.render ++ "\n") = .ok other ∧
        other.script = compilation.script := by
  have readBack : Expr.ofSource (Expr.unary .negate (.literal (.integer 5))).render =
      .ok (.unary .negate (.literal (.integer 5))) := by cbv
  have valueWellFormed := Expr.wellFormed_of_ofSource readBack
  have derived := (Expr.ofSource_render_eq_ok_iff valueWellFormed).1 readBack
  have wellFormed :
      WellFormed ⟨[("a", [.receiveMoney (.unary .negate (.literal (.integer 5)))])]⟩ := by
    intro entry member
    rw [List.mem_singleton.1 member]
    refine ⟨by decide, fun instruction inside => ?_⟩
    rw [List.mem_singleton.1 inside]
    intro piece listed
    rcases List.mem_cons.1 listed with rfl | listed
    · rfl
    · rcases List.mem_cons.1 listed with rfl | listed
      · exact valueWellFormed
      · rw [List.mem_singleton.1 listed]
        rfl
  rcases compile_render_of_derived wellFormed (by decide)
    (by simpa [expressions, Instruction.expressions] using derived) unnamedFile with
    ⟨compilation, compiled, same⟩
  have text : render ⟨[("a", [.receiveMoney (.unary .negate (.literal (.integer 5)))])]⟩ ++ "\n" =
      "--- a\nreceive_money(-5)\n" := by decide +kernel
  rw [text] at compiled
  refine ⟨compilation, compiled, by rw [same]; rfl, ?_⟩
  apply (compile_render_iff compiled unnamedFile).1.2
  rw [same]
  simpa [expressions, Instruction.expressions] using readBack

end Script

end EventScript
