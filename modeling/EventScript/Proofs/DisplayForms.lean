import EventScript.Proofs.Continuations
import EventScript.Proofs.ScriptText

/-! Display forms. A rendered script may read back as another one or not at all, but no two scripts
look the same: what is written can be told piece by piece from what follows it, so the text of a
script belongs to that script alone, and so does its record. -/

namespace EventScript

/-! ## Items that are written one behind the other -/

/-- Items of which each can be told from what follows it. They begin in a way of their own, and may
depend on what follows to begin in some way. -/
structure Separable {α β : Type} (write : α → List β) (begins : β → Prop) (fits : α → Prop)
    (follows : List β → Prop) : Prop where
  begun : ∀ item, ∃ first rest, write item = first :: rest ∧ begins first
  goesOn : ∀ item rest, follows (write item ++ rest)
  apart : ∀ {item other}, fits item → fits other → ∀ {rest rest'}, follows rest → follows rest' →
    write item ++ rest = write other ++ rest' → item = other ∧ rest = rest'

namespace Separable

variable {α β : Type} {write : α → List β} {begins : β → Prop} {fits : α → Prop}
  {follows : List β → Prop} {items others : List α} {tail tail' : List β}

theorem flatMap_cons_ne (separable : Separable write begins fits follows)
    (ends : ∀ first ∈ tail.head?, ¬begins first) (item : α) (rest : List β) :
    tail ≠ (item :: items).flatMap write ++ rest := by
  rintro rfl
  rcases separable.begun item with ⟨first, more, written, begins⟩
  exact ends first (by simp [written]) begins

theorem follows_flatMap (separable : Separable write begins fits follows)
    (tailFollows : follows tail) : follows (items.flatMap write ++ tail) := by
  cases items with
  | nil => exact tailFollows
  | cons item items =>
      rw [List.flatMap_cons, List.append_assoc]
      exact separable.goesOn item _

theorem eq_of_flatMap_append (separable : Separable write begins fits follows)
    (fit : ∀ item ∈ items, fits item) (fit' : ∀ item ∈ others, fits item)
    (ends : ∀ first ∈ tail.head?, ¬begins first) (ends' : ∀ first ∈ tail'.head?, ¬begins first)
    (tailFollows : follows tail) (tailFollows' : follows tail')
    (same : items.flatMap write ++ tail = others.flatMap write ++ tail') :
    items = others ∧ tail = tail' := by
  induction items generalizing others with
  | nil =>
      cases others with
      | nil => exact ⟨rfl, same⟩
      | cons other others => exact absurd same (separable.flatMap_cons_ne ends other tail')
  | cons item items induction =>
      cases others with
      | nil => exact absurd same.symm (separable.flatMap_cons_ne ends' item tail)
      | cons other others =>
          rw [List.forall_mem_cons] at fit fit'
          rw [List.flatMap_cons, List.flatMap_cons, List.append_assoc, List.append_assoc] at same
          rcases separable.apart fit.1 fit'.1 (separable.follows_flatMap tailFollows)
            (separable.follows_flatMap tailFollows') same with ⟨rfl, sameRest⟩
          rcases induction fit.2 fit'.2 sameRest with ⟨rfl, sameTail⟩
          exact ⟨rfl, sameTail⟩

end Separable

/-! ## Expressions -/

namespace Literal

theorem render_boolean_mem_reserved (value : Bool) : (boolean value).render ∈ Expr.reserved := by
  cases value <;> decide

theorem render_boolean_injective : Function.Injective fun value => (boolean value).render := by
  intro value other same
  revert same
  cases value <;> cases other <;> decide

end Literal

namespace Text.Decimal

theorem textOfInt_natCast_injective {number other : Nat}
    (same : textOfInt number = textOfInt other) : number = other := by
  have digits : ofNat number = ofNat other := String.ofList_injective same
  rw [← toNat_ofNat number, digits, toNat_ofNat]

end Text.Decimal

namespace BinaryOp

theorem kind_ne_leftParen (op : BinaryOp) : op.lexeme.token.kind ≠ .leftParen := by
  cases op <;> decide

theorem token_lexeme_injective {op other : BinaryOp}
    (same : op.lexeme.token = other.lexeme.token) : op = other := by
  have sameOp := op.binaryOp?_token_lexeme
  rw [same, other.binaryOp?_token_lexeme] at sameOp
  exact (Option.some.inj sameOp).symm

end BinaryOp

namespace Token

/-- A token with a spelling of its own, at no particular place. -/
def sign (kind : TokenKind) : Token :=
  ⟨kind, kind.text, .start⟩

@[simp] theorem kind_sign (kind : TokenKind) : (sign kind).kind = kind := rfl

@[simp] theorem sign_inj {kind other : TokenKind} : sign kind = sign other ↔ kind = other := by
  constructor
  · exact fun same => congrArg Token.kind same
  · exact fun same => congrArg sign same

theorem eq_of_cons {kind : TokenKind} {value other : String} {rest rest' : List Token}
    (same : ⟨kind, value, .start⟩ :: rest = ⟨kind, other, .start⟩ :: rest') :
    value = other ∧ rest = rest' := by
  simpa using same

end Token

@[simp] theorem Lexeme.token_sign (kind : TokenKind) (blanks : List Char) :
    (sign kind blanks).token = .sign kind :=
  token_plain ..

theorem Lexeme.eq_of_textOf {lexemes others : List Lexeme} (row : Row lexemes [])
    (row' : Row others []) (same : textOf lexemes = textOf others) : lexemes = others := by
  have read := Scan.read_row row
  rw [same, Scan.read_row row', Scan.read_blanks (by simp)] at read
  simpa [Scan.prepend] using (congrArg Scan.lexemes read).symm

namespace Expr

inductive Written : Expr → List Token → Prop
  | boolean (value : Bool) :
      Written (.literal (.boolean value)) [⟨.identifier, (Literal.boolean value).render, .start⟩]
  | integer (value : Int) :
      Written (.literal (.integer value)) [⟨.integer, (Literal.integer value).render, .start⟩]
  | text (value : String) : Written (.literal (.text value)) [⟨.string, value, .start⟩]
  | global (name : String) : Written (.global name) [⟨.identifier, name, .start⟩]
  | hasItem (item : String) :
      Written (.hasItem item) [⟨.identifier, "has_item", .start⟩, .sign .leftParen,
        ⟨.identifier, item, .start⟩, .sign .rightParen]
  | binary (op : BinaryOp) {left right : Expr} {first second : List Token}
      (leftWritten : left.Written first) (rightWritten : right.Written second) :
      Written (.binary op left right) (.sign .leftParen :: (first ++
        op.lexeme.token :: (second ++ [.sign .rightParen])))
  | not {operand : Expr} {tokens : List Token} (written : operand.Written tokens) :
      Written (.unary .not operand) (⟨.identifier, "not", .start⟩ :: tokens)
  | marker {operand : Expr} {tokens : List Token} (written : operand.Written tokens) :
      Written (.unary .negate (.unary .negate (.unary .negate operand)))
        (.sign .sectionMarker :: tokens)
  | negate {operand : Expr} {tokens : List Token} (written : operand.Written tokens) :
      Written (.unary .negate operand) (.sign .minus :: tokens)

theorem written_tokens (e : Expr) (blanks : List Char) :
    e.Written ((e.lexemes blanks).map Lexeme.token) := by
  fun_induction lexemes e blanks with
  | case1 value => simpa using Written.boolean value
  | case2 value => simpa using Written.integer value
  | case3 value => simpa using Written.text value
  | case4 name => simpa using Written.global name
  | case5 item => simpa using Written.hasItem item
  | case6 op left right blanks leftInduction rightInduction =>
      simpa using Written.binary op leftInduction rightInduction
  | case7 operand blanks induction => simpa using Written.not induction
  | case8 operand blanks induction => simpa using Written.marker induction
  | case9 operand blanks _ induction => simpa using Written.negate induction

/-- A tree can be told from what follows it, unless that opens a parenthesis: a name and a
parenthesis are the beginning of a question. -/
theorem Written.eq_of_append {e other : Expr} {tokens tokens' : List Token}
    (written : e.Written tokens) (written' : other.Written tokens') (wellFormed : e.WellFormed)
    (wellFormed' : other.WellFormed) {tail tail' : List Token}
    (unopened : ∀ token ∈ tail.head?, token.kind ≠ .leftParen)
    (unopened' : ∀ token ∈ tail'.head?, token.kind ≠ .leftParen)
    (same : tokens ++ tail = tokens' ++ tail') : e = other ∧ tail = tail' := by
  have notReserved : "not" ∈ reserved := by decide
  induction written generalizing other tokens' tail tail' with
  | boolean value =>
      cases written' with
      | boolean value' =>
          rcases Token.eq_of_cons same with ⟨sameWord, sameTail⟩
          exact ⟨by rw [Literal.render_boolean_injective sameWord], sameTail⟩
      | global name =>
          rcases Token.eq_of_cons same with ⟨rfl, _⟩
          exact absurd (Literal.render_boolean_mem_reserved value) wellFormed'.2
      | hasItem item => cases value <;> simp [Literal.render] at same
      | not => cases value <;> simp [Literal.render] at same
      | _ => simp [Token.sign] at same
  | integer value =>
      cases written' with
      | integer value' =>
          rcases wellFormed with ⟨number, rfl, _⟩
          rcases wellFormed' with ⟨number', rfl, _⟩
          rcases Token.eq_of_cons same with ⟨sameDigits, sameTail⟩
          exact ⟨by rw [Text.Decimal.textOfInt_natCast_injective sameDigits], sameTail⟩
      | _ => simp [Token.sign] at same
  | text value =>
      cases written' with
      | text value' => simpa using same
      | _ => simp [Token.sign] at same
  | global name =>
      cases written' with
      | boolean value =>
          rcases Token.eq_of_cons same with ⟨rfl, _⟩
          exact absurd (Literal.render_boolean_mem_reserved value) wellFormed.2
      | global name' => simpa using same
      | hasItem item =>
          rcases Token.eq_of_cons same with ⟨_, rfl⟩
          exact absurd rfl (unopened _ rfl)
      | not =>
          rcases Token.eq_of_cons same with ⟨rfl, _⟩
          exact absurd notReserved wellFormed.2
      | _ => simp [Token.sign] at same
  | hasItem item =>
      cases written' with
      | boolean value => cases value <;> simp [Literal.render] at same
      | global name =>
          rcases Token.eq_of_cons same with ⟨_, rfl⟩
          exact absurd rfl (unopened' _ rfl)
      | hasItem item' => simpa using same
      | _ => simp [Token.sign] at same
  | @binary op _ _ _ _ _ _ leftInduction rightInduction =>
      cases written' with
      | @binary op' _ _ _ _ leftWritten' rightWritten' =>
          rw [List.cons_append, List.cons_append, List.cons.injEq, List.append_assoc,
            List.append_assoc] at same
          rcases leftInduction leftWritten' wellFormed.1 wellFormed'.1
            (by simpa using op.kind_ne_leftParen) (by simpa using op'.kind_ne_leftParen) same.2 with
            ⟨rfl, sameBehind⟩
          rw [List.cons_append, List.cons_append, List.cons.injEq, List.append_assoc,
            List.append_assoc] at sameBehind
          rcases rightInduction rightWritten' wellFormed.2 wellFormed'.2 (by simp) (by simp)
            sameBehind.2 with ⟨rfl, sameClosed⟩
          rw [BinaryOp.token_lexeme_injective sameBehind.1]
          exact ⟨rfl, (Token.eq_of_cons sameClosed).2⟩
      | _ => simp [Token.sign] at same
  | not _ induction =>
      cases written' with
      | boolean value => cases value <;> simp [Literal.render] at same
      | global name =>
          rcases Token.eq_of_cons same with ⟨rfl, _⟩
          exact absurd notReserved wellFormed'.2
      | not written' =>
          rcases induction written' wellFormed wellFormed' unopened unopened'
            (Token.eq_of_cons same).2 with ⟨rfl, sameTail⟩
          exact ⟨rfl, sameTail⟩
      | _ => simp [Token.sign] at same
  | marker _ induction =>
      cases written' with
      | marker written' =>
          rcases induction written' wellFormed wellFormed' unopened unopened'
            (Token.eq_of_cons same).2 with ⟨rfl, sameTail⟩
          exact ⟨rfl, sameTail⟩
      | _ => simp [Token.sign] at same
  | negate _ induction =>
      cases written' with
      | negate written' =>
          rcases induction written' wellFormed wellFormed' unopened unopened'
            (Token.eq_of_cons same).2 with ⟨rfl, sameTail⟩
          exact ⟨rfl, sameTail⟩
      | _ => simp [Token.sign] at same

theorem eq_of_tokens_append {e other : Expr} (wellFormed : e.WellFormed)
    (wellFormed' : other.WellFormed) {tail tail' : List Token}
    (unopened : ∀ token ∈ tail.head?, token.kind ≠ .leftParen)
    (unopened' : ∀ token ∈ tail'.head?, token.kind ≠ .leftParen)
    (same : e.tokens ++ tail = other.tokens ++ tail') : e = other ∧ tail = tail' :=
  (e.written_tokens []).eq_of_append (other.written_tokens []) wellFormed wellFormed' unopened
    unopened' same

theorem eq_of_render {e other : Expr} (wellFormed : e.WellFormed) (wellFormed' : other.WellFormed)
    (same : e.render = other.render) : e = other := by
  have row : Lexeme.Row (e.lexemes []) [] := row_lexemes wellFormed (by simp) (.nil _)
  have row' : Lexeme.Row (other.lexemes []) [] := row_lexemes wellFormed' (by simp) (.nil _)
  have sameText : Lexeme.textOf (e.lexemes []) = Lexeme.textOf (other.lexemes []) := by
    rw [textOf_lexemes, textOf_lexemes, same]
  have sameTokens : e.tokens ++ [] = other.tokens ++ [] := by
    rw [tokens, tokens, Lexeme.eq_of_textOf row row' sameText]
  exact (eq_of_tokens_append wellFormed wellFormed' (by simp) (by simp) sameTokens).1

end Expr

/-! ## Instructions -/

namespace Piece

def tokens : Piece → List Token
  | .sign kind => [.sign kind]
  | .name word => [⟨.identifier, word, .start⟩]
  | .expression value => value.tokens

theorem map_token_rowOf (blanks : List Char) (pieces : List Piece) :
    (rowOf blanks pieces).map Lexeme.token = pieces.flatMap tokens := by
  induction pieces generalizing blanks with
  | nil => rfl
  | cons piece pieces induction =>
      rw [rowOf, List.map_append, induction, List.flatMap_cons]
      cases piece with
      | sign kind => simp [lexemes, tokens]
      | name word => simp [lexemes, tokens]
      | expression value => simp [lexemes, tokens]

end Piece

namespace Choice

def tokens (choice : Choice) : List Token :=
  .sign .comma :: choice.pieces.flatMap Piece.tokens

theorem separable :
    Separable tokens (·.kind = .comma) (fun _ => True) (fun _ => True) where
  begun _ := ⟨_, _, rfl, rfl⟩
  goesOn _ _ := trivial
  apart {choice other} _ _ rest rest' _ _ same := by
    have parts : (choice.label = other.label ∧ choice.target = other.target) ∧ rest = rest' := by
      simpa [tokens, Choice.pieces, Piece.tokens, and_assoc] using same
    rcases choice with ⟨label, target⟩
    rcases other with ⟨label', target'⟩
    simpa using parts

theorem flatMap_tokens_pieces (choices : List Choice) :
    (choices.flatMap fun choice => .sign .comma :: choice.pieces).flatMap Piece.tokens =
      choices.flatMap tokens := by
  rw [List.flatMap_assoc]
  rfl

end Choice

theorem Special.symbol_injective : Function.Injective symbol := by
  intro behaviour other same
  revert same
  cases behaviour <;> cases other <;> decide

namespace Instruction

def tokens (instruction : Instruction) : List Token :=
  ⟨.identifier, instruction.kind, .start⟩ ::
    (instruction.pieces.flatMap Piece.tokens ++ [⟨.newline, "\n", .start⟩])

theorem map_token_lexemes (instruction : Instruction) :
    instruction.lexemes.map Lexeme.token = instruction.tokens := by
  simp [lexemes, tokens, Piece.map_token_rowOf]

theorem eq_of_last_argument {value other : Expr} (wellFormed : value.WellFormed)
    (wellFormed' : other.WellFormed) {tail tail' : List Token}
    (same : value.tokens ++ (.sign .rightParen :: tail) =
      other.tokens ++ (.sign .rightParen :: tail')) : value = other ∧ tail = tail' := by
  rcases Expr.eq_of_tokens_append wellFormed wellFormed' (by simp) (by simp) same with
    ⟨rfl, sameClosed⟩
  exact ⟨rfl, (Token.eq_of_cons sameClosed).2⟩

section

variable {instruction other : Instruction} {word word' : String} {value value' : Expr}
  {tail tail' : List Token}

theorem eq_of_name (named : instruction.arguments = [.name word])
    (named' : other.arguments = [.name word'])
    (same : instruction.pieces.flatMap Piece.tokens ++ tail =
      other.pieces.flatMap Piece.tokens ++ tail') : word = word' ∧ tail = tail' := by
  simpa [pieces, named, named', Argument.pieces, Piece.separated_cons, Piece.tokens] using same

theorem eq_of_expression (valued : instruction.arguments = [.expression value])
    (valued' : other.arguments = [.expression value']) (wellFormed : instruction.WellFormed)
    (wellFormed' : other.WellFormed)
    (same : instruction.pieces.flatMap Piece.tokens ++ tail =
      other.pieces.flatMap Piece.tokens ++ tail') : value = value' ∧ tail = tail' := by
  have fits := wellFormed (.expression value)
    (by simp [pieces, valued, Argument.pieces, Piece.separated_cons])
  have fits' := wellFormed' (.expression value')
    (by simp [pieces, valued', Argument.pieces, Piece.separated_cons])
  apply eq_of_last_argument fits fits'
  simpa [pieces, valued, valued', Argument.pieces, Piece.separated_cons, Piece.tokens] using same

theorem eq_of_name_of_expression
    (arguments : instruction.arguments = [.name word, .expression value])
    (arguments' : other.arguments = [.name word', .expression value'])
    (wellFormed : instruction.WellFormed) (wellFormed' : other.WellFormed)
    (same : instruction.pieces.flatMap Piece.tokens ++ tail =
      other.pieces.flatMap Piece.tokens ++ tail') :
    word = word' ∧ value = value' ∧ tail = tail' := by
  have fits := wellFormed (.expression value)
    (by simp [pieces, arguments, Argument.pieces, Piece.separated_cons])
  have fits' := wellFormed' (.expression value')
    (by simp [pieces, arguments', Argument.pieces, Piece.separated_cons])
  have parts : word = word' ∧ value.tokens ++ (.sign .rightParen :: tail) =
      value'.tokens ++ (.sign .rightParen :: tail') := by
    simpa [pieces, arguments, arguments', Argument.pieces, Piece.separated_cons, Piece.tokens]
      using same
  exact ⟨parts.1, eq_of_last_argument fits fits' parts.2⟩

end

/-- The choices of a talk end with a bracket, which begins no further one. -/
theorem eq_of_choices {textId textId' : String} {first first' : Choice}
    {others others' : List Choice} {tail tail' : List Token}
    (same : (talk textId (first :: others)).pieces.flatMap Piece.tokens ++ tail =
      (talk textId' (first' :: others')).pieces.flatMap Piece.tokens ++ tail') :
    textId = textId' ∧ first :: others = first' :: others' ∧ tail = tail' := by
  rw [pieces, pieces, Rule.pieces_talkWithChoices, Rule.pieces_talkWithChoices] at same
  -- A comma before the first choice makes it like the others.
  have parts : textId = textId' ∧ (first :: others).flatMap Choice.tokens ++
        (.sign .rightBracket :: .sign .rightParen :: tail) =
      (first' :: others').flatMap Choice.tokens ++
        (.sign .rightBracket :: .sign .rightParen :: tail') := by
    simpa [Choice.tokens, Piece.tokens, Choice.flatMap_tokens_pieces] using same
  rcases Choice.separable.eq_of_flatMap_append (by simp) (by simp) (by simp) (by simp) trivial
    trivial parts.2 with ⟨sameChoices, sameEnd⟩
  exact ⟨parts.1, sameChoices, by simpa using sameEnd⟩

theorem eq_of_talk {textId textId' : String} {choices choices' : List Choice}
    {tail tail' : List Token}
    (same : (talk textId choices).pieces.flatMap Piece.tokens ++ tail =
      (talk textId' choices').pieces.flatMap Piece.tokens ++ tail') :
    talk textId choices = talk textId' choices' ∧ tail = tail' := by
  cases choices with
  | nil =>
      cases choices' with
      | nil =>
          rcases eq_of_name rfl rfl same with ⟨rfl, sameTail⟩
          exact ⟨rfl, sameTail⟩
      | cons first' others' =>
          rw [pieces, pieces, Rule.pieces_talkWithChoices] at same
          simp [arguments, Argument.pieces, Piece.separated_cons, Piece.tokens] at same
  | cons first others =>
      cases choices' with
      | nil =>
          rw [pieces, pieces, Rule.pieces_talkWithChoices] at same
          simp [arguments, Argument.pieces, Piece.separated_cons, Piece.tokens] at same
      | cons first' others' =>
          rcases eq_of_choices same with ⟨rfl, sameChoices, sameTail⟩
          exact ⟨by rw [sameChoices], sameTail⟩

theorem eq_of_pieces_append {instruction other : Instruction}
    (sameKind : instruction.kind = other.kind) (wellFormed : instruction.WellFormed)
    (wellFormed' : other.WellFormed) {tail tail' : List Token}
    (same : instruction.pieces.flatMap Piece.tokens ++ tail =
      other.pieces.flatMap Piece.tokens ++ tail') : instruction = other ∧ tail = tail' := by
  cases instruction with
  | jump target =>
      cases other with
      | jump target' =>
          rcases eq_of_name rfl rfl same with ⟨rfl, sameTail⟩
          exact ⟨rfl, sameTail⟩
      | _ => simp [kind] at sameKind
  | jumpIf target condition =>
      cases other with
      | jumpIf target' condition' =>
          rcases eq_of_name_of_expression rfl rfl wellFormed wellFormed' same with
            ⟨rfl, rfl, sameTail⟩
          exact ⟨rfl, sameTail⟩
      | _ => simp [kind] at sameKind
  | talk textId choices =>
      cases other with
      | talk textId' choices' => exact eq_of_talk same
      | _ => simp [kind] at sameKind
  | assign name value =>
      cases other with
      | assign name' value' =>
          rcases eq_of_name_of_expression rfl rfl wellFormed wellFormed' same with
            ⟨rfl, rfl, sameTail⟩
          exact ⟨rfl, sameTail⟩
      | _ => simp [kind] at sameKind
  | receiveMoney amount =>
      cases other with
      | receiveMoney amount' =>
          rcases eq_of_expression rfl rfl wellFormed wellFormed' same with ⟨rfl, sameTail⟩
          exact ⟨rfl, sameTail⟩
      | _ => simp [kind] at sameKind
  | removeItem item =>
      cases other with
      | removeItem item' =>
          rcases eq_of_name rfl rfl same with ⟨rfl, sameTail⟩
          exact ⟨rfl, sameTail⟩
      | _ => simp [kind] at sameKind
  | special behaviour =>
      cases other with
      | special behaviour' =>
          rcases eq_of_name rfl rfl same with ⟨sameSymbol, sameTail⟩
          exact ⟨by rw [Special.symbol_injective sameSymbol], sameTail⟩
      | _ => simp [kind] at sameKind

theorem separable : Separable tokens (·.kind = .identifier) WellFormed (fun _ => True) where
  begun _ := ⟨_, _, rfl, rfl⟩
  goesOn _ _ := trivial
  apart {instruction other} wellFormed wellFormed' rest rest' _ _ same := by
    rw [tokens, tokens, List.cons_append, List.cons_append, List.append_assoc,
      List.append_assoc] at same
    rcases Token.eq_of_cons same with ⟨sameKind, samePieces⟩
    rcases eq_of_pieces_append sameKind wellFormed wellFormed' samePieces with ⟨rfl, sameEnd⟩
    exact ⟨rfl, (Token.eq_of_cons sameEnd).2⟩

end Instruction

/-! ## Scripts -/

namespace Script

def sectionTokens (entry : String × List Instruction) : List Token :=
  .sign .sectionMarker :: ⟨.identifier, entry.1, .start⟩ :: ⟨.newline, "\n", .start⟩ ::
    entry.2.flatMap Instruction.tokens

theorem map_token_flatMap {α : Type} {lexemes : α → List Lexeme} {tokens : α → List Token}
    (each : ∀ item, (lexemes item).map Lexeme.token = tokens item) (items : List α) :
    (items.flatMap lexemes).map Lexeme.token = items.flatMap tokens := by
  rw [List.map_flatMap]
  simp only [each]

theorem map_token_sectionLexemes (entry : String × List Instruction) :
    (sectionLexemes entry).map Lexeme.token = sectionTokens entry := by
  rw [sectionLexemes, List.map_append, map_token_flatMap Instruction.map_token_lexemes]
  simp [headerLexemes, sectionTokens]

theorem separable_sectionTokens : Separable sectionTokens (·.kind = .sectionMarker)
    (fun entry => ∀ instruction ∈ entry.2, instruction.WellFormed)
    (fun rest => ∀ token ∈ rest.head?, token.kind ≠ .identifier) where
  begun _ := ⟨_, _, rfl, rfl⟩
  goesOn entry rest := by simp [sectionTokens]
  apart {entry other} wellFormed wellFormed' rest rest' follows follows' same := by
    have parts : entry.1 = other.1 ∧ entry.2.flatMap Instruction.tokens ++ rest =
        other.2.flatMap Instruction.tokens ++ rest' := by
      simpa [sectionTokens] using same
    rcases Instruction.separable.eq_of_flatMap_append wellFormed wellFormed' follows follows'
      trivial trivial parts.2 with ⟨sameInstructions, sameRest⟩
    exact ⟨Prod.ext parts.1 sameInstructions, sameRest⟩

def tokens (script : Script) : List Token :=
  (if script.sections = [] then [⟨.newline, "\n", .start⟩] else []) ++
    script.sections.flatMap sectionTokens

theorem map_token_lexemes (script : Script) : script.lexemes.map Lexeme.token = script.tokens := by
  rw [lexemes, tokens, List.map_append, map_token_flatMap map_token_sectionLexemes]
  split
  · simp
  · rfl

theorem eq_of_tokens {script other : Script} (wellFormed : script.WellFormed)
    (wellFormed' : other.WellFormed) (same : script.tokens = other.tokens) : script = other := by
  have fit := fun entry member => (wellFormed entry member).2
  have fit' := fun entry member => (wellFormed' entry member).2
  rcases script with ⟨sections⟩
  rcases other with ⟨sections'⟩
  cases sections with
  | nil =>
      cases sections' with
      | nil => rfl
      | cons first others => simp [tokens, sectionTokens, Token.sign] at same
  | cons first others =>
      cases sections' with
      | nil => simp [tokens, sectionTokens, Token.sign] at same
      | cons first' others' =>
          have sameSections : (first :: others).flatMap sectionTokens ++ [] =
              (first' :: others').flatMap sectionTokens ++ [] := by
            simpa [tokens] using same
          have same := separable_sectionTokens.eq_of_flatMap_append fit fit' (by simp) (by simp)
            (by simp) (by simp) sameSections
          exact congrArg mk same.1

theorem eq_of_render {script other : Script} (wellFormed : script.WellFormed)
    (wellFormed' : other.WellFormed) (same : script.render = other.render) : script = other := by
  have sameText : Lexeme.textOf script.lexemes = Lexeme.textOf other.lexemes := by
    rw [textOf_lexemes, textOf_lexemes, same]
  have sameLexemes :=
    Lexeme.eq_of_textOf (row_lexemes wellFormed) (row_lexemes wellFormed') sameText
  apply eq_of_tokens wellFormed wellFormed'
  rw [← map_token_lexemes, ← map_token_lexemes, sameLexemes]

end Script

/-! ## Records -/

theorem Choice.display_injective : Function.Injective display := by
  intro choice other same
  rcases choice with ⟨label, target⟩
  rcases other with ⟨label', target'⟩
  simpa [display] using same

theorem Instruction.eq_of_display {instruction other : Instruction}
    (wellFormed : instruction.WellFormed) (wellFormed' : other.WellFormed)
    (same : instruction.display = other.display) :
    instruction = other := by
  have fits := fun value => @wellFormed_of_mem_expressions _ wellFormed value
  have fits' := fun value => @wellFormed_of_mem_expressions _ wellFormed' value
  rw [display, display] at same
  injection same with sameFields
  injection sameFields with sameKind sameFields
  have sameKind : instruction.kind = other.kind := by simpa using sameKind
  cases instruction with
  | jump target =>
      cases other with
      | jump target' => simpa [fields] using sameFields
      | _ => simp [kind] at sameKind
  | jumpIf target condition =>
      cases other with
      | jumpIf target' condition' =>
          have parts : target = target' ∧ condition.render = condition'.render := by
            simpa [fields] using sameFields
          rw [parts.1, Expr.eq_of_render (fits condition (by simp [expressions]))
            (fits' condition' (by simp [expressions])) parts.2]
      | _ => simp [kind] at sameKind
  | talk textId choices =>
      cases other with
      | talk textId' choices' =>
          have parts : textId = textId' ∧
              choices.map Choice.display = choices'.map Choice.display := by
            simpa [fields] using sameFields
          rw [parts.1, Choice.display_injective.list_map parts.2]
      | _ => simp [kind] at sameKind
  | assign name value =>
      cases other with
      | assign name' value' =>
          have parts : name = name' ∧ value.render = value'.render := by
            simpa [fields] using sameFields
          rw [parts.1, Expr.eq_of_render (fits value (by simp [expressions]))
            (fits' value' (by simp [expressions])) parts.2]
      | _ => simp [kind] at sameKind
  | receiveMoney amount =>
      cases other with
      | receiveMoney amount' =>
          have sameAmount : amount.render = amount'.render := by simpa [fields] using sameFields
          rw [Expr.eq_of_render (fits amount (by simp [expressions]))
            (fits' amount' (by simp [expressions])) sameAmount]
      | _ => simp [kind] at sameKind
  | removeItem item =>
      cases other with
      | removeItem item' => simpa [fields] using sameFields
      | _ => simp [kind] at sameKind
  | special behaviour =>
      cases other with
      | special behaviour' =>
          have sameSymbol : behaviour.symbol = behaviour'.symbol := by
            simpa [fields] using sameFields
          rw [Special.symbol_injective sameSymbol]
      | _ => simp [kind] at sameKind

theorem eq_of_map_eq {α β : Type} {view : α → β} {fits : α → Prop} {items others : List α}
    (injective : ∀ {item other}, fits item → fits other → view item = view other → item = other)
    (fit : ∀ item ∈ items, fits item) (fit' : ∀ item ∈ others, fits item)
    (same : items.map view = others.map view) : items = others := by
  induction items generalizing others with
  | nil => exact (List.map_eq_nil_iff.1 same.symm).symm
  | cons item items induction =>
      cases others with
      | nil => simp at same
      | cons other others =>
          rw [List.map_cons, List.map_cons, List.cons.injEq] at same
          rw [List.forall_mem_cons] at fit fit'
          rw [injective fit.1 fit'.1 same.1, induction fit.2 fit'.2 same.2]

theorem Script.eq_of_display {script other : Script} (wellFormed : script.WellFormed)
    (wellFormed' : other.WellFormed) (same : script.display = other.display) : script = other := by
  rcases script with ⟨sections⟩
  rcases other with ⟨sections'⟩
  injection same with sameFields
  refine congrArg mk (eq_of_map_eq ?_ (fun entry member => (wellFormed entry member).2)
    (fun entry member => (wellFormed' entry member).2) sameFields)
  intro entry entry' fit fit' sameEntry
  have parts : entry.1 = entry'.1 ∧
      entry.2.map Instruction.display = entry'.2.map Instruction.display := by
    simpa using sameEntry
  exact Prod.ext parts.1 (eq_of_map_eq Instruction.eq_of_display fit fit' parts.2)

/-- Scripts that look the same, as records with their sections in order or as source text, are the
same: no name, no instruction and no expression tree gets lost. -/
theorem Compilation.script_eq_of_views {file file' : Path} {text text' : String}
    {compilation other : Compilation} (compiled : compile file text = .ok compilation)
    (compiled' : compile file' text' = .ok other)
    (same : compilation.script.display = other.script.display ∨
      compilation.script.render = other.script.render) : compilation.script = other.script := by
  have wellFormed := Script.wellFormed_of_compile compiled
  have wellFormed' := Script.wellFormed_of_compile compiled'
  rcases same with display | render
  · exact Script.eq_of_display wellFormed wellFormed' display
  · exact Script.eq_of_render wellFormed wellFormed' render

theorem compile_payment {amount : Expr} {text : String} {line : List Token} {index : Nat}
    {finish : Position}
    (lexed : Tokens.ofText text = .ok ⟨⟨.sectionMarker, "---", ⟨1, 1⟩⟩ ::
      ⟨.identifier, "a", ⟨1, 5⟩⟩ :: ⟨.newline, "\n", ⟨1, 6⟩⟩ ::
        ⟨.identifier, "receive_money", ⟨2, 1⟩⟩ :: line, finish⟩)
    (spans : (Instruction.receiveMoney amount).Spans
      ⟨3, ⟨.identifier, "receive_money", ⟨2, 1⟩⟩ :: line, finish⟩ ⟨index, [], finish⟩) :
    compile unnamedFile text = .ok (assemble unnamedFile [⟨"a", [.receiveMoney amount]⟩]) := by
  have headed : Stage.Reached (Tokens.stream ⟨⟨.sectionMarker, "---", ⟨1, 1⟩⟩ ::
      ⟨.identifier, "a", ⟨1, 5⟩⟩ :: ⟨.newline, "\n", ⟨1, 6⟩⟩ ::
        ⟨.identifier, "receive_money", ⟨2, 1⟩⟩ :: line, finish⟩)
      ⟨[⟨"a", []⟩], ⟨3, ⟨.identifier, "receive_money", ⟨2, 1⟩⟩ :: line, finish⟩⟩ :=
    .single (@Stage.Next.header (Stage.start _)
      ⟨3, ⟨.identifier, "receive_money", ⟨2, 1⟩⟩ :: line, finish⟩ "a" rfl)
  have parsed : parseSections unnamedFile text = .ok [⟨"a", [.receiveMoney amount]⟩] :=
    parseSections_eq_ok_iff_reached.2
      ⟨_, _, lexed, headed.tail (.instruction (by simp) spans), rfl, rfl⟩
  rw [compile, parsed, Except.map]

/-- Three minus signs in a row do not read back, yet they stand for one tree, however that was
written. -/
theorem Compilation.script_eq_of_views_triple_negative : ∃ compilation other,
    compile unnamedFile "--- a\nreceive_money(-(-(-b)))\n" = .ok compilation ∧
      compile unnamedFile "--- a\nreceive_money(- - -b)\n" = .ok other ∧
      compilation.script.render = "--- a\nreceive_money(---b)" ∧
      other.script.render = "--- a\nreceive_money(---b)" ∧
      compilation.script = other.script := by
  have compiled := @compile_payment (.unary .negate (.unary .negate (.unary .negate (.global "b"))))
    "--- a\nreceive_money(-(-(-b)))\n" [⟨.leftParen, "(", ⟨2, 14⟩⟩, ⟨.minus, "-", ⟨2, 15⟩⟩,
      ⟨.leftParen, "(", ⟨2, 16⟩⟩, ⟨.minus, "-", ⟨2, 17⟩⟩, ⟨.leftParen, "(", ⟨2, 18⟩⟩,
      ⟨.minus, "-", ⟨2, 19⟩⟩, ⟨.identifier, "b", ⟨2, 20⟩⟩, ⟨.rightParen, ")", ⟨2, 21⟩⟩,
      ⟨.rightParen, ")", ⟨2, 22⟩⟩, ⟨.rightParen, ")", ⟨2, 23⟩⟩, ⟨.newline, "\n", ⟨2, 24⟩⟩] 15 ⟨3, 1⟩
    (by decide +kernel) (Rule.formOf_accepted.1 (by cbv))
  have compiled' := @compile_payment
    (.unary .negate (.unary .negate (.unary .negate (.global "b"))))
    "--- a\nreceive_money(- - -b)\n" [⟨.leftParen, "(", ⟨2, 14⟩⟩, ⟨.minus, "-", ⟨2, 15⟩⟩,
      ⟨.minus, "-", ⟨2, 17⟩⟩, ⟨.minus, "-", ⟨2, 19⟩⟩, ⟨.identifier, "b", ⟨2, 20⟩⟩,
      ⟨.rightParen, ")", ⟨2, 21⟩⟩, ⟨.newline, "\n", ⟨2, 22⟩⟩] 11 ⟨3, 1⟩
    (by decide +kernel) (Rule.formOf_accepted.1 (by cbv))
  have rendered : (assemble unnamedFile [⟨"a", [.receiveMoney
      (.unary .negate (.unary .negate (.unary .negate (.global "b"))))]⟩]).script.render =
      "--- a\nreceive_money(---b)" := by decide +kernel
  exact ⟨_, _, compiled, compiled', rendered, rendered,
    script_eq_of_views compiled compiled' (.inl rfl)⟩

end EventScript
