import EventScript.Proofs.ExpressionText
import EventScript.Proofs.StatementGrammar

/-! Parentheses. Whatever pieces are written with, the parenthesis that opens the
arguments of an instruction is closed by the last of its tokens, so where an
instruction ends does not depend on how its expressions are read. -/

namespace EventScript

/-! ## Balanced kinds -/

inductive Balanced : List TokenKind → Prop
  | nil : Balanced []
  | plain {kind : TokenKind} (notOpening : kind ≠ .leftParen) (notClosing : kind ≠ .rightParen) :
      Balanced [kind]
  | append {first second : List TokenKind} (left : Balanced first) (right : Balanced second) :
      Balanced (first ++ second)
  | enclosed {inside : List TokenKind} (balanced : Balanced inside) :
      Balanced (.leftParen :: (inside ++ [.rightParen]))

namespace Balanced

theorem cons {kind : TokenKind} {others : List TokenKind} (notOpening : kind ≠ .leftParen)
    (notClosing : kind ≠ .rightParen) (balanced : Balanced others) :
    Balanced (kind :: others) :=
  .append (.plain notOpening notClosing) balanced

theorem of_newlines {kinds : List TokenKind} (breaks : ∀ kind ∈ kinds, kind = .newline) :
    Balanced kinds := by
  induction kinds with
  | nil => exact .nil
  | cons kind others induction =>
      have isBreak := breaks kind (by simp)
      subst isBreak
      have others := induction fun kind member => breaks kind (by simp [member])
      exact .cons (by decide) (by decide) others

theorem of_filter {kinds kept : List TokenKind} (balanced : Balanced kept)
    (filtered : kinds.filter (· != .newline) = kept) : Balanced kinds := by
  induction balanced generalizing kinds with
  | nil =>
      apply of_newlines
      intro kind member
      have dropped := List.filter_eq_nil_iff.1 filtered kind member
      simpa using dropped
  | plain notOpening notClosing =>
      rcases List.filter_eq_cons_iff.1 filtered with ⟨before, after, rfl, skipped, _, rest⟩
      have blankBefore : Balanced before := of_newlines fun kind member => by
        simpa using skipped kind member
      have blankAfter : Balanced after := of_newlines fun kind member => by
        simpa using List.filter_eq_nil_iff.1 rest kind member
      exact .append blankBefore (.cons notOpening notClosing blankAfter)
  | append _ _ leftInduction rightInduction =>
      rcases List.filter_eq_append_iff.1 filtered with ⟨left, right, rfl, leftKept, rightKept⟩
      exact .append (leftInduction leftKept) (rightInduction rightKept)
  | enclosed _ induction =>
      rcases List.filter_eq_cons_iff.1 filtered with ⟨before, others, rfl, skipped, _, rest⟩
      rcases List.filter_eq_append_iff.1 rest with ⟨inside, last, rfl, insideKept, lastKept⟩
      rcases List.filter_eq_cons_iff.1 lastKept with ⟨blank, after, rfl, blankSkipped, _, none⟩
      have newlines : ∀ kinds : List TokenKind, (∀ kind ∈ kinds, ¬(kind != .newline) = true) →
          Balanced kinds := fun kinds skipped => of_newlines fun kind member => by
        simpa using skipped kind member
      have inner := Balanced.append (induction insideKept) (newlines blank blankSkipped)
      have whole := Balanced.append (newlines before skipped) (Balanced.append (.enclosed inner)
        (newlines after (List.filter_eq_nil_iff.1 none)))
      simpa using whole

end Balanced

/-! ## Groups -/

/-- How many tokens there are up to the parenthesis that closes the outermost of those open. -/
def groupLength : Nat → List TokenKind → Nat
  | _, [] => 0
  | depth, .leftParen :: rest => 1 + groupLength (depth + 1) rest
  | depth + 2, .rightParen :: rest => 1 + groupLength (depth + 1) rest
  | _, .rightParen :: _ => 1
  | depth, _ :: rest => 1 + groupLength depth rest

theorem groupLength_plain {kind : TokenKind} (notOpening : kind ≠ .leftParen)
    (notClosing : kind ≠ .rightParen) (depth : Nat) (rest : List TokenKind) :
    groupLength depth (kind :: rest) = 1 + groupLength depth rest :=
  groupLength.eq_5 _ _ _ notOpening notClosing fun _ _ => notClosing

theorem groupLength_newlines {run : List TokenKind} (breaks : ∀ kind ∈ run, kind = .newline)
    (depth : Nat) (rest : List TokenKind) :
    groupLength depth (run ++ rest) = run.length + groupLength depth rest := by
  induction run with
  | nil => simp
  | cons kind others induction =>
      have isBreak := breaks kind (by simp)
      subst isBreak
      rw [List.cons_append, groupLength_plain (by decide) (by decide),
        induction fun kind member => breaks kind (by simp [member]), List.length_cons]
      omega

theorem groupLength_balanced {inside : List TokenKind} (balanced : Balanced inside) (depth : Nat)
    (rest : List TokenKind) :
    groupLength (depth + 1) (inside ++ rest) = inside.length + groupLength (depth + 1) rest := by
  induction balanced generalizing depth rest with
  | nil => simp
  | @plain kind notOpening notClosing =>
      rw [List.singleton_append, groupLength_plain notOpening notClosing, List.length_singleton]
  | append _ _ leftInduction rightInduction =>
      rw [List.append_assoc, leftInduction, rightInduction, List.length_append, Nat.add_assoc]
  | enclosed _ induction =>
      rw [List.cons_append, List.append_assoc, groupLength, induction, List.singleton_append,
        groupLength]
      simp only [List.length_cons, List.length_append, List.length_nil]
      omega

/-! ## Derivations and pieces -/

theorem kind_of_binaryOp?_balanced {token : Token} {op : BinaryOp}
    (found : token.binaryOp? = some op) : Balanced [token.kind] :=
  .plain (Expr.kind_of_binaryOp? found).2.2.1 (Expr.kind_of_binaryOp? found).2.2.2.1

theorem balanced_of_derives {level : Level} {tokens : List Token} {value : Expr}
    (derived : Expr.Derives level tokens value) : Balanced (tokens.map Token.kind) := by
  induction derived with
  | integer isInteger => exact .plain (by simp [isInteger]) (by simp [isInteger])
  | text isText => exact .plain (by simp [isText]) (by simp [isText])
  | truth isTrue =>
      have word := (kind_of_isWord isTrue).1
      exact .plain (by simp [word]) (by simp [word])
  | falsity isFalse =>
      have word := (kind_of_isWord isFalse).1
      exact .plain (by simp [word]) (by simp [word])
  | global isName => exact .plain (by simp [isName]) (by simp [isName])
  | question asks opens isName closes =>
      have word := (kind_of_isWord asks).1
      simp only [List.map_cons, List.map_nil, word, opens, isName, closes]
      exact .cons (by decide) (by decide) (.enclosed (.plain (by decide) (by decide)))
  | enclosed opens _ closes induction =>
      simp only [List.map_cons, List.map_append, List.map_nil, opens, closes]
      exact .enclosed induction
  | negative signs _ induction => exact .cons (by simp [signs]) (by simp [signs]) induction
  | denied denies _ induction =>
      have word := (kind_of_isWord denies).1
      exact .cons (by simp [word]) (by simp [word]) induction
  | compared _ operator _ leftInduction rightInduction =>
      have sign := kind_of_binaryOp?_balanced (Expr.binaryOpAt?_eq_some.1 operator).1
      rw [List.map_append, List.map_cons]
      exact .append leftInduction (.append sign rightInduction)
  | joined _ _ operator _ leftInduction rightInduction =>
      have sign := kind_of_binaryOp?_balanced (Expr.binaryOpAt?_eq_some.1 operator).1
      rw [List.map_append, List.map_cons]
      exact .append leftInduction (.append sign rightInduction)
  | tighter _ induction => exact induction

theorem balanced_of_spells {value : Expr} {tokens : List Token}
    (spells : value.Spells tokens) : Balanced (tokens.map Token.kind) := by
  apply (balanced_of_derives spells.derives).of_filter
  rw [Expr.spoken, List.filter_map]
  rfl

theorem balanced_tokens (e : Expr) : Balanced (e.tokens.map Token.kind) := by
  have lexemes : ∀ blanks, Balanced ((e.lexemes blanks).map Lexeme.kind) := by
    intro blanks
    fun_induction Expr.lexemes e blanks with
    | case5 =>
        exact .cons (by simp) (by simp) (.enclosed (.plain (by simp) (by simp)))
    | case6 op left right blanks leftInduction rightInduction =>
        have operator : Balanced [op.kind] := by
          cases op <;> exact .plain (by decide) (by decide)
        have inside := leftInduction.append (operator.append rightInduction)
        simpa using Balanced.enclosed inside
    | case7 operand blanks induction => exact .cons (by simp) (by simp) induction
    | case8 operand blanks induction => exact .cons (by simp) (by simp) induction
    | case9 operand blanks _ induction => exact .cons (by simp) (by simp) induction
    | _ => exact .plain (by simp) (by simp)
  have kinds := lexemes []
  rw [Expr.tokens, List.map_map]
  exact kinds

theorem kinds_of_breaks {run : List Token} (breaks : TokenStream.Breaks run) :
    ∀ kind ∈ run.map Token.kind, kind = .newline := by
  simpa [TokenStream.Breaks] using breaks

theorem Balanced.of_breaks {run : List Token} (breaks : TokenStream.Breaks run) :
    Balanced (run.map Token.kind) :=
  .of_newlines (kinds_of_breaks breaks)

namespace Piece

/-- The kind of token that a piece is, or counts as if it is an expression. -/
def shape : Piece → TokenKind
  | .sign kind => kind
  | .name _ | .expression _ => .identifier

variable {spelling : Expr → List Token → Prop}

theorem balanced_of_spelled (balanced : ∀ e tokens, spelling e tokens →
      Balanced (tokens.map Token.kind)) {piece : Piece} {tokens : List Token}
    (spelled : piece.Spelled spelling tokens) (notOpening : piece.shape ≠ .leftParen)
    (notClosing : piece.shape ≠ .rightParen) : Balanced (tokens.map Token.kind) := by
  cases spelled with
  | sign breaks =>
      rw [List.map_append]
      exact .append (Balanced.of_breaks breaks) (.plain notOpening notClosing)
  | name breaks isName =>
      rw [List.map_append]
      exact .append (Balanced.of_breaks breaks) (.plain (by simp [isName]) (by simp [isName]))
  | expression spelled => exact balanced _ _ spelled

theorem exists_of_spelled_sign {kind : TokenKind} {tokens : List Token}
    (spelled : (Piece.sign kind).Spelled spelling tokens) :
    ∃ run token, TokenStream.Breaks run ∧ token.kind = kind ∧ tokens = run ++ [token] := by
  cases spelled with
  | sign breaks => exact ⟨_, _, breaks, rfl, rfl⟩

theorem balanced_of_spelledAll (balanced : ∀ e tokens, spelling e tokens →
      Balanced (tokens.map Token.kind)) {kinds : List TokenKind} (shapes : Balanced kinds)
    {pieces : List Piece} (shaped : pieces.map shape = kinds) {tokens : List Token}
    (spelled : SpelledAll spelling pieces tokens) : Balanced (tokens.map Token.kind) := by
  induction shapes generalizing pieces tokens with
  | nil =>
      rw [List.map_eq_nil_iff] at shaped
      subst shaped
      rw [spelledAll_nil.1 spelled]
      exact .nil
  | plain notOpening notClosing =>
      rcases List.map_eq_singleton_iff.1 shaped with ⟨piece, rfl, same⟩
      subst same
      rcases spelledAll_cons.1 spelled with ⟨first, _, rfl, spelled, nothing⟩
      rw [spelledAll_nil.1 nothing, List.append_nil]
      exact balanced_of_spelled balanced spelled notOpening notClosing
  | append _ _ leftInduction rightInduction =>
      rcases List.map_eq_append_iff.1 shaped with ⟨left, right, rfl, leftShaped, rightShaped⟩
      rcases spelledAll_append.1 spelled with ⟨first, second, rfl, leftSpelled, rightSpelled⟩
      rw [List.map_append]
      exact .append (leftInduction leftShaped leftSpelled) (rightInduction rightShaped rightSpelled)
  | enclosed _ induction =>
      rcases List.map_eq_cons_iff.1 shaped with ⟨opening, others, rfl, isOpening, rest⟩
      rcases List.map_eq_append_iff.1 rest with ⟨inside, last, rfl, insideShaped, lastShaped⟩
      rcases List.map_eq_singleton_iff.1 lastShaped with ⟨closing, rfl, isClosing⟩
      cases opening <;> first | contradiction | skip
      cases closing <;> first | contradiction | skip
      simp only [shape] at isOpening isClosing
      subst isOpening isClosing
      simp only [spelledAll_cons, spelledAll_append, spelledAll_nil] at spelled
      rcases spelled with ⟨_, _, rfl, opens, inner, _, rfl, innerSpelled, _, _, rfl, closes, rfl⟩
      rcases exists_of_spelled_sign opens with ⟨before, opening, beforeBreaks, isOpening, rfl⟩
      rcases exists_of_spelled_sign closes with ⟨blank, closing, blankBreaks, isClosing, rfl⟩
      have whole := Balanced.append (Balanced.of_breaks beforeBreaks)
        (.enclosed (.append (induction insideShaped innerSpelled) (Balanced.of_breaks blankBreaks)))
      simpa [isOpening, isClosing] using whole

end Piece

/-! ## Instructions -/

theorem balanced_arguments (instruction : Instruction) : Balanced
    ((Piece.separated (instruction.arguments.map Argument.pieces)).map Piece.shape) := by
  have name : Balanced [.identifier] := .plain (by decide) (by decide)
  have comma : Balanced [.comma] := .plain (by decide) (by decide)
  have pair : Balanced ([.identifier] ++ ([.comma] ++ [.identifier])) :=
    .append name (.append comma name)
  cases instruction with
  | talk textId choices =>
      cases choices with
      | nil => exact name
      | cons first others =>
          have choice : ∀ choice : Choice, Balanced (choice.pieces.map Piece.shape) :=
            fun _ => .enclosed pair
          have more : Balanced ((others.flatMap fun choice =>
              Piece.sign .comma :: choice.pieces).map Piece.shape) := by
            induction others with
            | nil => exact .nil
            | cons second others induction =>
                rw [List.flatMap_cons, List.map_append]
                exact .append (.append comma (choice second)) induction
          have opening : Balanced [.leftBracket] := .plain (by decide) (by decide)
          have closing : Balanced [.rightBracket] := .plain (by decide) (by decide)
          have whole := name.append (comma.append (opening.append
            ((choice first).append (more.append closing))))
          rw [Rule.pieces_talkWithChoices]
          simpa [Piece.shape] using whole
  | jumpIf target condition => exact pair
  | assign target value => exact pair
  | _ => exact name

theorem groupLength_instruction {spelling : Expr → List Token → Prop}
    (balanced : ∀ e tokens, spelling e tokens → Balanced (tokens.map Token.kind))
    {instruction : Instruction} {tokens : List Token}
    (spelled : Piece.SpelledAll spelling instruction.pieces tokens) (rest : List TokenKind) :
    groupLength 0 (tokens.map Token.kind ++ rest) = tokens.length := by
  simp only [Instruction.pieces, Piece.spelledAll_cons, Piece.spelledAll_append,
    Piece.spelledAll_nil] at spelled
  rcases spelled with ⟨_, _, rfl, opens, inner, _, rfl, innerSpelled, _, _, rfl, closes, rfl⟩
  rcases Piece.exists_of_spelled_sign opens with ⟨before, opening, beforeBreaks, isOpening, rfl⟩
  rcases Piece.exists_of_spelled_sign closes with ⟨blank, closing, blankBreaks, isClosing, rfl⟩
  have innerBalanced := Piece.balanced_of_spelledAll balanced (balanced_arguments instruction) rfl
    innerSpelled
  simp only [List.map_append, List.map_cons, List.map_nil, List.append_assoc, isOpening,
    isClosing, List.cons_append, List.nil_append]
  rw [groupLength_newlines (kinds_of_breaks beforeBreaks), groupLength,
    groupLength_balanced innerBalanced,
    groupLength_newlines (kinds_of_breaks blankBreaks), groupLength]
  simp only [List.length_append, List.length_map, List.length_cons, List.length_nil]
  · omega
  · simp

theorem eq_of_spelledAll {spelling spelling' : Expr → List Token → Prop}
    (balanced : ∀ e tokens, spelling e tokens → Balanced (tokens.map Token.kind))
    (balanced' : ∀ e tokens, spelling' e tokens → Balanced (tokens.map Token.kind))
    {instruction other : Instruction} {tokens tokens' rest rest' : List Token}
    (spelled : Piece.SpelledAll spelling instruction.pieces tokens)
    (spelled' : Piece.SpelledAll spelling' other.pieces tokens')
    (same : tokens ++ rest = tokens' ++ rest') : tokens = tokens' := by
  have length := groupLength_instruction balanced spelled (rest.map Token.kind)
  have length' := groupLength_instruction balanced' spelled' (rest'.map Token.kind)
  rw [← List.map_append] at length length'
  rw [same, length'] at length
  exact (List.append_inj same length.symm).1

end EventScript
