import EventScript.Proofs.WrittenLexemes

/-! Escaped texts between quotes. Wherever a lexer meets one, it reads the text back and goes on
right behind the closing quote, on the same line. -/

namespace EventScript

/-! ## Literals -/

namespace Text

def literal (value : String) : String :=
  "\"" ++ escape value ++ "\""

theorem toList_literal (value : String) :
    (literal value).toList = '"' :: (value.toList.flatMap escapeChar ++ ['"']) := by
  simp [literal, escape]

theorem feed_not_mem_escapeChar (c : Char) : '\n' ∉ escapeChar c := by
  unfold escapeChar
  split
  · decide
  · decide
  · decide
  · decide
  · next notFeed _ =>
      rw [List.mem_singleton]
      exact Ne.symm notFeed

theorem feed_not_mem_escape (value : String) : '\n' ∉ (escape value).toList := by
  rw [escape, String.toList_ofList]
  intro member
  rcases List.mem_flatMap.1 member with ⟨c, _, written⟩
  exact feed_not_mem_escapeChar c written

theorem ne_feed_of_mem_literal {value : String} {c : Char} (member : c ∈ (literal value).toList) :
    c ≠ '\n' := by
  intro feed
  simp [literal, feed, feed_not_mem_escape] at member

end Text

/-! ## Reading one token more -/

namespace Scan

variable (lexeme : Lexeme) (scan : Scan) (place : Position)

theorem source_cons :
    (scan.cons lexeme).source = lexeme.blanks ++ lexeme.source ++ scan.source := by
  simp [source, cons, lexemeText]

theorem tokens_cons :
    (scan.cons lexeme).tokens place =
      ⟨lexeme.kind, String.ofList lexeme.value, place.after lexeme.blanks⟩ ::
        scan.tokens (place.after (lexeme.blanks ++ lexeme.source)) :=
  locate_cons place lexeme scan.lexemes

theorem finish_cons :
    (scan.cons lexeme).finish place =
      scan.finish (place.after (lexeme.blanks ++ lexeme.source)) := by
  simp [finish, cons, lexemeText]

end Scan

namespace Lexer

def collect (lexer : Lexer) (token : Token) : Lexer :=
  { lexer with collected := lexer.collected ++ [token] }

theorem move_add (lexer : Lexer) (first second : Nat) :
    lexer.move (first + second) = (lexer.move first).move second := by
  simp [move, List.take_add, List.drop_drop]

theorem tokenize_of_standsBefore {lexer : Lexer} {lexeme : Lexeme} {tail : List Char}
    (ahead : lexer.ahead = lexeme.blanks ++ (lexeme.source ++ tail))
    (stands : lexeme.StandsBefore tail) :
    lexer.tokenize =
      let token : Token :=
        ⟨lexeme.kind, String.ofList lexeme.value, lexer.place.after lexeme.blanks⟩
      let behind := ((lexer.move (lexeme.blanks ++ lexeme.source).length).collect token).tokenize
      (behind.1.map (token :: ·), behind.2) := by
  have scan : Scan.read lexer.ahead = (Scan.read tail).cons lexeme := by
    rw [ahead, Scan.read_of_standsBefore stands]
  have moved : lexer.move ((Scan.read tail).cons lexeme).source.length =
      (lexer.move (lexeme.blanks ++ lexeme.source).length).move (Scan.read tail).source.length := by
    rw [Scan.source_cons, List.length_append, move_add]
  have rest : (lexer.move (lexeme.blanks ++ lexeme.source).length).ahead = tail := by
    rw [move, ahead, ← List.append_assoc, List.drop_left]
  have place : (lexer.move (lexeme.blanks ++ lexeme.source).length).place =
      lexer.place.after (lexeme.blanks ++ lexeme.source) := by
    rw [move, ahead, ← List.append_assoc, List.take_left]
  have collected :
      (lexer.move (lexeme.blanks ++ lexeme.source).length).collected = lexer.collected := rfl
  rw [tokenize, scan, moved, Scan.tokens_cons, Scan.finish_cons, ← place, ← collected]
  -- The rest is read alike from here; the token is collected before or behind it.
  generalize lexer.move (lexeme.blanks ++ lexeme.source).length = behind at rest ⊢
  cases fault : (Scan.read tail).fault with
  | none => simp [tokenize, collect, move, rest, fault, Scan.cons, Except.map]
  | some fault => simp [tokenize, collect, move, rest, fault, Scan.cons, Except.map]

end Lexer

/-! ## Lexers before and behind a text -/

namespace Lexer

/-- The lexer with a text before all that is ahead of it. -/
def facing (lexer : Lexer) (text : String) : Lexer :=
  { lexer with ahead := text.toList ++ lexer.ahead }

/-- The lexer with a text behind it that it has passed on its line. -/
def past (lexer : Lexer) (text : String) : Lexer :=
  { lexer with
    behind := text.toList.reverse ++ lexer.behind
    place := ⟨lexer.place.line, lexer.place.column + text.length⟩ }

theorem move_facing {text : String} (noFeed : ∀ c ∈ text.toList, c ≠ '\n') (lexer : Lexer) :
    (lexer.facing text).move text.toList.length = lexer.past text := by
  simp [move, facing, past, Position.after_eq noFeed, String.length_toList]

variable (lexer : Lexer) (value : String)

theorem readString_facing :
    (lexer.facing (Text.literal value)).readString =
      (.ok value, lexer.past (Text.literal value)) := by
  have inside : (lexer.facing (Text.literal value)).ahead.tail =
      value.toList.flatMap Text.escapeChar ++ '"' :: lexer.ahead := by
    simp [facing, Text.toList_literal]
  have count : (value.toList.flatMap Text.escapeChar).length + 2 =
      (Text.literal value).toList.length := by
    rw [Text.toList_literal, List.length_cons, List.length_append, List.length_singleton]
  rw [readString, inside, Text.LiteralBody.read_escape]
  simp only [Text.LiteralBody.closed, count, move_facing fun _ => Text.ne_feed_of_mem_literal]
  simp

/-- A literal is one token, and the lexer goes on behind it as if it had begun there. -/
theorem tokenize_facing :
    (lexer.facing (Text.literal value)).tokenize =
      let token : Token := ⟨.string, value, lexer.place⟩
      let behind := ((lexer.past (Text.literal value)).collect token).tokenize
      (behind.1.map (token :: ·), behind.2) := by
  have source : (Lexeme.quoted value []).source = (Text.literal value).toList :=
    (Text.toList_literal value).symm
  have ahead : (lexer.facing (Text.literal value)).ahead =
      (Lexeme.quoted value []).blanks ++ ((Lexeme.quoted value []).source ++ lexer.ahead) := by
    rw [source]
    simp [facing, Lexeme.quoted]
  have count : ((Lexeme.quoted value []).blanks ++ (Lexeme.quoted value []).source).length =
      (Text.literal value).toList.length :=
    congrArg List.length source
  rw [tokenize_of_standsBefore ahead (Lexeme.standsBefore_quoted value (by simp)), count,
    move_facing fun _ => Text.ne_feed_of_mem_literal]
  simp [Lexeme.quoted, facing]

/-- An escaped text between quotes is one token with that text as its value, and the lexer goes on
where the rest begins. What any literal was read as can be written so, without a line feed, and
is read back. -/
theorem tokenize_escaped :
    ((lexer.facing (Text.literal value)).tokenize =
      let token : Token := ⟨.string, value, lexer.place⟩
      let behind := ((lexer.past (Text.literal value)).collect token).tokenize
      (behind.1.map (token :: ·), behind.2)) ∧
    ∀ met after : Lexer, met.readString = (.ok value, after) →
      '\n' ∉ (Text.escape value).toList ∧
        (lexer.facing (Text.literal value)).readString =
          (.ok value, lexer.past (Text.literal value)) := by
  refine ⟨tokenize_facing lexer value, ?_⟩
  intro met after _
  exact ⟨Text.feed_not_mem_escape value, readString_facing lexer value⟩

/-- An escaped line feed and a backslash that is escaped for nothing. -/
theorem tokenize_escaped_feed :
    (start "\"\\n\\a\"").readString = (.ok "\na", ⟨"\"\\n\\a\"".toList.reverse, [], ⟨1, 7⟩, []⟩) ∧
      '\n' ∉ (Text.escape "\na").toList ∧
      ((start ")").facing (Text.literal "\na")).readString =
        (.ok "\na", (start ")").past (Text.literal "\na")) :=
  have read : (start "\"\\n\\a\"").readString =
      (.ok "\na", ⟨"\"\\n\\a\"".toList.reverse, [], ⟨1, 7⟩, []⟩) := by decide +kernel
  ⟨read, (tokenize_escaped (start ")") "\na").2 _ _ read⟩

/-- A whole text that begins with a literal. -/
example (rest : String) :
    start (Text.literal value ++ rest) = (start rest).facing (Text.literal value) := by
  simp [start, facing]

end Lexer

end EventScript
