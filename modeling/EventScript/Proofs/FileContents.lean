import EventScript.Project.Build
import EventScript.Proofs.Decoding
import Mathlib.Data.List.DropRight
import Mathlib.Data.List.Induction

/-! What is read from files. A file that holds the encoding of a text compiles as the text does.
Any other file is refused at the byte where it breaks off, on the line that a lexer has reached
there; the column is the lexer's too if the line is ASCII so far, and lies behind it otherwise. -/

namespace EventScript

namespace Text

/-! ## Last lines -/

def lastLine (chars : List Char) : List Char :=
  chars.rtakeWhile (· != '\n')

@[simp] theorem lastLine_append_feed (chars : List Char) : lastLine (chars ++ ['\n']) = [] := by
  simp [lastLine]

theorem lastLine_append_of_ne {c : Char} (noFeed : c ≠ '\n') (chars : List Char) :
    lastLine (chars ++ [c]) = lastLine chars ++ [c] := by
  simp [lastLine, noFeed]

theorem after_start_eq (chars : List Char) :
    Position.start.after chars = ⟨chars.count '\n' + 1, (lastLine chars).length + 1⟩ := by
  induction chars using List.reverseRecOn with
  | nil => rfl
  | append_singleton chars c induction =>
      rw [Position.after_append, induction, Position.after_cons, Position.after_nil]
      by_cases feed : c = '\n'
      · simp [Position.next, feed]
      · simp [Position.next, feed, lastLine_append_of_ne]

def IsAscii (chars : List Char) : Prop :=
  ∀ c ∈ chars, c.toNat < 0x80

namespace Utf8

/-! ## Bytes of a text -/

/-- A character of ASCII is its own byte, and no other has a byte of ASCII. -/
theorem Encodes.ascii_or {code : Nat} {bytes : List UInt8} (encodes : Encodes code bytes) :
    (code < 0x80 ∧ ∃ byte, bytes = [byte] ∧ byte.toNat = code) ∨
      (0x80 ≤ code ∧ 1 < bytes.length ∧ ∀ byte ∈ bytes, 0x80 ≤ byte.toNat) := by
  cases encodes with
  | one lead value => exact .inl ⟨by omega, _, rfl, value.symm⟩
  | two lead next value =>
      refine .inr ⟨by omega, by simp, ?_⟩
      simp only [List.forall_mem_cons]
      exact ⟨by omega, next.1, by simp⟩
  | three lead next last value shortest noSurrogate =>
      refine .inr ⟨by omega, by simp, ?_⟩
      simp only [List.forall_mem_cons]
      exact ⟨by omega, next.1, last.1, by simp⟩
  | four lead next following last value shortest within =>
      refine .inr ⟨by omega, by simp, ?_⟩
      simp only [List.forall_mem_cons]
      exact ⟨by omega, next.1, following.1, last.1, by simp⟩

theorem feed_not_mem_utf8EncodeChar {c : Char} (noFeed : c ≠ '\n') :
    10 ∉ String.utf8EncodeChar c := by
  intro member
  rcases (encodes_char c).ascii_or with ⟨_, byte, encoded, code⟩ | ⟨_, _, beyond⟩
  · rw [encoded, List.mem_singleton] at member
    subst member
    exact noFeed (Char.toNat_inj.1 code.symm)
  · exact absurd (beyond 10 member) (by decide)

theorem length_le_encodeChars (chars : List Char) : chars.length ≤ (encodeChars chars).length := by
  induction chars with
  | nil => exact Nat.le_refl _
  | cons c others induction =>
      rw [encodeChars_cons, List.length_append, List.length_cons]
      rcases (encodes_char c).ascii_or with ⟨_, byte, encoded, _⟩ | ⟨_, more, _⟩
      · simp only [encoded, List.length_singleton]
        omega
      · omega

theorem length_encodeChars_eq_iff (chars : List Char) :
    (encodeChars chars).length = chars.length ↔ IsAscii chars := by
  induction chars with
  | nil => simp [IsAscii]
  | cons c others induction =>
      have atLeast := length_le_encodeChars others
      rw [encodeChars_cons, List.length_append, List.length_cons, IsAscii, List.forall_mem_cons]
      change _ ↔ _ ∧ IsAscii others
      rw [← induction]
      rcases (encodes_char c).ascii_or with ⟨ascii, byte, encoded, _⟩ | ⟨beyond, more, _⟩
      · simp only [encoded, List.length_singleton]
        omega
      · omega

theorem encodeChars_append_singleton (chars : List Char) (c : Char) :
    encodeChars (chars ++ [c]) = encodeChars chars ++ String.utf8EncodeChar c := by
  simp [encodeChars]

theorem utf8EncodeChar_feed : String.utf8EncodeChar '\n' = [10] := by
  decide

theorem count_encodeChars (chars : List Char) :
    (encodeChars chars).count 10 = chars.count '\n' := by
  induction chars using List.reverseRecOn with
  | nil => rfl
  | append_singleton chars c induction =>
      rw [encodeChars_append_singleton, List.count_append, List.count_append, induction]
      by_cases feed : c = '\n'
      · simp [feed, utf8EncodeChar_feed]
      · simp [feed, List.count_eq_zero.2 (feed_not_mem_utf8EncodeChar feed)]

theorem takeWhile_reverse_encodeChars (chars : List Char) :
    (encodeChars chars).reverse.takeWhile (· != 10) = (encodeChars (lastLine chars)).reverse := by
  induction chars using List.reverseRecOn with
  | nil => rfl
  | append_singleton chars c induction =>
      rw [encodeChars_append_singleton, List.reverse_append]
      by_cases feed : c = '\n'
      · simp [feed, utf8EncodeChar_feed]
      · have inside : ∀ byte ∈ (String.utf8EncodeChar c).reverse, (byte != 10) = true := by
          intro byte member
          have apart : byte ≠ 10 := by
            rintro rfl
            exact feed_not_mem_utf8EncodeChar feed (List.mem_reverse.1 member)
          simpa using apart
        rw [List.takeWhile_append_of_pos inside, induction, lastLine_append_of_ne feed,
          encodeChars_append_singleton, List.reverse_append]

end Utf8

end Text

/-! ## Places of bytes -/

open Text Text.Utf8

/-- A byte that breaks off a text stands on the line that the text has reached. Its column counts
the bytes of that line. -/
theorem Text.Utf8.Malformed.place_of_append {before : String} {behind : List UInt8}
    {malformed : Malformed} (offset : malformed.offset = (encode before).length) :
    malformed.place (encode before ++ behind) =
      ⟨before.toList.count '\n' + 1, (encodeChars (lastLine before.toList)).length + 1⟩ := by
  rw [Malformed.place, offset, List.take_left, encode_eq, count_encodeChars,
    takeWhile_reverse_encodeChars, List.length_reverse]

theorem Lexer.place_move_start (text : String) :
    ((Lexer.start text).move text.length).place =
      ⟨text.toList.count '\n' + 1, (lastLine text.toList).length + 1⟩ := by
  rw [Lexer.move, Lexer.start, ← String.length_toList, List.take_length]
  exact after_start_eq text.toList

/-! ## Files -/

theorem Text.Utf8.Malformed.diagnostic_of_append {before : String} {behind : List UInt8}
    {malformed : Malformed} (offset : malformed.offset = (encode before).length) (file : Path) :
    malformed.diagnostic file (encode before ++ behind) =
      { message := "File is not valid UTF-8 (byte " ++ byteText malformed.byte ++ ")"
        context := some
          { file := file
            line := ((Lexer.start before).move before.length).place.line
            column := ((encodeChars (lastLine before.toList)).length + 1 : Nat)
            excerpt := none } } := by
  have reported : malformed.place (encode before ++ behind) = _ := place_of_append offset
  have reached := Lexer.place_move_start before
  unfold diagnostic
  rw [reported, reached]

variable {tree : FileTree} {directory : Place} {path : Path} {bytes : List UInt8}

/-- A file that holds a text compiles as that text. A file that holds none is refused at the byte
behind the longest text that it begins with, on the line that a lexer stands on behind that
text; the column is the lexer's exactly if the text's last line is ASCII, and beyond it if not. -/
theorem FileTree.compileFile_of_read (read : tree.read directory path = .ok bytes) :
    (∀ text, bytes = encode text → tree.compileFile directory path = .ok (compile path text)) ∧
    ((∀ text, bytes ≠ encode text) →
      ∃ before byte, ∃ column : Nat, BreaksOff bytes before byte ∧
        let place := ((Lexer.start before).move before.length).place
        tree.compileFile directory path = .ok (.error
          { message := "File is not valid UTF-8 (byte " ++ Malformed.byteText byte ++ ")"
            context := some
              { file := path, line := place.line, column := column, excerpt := none } }) ∧
        (column = place.column ↔ IsAscii (lastLine before.toList)) ∧
        (¬IsAscii (lastLine before.toList) → place.column < column)) := by
  have compiled : tree.compileFile directory path = .ok (compileBytes path bytes) := by
    simp only [compileFile, read, Except.map]
  rw [compiled]
  constructor
  · rintro text rfl
    simp only [compileBytes, decode_encode]
  · intro noText
    rcases exists_breaksOff noText with ⟨before, malformed, breaks, offset, failed⟩
    rcases breaks.split with ⟨behind, split⟩
    have reached := Lexer.place_move_start before
    have atLeast := length_le_encodeChars (lastLine before.toList)
    have exactly := length_encodeChars_eq_iff (lastLine before.toList)
    have refused : compileBytes path bytes = .error (malformed.diagnostic path bytes) := by
      simp only [compileBytes, failed]
    refine ⟨before, malformed.byte, (encodeChars (lastLine before.toList)).length + 1, breaks,
      ?_, ?_, ?_⟩
    · rw [refused, split, Malformed.diagnostic_of_append offset]
    · rw [reached, ← exactly]
      exact Nat.add_right_cancel_iff
    · intro beyond
      rw [← exactly] at beyond
      rw [reached]
      dsimp only
      omega

/-- An accented letter takes two bytes, which are two columns where the next byte is refused. -/
theorem FileTree.compileFile_of_read_accented :
    let path : Path := ⟨.relative, ["a"]⟩
    let bytes : List UInt8 := [0xc3, 0xa9, 0xff]
    let tree : FileTree := ⟨[(["a"], bytes)], []⟩
    tree.read [] path = .ok bytes ∧ (∀ text, bytes ≠ encode text) ∧
      ∃ before byte, BreaksOff bytes before byte ∧
        ((Lexer.start before).move before.length).place.line = 1 ∧
        (3 = ((Lexer.start before).move before.length).place.column ↔
          IsAscii (lastLine before.toList)) ∧
        tree.compileFile [] path = .ok (.error ⟨"File is not valid UTF-8 (byte 0xff)",
          some ⟨path, 1, 3, none⟩⟩) := by
  intro path bytes tree
  have read : tree.read [] path = .ok bytes := by decide +kernel
  have noText : ∀ text, bytes ≠ encode text := by
    intro text same
    have failed : decode bytes = .error ⟨2, 1, 0xff, .invalidStart⟩ := by decide +kernel
    rw [same, decode_encode] at failed
    contradiction
  have compiled : tree.compileFile [] path = .ok (.error ⟨"File is not valid UTF-8 (byte 0xff)",
      some ⟨path, 1, 3, none⟩⟩) := by decide +kernel
  rcases (compileFile_of_read read).2 noText with ⟨before, byte, column, breaks, refused, ascii, _⟩
  rw [compiled] at refused
  simp only [Except.ok.injEq, Except.error.injEq, Diagnostic.mk.injEq, Option.some.injEq,
    Context.mk.injEq] at refused
  rcases refused with ⟨_, _, line, sameColumn, _⟩
  have column : column = 3 := by exact_mod_cast sameColumn.symm
  subst column
  exact ⟨read, noText, before, byte, breaks, by exact_mod_cast line.symm, ascii, compiled⟩

end EventScript
