import EventScript.Text.Alphabet
import EventScript.Text.Decimal
import EventScript.Text.Literal
import Mathlib.Algebra.Ring.Nat
import Mathlib.Data.List.Induction

/-! What is written down reads back: texts between quotes, and whole numbers in
digits. -/

namespace EventScript.Text

/-! ## String literals -/

theorem LiteralBody.read_escapeChar (c : Char) (rest : List Char) :
    LiteralBody.read (escapeChar c ++ rest) =
      ⟨c :: (read rest).value, escapeChar c ++ (read rest).source, (read rest).rest⟩ := by
  unfold escapeChar
  split
  · simp [read, unescape]
  · simp [read, unescape]
  · simp [read, unescape]
  · simp [read, unescape]
  · next notBackslash notQuote notFeed notTab =>
      have plain : ¬(c = '"' ∨ c = '\n') := by
        intro holds
        rcases holds with quote | feed
        · exact notQuote quote
        · exact notFeed feed
      rw [List.singleton_append, read.eq_def]
      simp [plain, show c ≠ '\\' from notBackslash]

theorem LiteralBody.read_escape (value rest : List Char) :
    LiteralBody.read (value.flatMap escapeChar ++ '"' :: rest) =
      ⟨value, value.flatMap escapeChar, '"' :: rest⟩ := by
  induction value with
  | nil =>
      rw [List.flatMap_nil, List.nil_append, read.eq_def]
      simp
  | cons c value induction =>
      rw [List.flatMap_cons, List.append_assoc, read_escapeChar, induction]

/-! ## Numerals -/

namespace Decimal

theorem isDigit_of_mem_ofNat {number : Nat} {c : Char} (member : c ∈ ofNat number) :
    isDigit c = true := by
  have digit := Nat.isDigit_of_mem_toDigits (by decide) (by decide) member
  simp only [Char.isDigit, ge_iff_le, Bool.and_eq_true, decide_eq_true_eq] at digit
  simp only [isDigit, Bool.and_eq_true, decide_eq_true_eq]
  exact digit

theorem ofNat_ne_nil (number : Nat) : ofNat number ≠ [] :=
  Nat.toDigits_ne_nil

theorem toNat_ofNat (number : Nat) : toNat (ofNat number) = number := by
  have digits := Nat.ofDigitChars_ten_toDigits (n := number)
  rw [Nat.ofDigitChars_eq_foldl] at digits
  simpa only [toNat, ofNat, Nat.mul_comm] using digits

theorem length_ofNat_le {number count : Nat} (positive : 0 < count)
    (bounded : number < 10 ^ count) : (ofNat number).length ≤ count :=
  (Nat.length_toDigits_le_iff (by decide) positive).2 bounded

theorem toNat_append_singleton (digits : List Char) (last : Char) :
    toNat (digits ++ [last]) = toNat digits * 10 + (last.toNat - '0'.toNat) := by
  simp [toNat]

theorem toNat_lt {digits : List Char} (allDigits : ∀ c ∈ digits, isDigit c = true) :
    toNat digits < 10 ^ digits.length := by
  induction digits using List.reverseRecOn with
  | nil => simp [toNat]
  | append_singleton digits last induction =>
      have lower := induction fun c member => allDigits c (List.mem_append_left _ member)
      have digit := allDigits last (by simp)
      have small : last.toNat - '0'.toNat ≤ 9 := by
        simp only [isDigit, Bool.and_eq_true, decide_eq_true_eq] at digit
        have upper : last.toNat ≤ '9'.toNat := digit.2
        simp at upper ⊢
        omega
      rw [toNat_append_singleton, List.length_append, List.length_singleton, Nat.pow_succ]
      omega

end Decimal

end EventScript.Text
