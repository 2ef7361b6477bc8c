import EventScript.Text.Utf8
import Mathlib.Data.List.Basic

/-! What is decoded. A byte sequence decodes to a text exactly if it is the text's encoding, and
otherwise it is malformed at the byte behind its longest part that is an encoding. -/

namespace EventScript.Text.Utf8

/-! ## Encoded characters -/

abbrev IsContinuation (byte : UInt8) : Prop :=
  0x80 ≤ byte.toNat ∧ byte.toNat ≤ 0xbf

inductive Encodes : Nat → List UInt8 → Prop
  | one {first : UInt8} {code : Nat} (lead : first.toNat < 0x80) (value : code = first.toNat) :
      Encodes code [first]
  | two {first second : UInt8} {code : Nat} (lead : 0xc2 ≤ first.toNat ∧ first.toNat < 0xe0)
      (next : IsContinuation second)
      (value : code = (first.toNat - 0xc0) * 64 + (second.toNat - 0x80)) :
      Encodes code [first, second]
  | three {first second third : UInt8} {code : Nat}
      (lead : 0xe0 ≤ first.toNat ∧ first.toNat < 0xf0) (next : IsContinuation second)
      (last : IsContinuation third)
      (value : code =
        ((first.toNat - 0xe0) * 64 + (second.toNat - 0x80)) * 64 + (third.toNat - 0x80))
      (shortest : 0x800 ≤ code) (noSurrogate : code < 0xd800 ∨ 0xdfff < code) :
      Encodes code [first, second, third]
  | four {first second third fourth : UInt8} {code : Nat}
      (lead : 0xf0 ≤ first.toNat ∧ first.toNat < 0xf5) (next : IsContinuation second)
      (following : IsContinuation third) (last : IsContinuation fourth)
      (value : code =
        (((first.toNat - 0xf0) * 64 + (second.toNat - 0x80)) * 64 + (third.toNat - 0x80)) * 64
          + (fourth.toNat - 0x80))
      (shortest : 0x10000 ≤ code) (within : code < 0x110000) :
      Encodes code [first, second, third, fourth]

theorem toNat_ofNat_of_lt {value : Nat} (small : value < 256) :
    (UInt8.ofNat value).toNat = value :=
  UInt8.toNat_ofNat_of_lt' small

theorem encodes_char (c : Char) : Encodes c.toNat (String.utf8EncodeChar c) := by
  have valid : c.toNat < 0xd800 ∨ 0xdfff < c.toNat ∧ c.toNat < 0x110000 := c.valid
  have same : c.val.toNat = c.toNat := rfl
  -- The last byte is one of six bits, and so are those before it but the first.
  have six (value : Nat) : (UInt8.ofNat (value % 64 + 128)).toNat = value % 64 + 128 :=
    toNat_ofNat_of_lt (by omega)
  have last := six c.toNat
  have third := six (c.toNat / 64)
  have second := six (c.toNat / 4096)
  unfold String.utf8EncodeChar
  simp only [same]
  split
  · have first : (UInt8.ofNat c.toNat).toNat = c.toNat := toNat_ofNat_of_lt (by omega)
    exact .one (by omega) first.symm
  · split
    · have first : (UInt8.ofNat (c.toNat / 64 % 32 + 192)).toNat = c.toNat / 64 % 32 + 192 :=
        toNat_ofNat_of_lt (by omega)
      exact .two (by omega) (by omega) (by omega)
    · split
      · have first : (UInt8.ofNat (c.toNat / 4096 % 16 + 224)).toNat = c.toNat / 4096 % 16 + 224 :=
          toNat_ofNat_of_lt (by omega)
        exact .three (by omega) (by omega) (by omega) (by omega) (by omega) (by omega)
      · have first : (UInt8.ofNat (c.toNat / 262144 % 8 + 240)).toNat =
            c.toNat / 262144 % 8 + 240 := toNat_ofNat_of_lt (by omega)
        exact .four (by omega) (by omega) (by omega) (by omega) (by omega) (by omega) (by omega)

theorem ofNat_eq_of_toNat {value : Nat} {byte : UInt8} (same : value = byte.toNat) :
    UInt8.ofNat value = byte := by
  rw [same, UInt8.ofNat_toNat]

theorem Encodes.valid {code : Nat} {encoded : List UInt8} (encodes : Encodes code encoded) :
    code.isValidChar := by
  cases encodes with
  | one lead value => exact .inl (by omega)
  | two lead next value => exact .inl (by omega)
  | three lead next last value shortest noSurrogate =>
      rcases noSurrogate with below | above
      · exact .inl below
      · exact .inr ⟨above, by omega⟩
  | four lead next following last value shortest within => exact .inr ⟨by omega, within⟩

theorem Encodes.eq_char {c : Char} {encoded : List UInt8} (encodes : Encodes c.toNat encoded) :
    encoded = String.utf8EncodeChar c := by
  have same : c.val.toNat = c.toNat := rfl
  unfold String.utf8EncodeChar
  simp only [same]
  generalize c.toNat = code at encodes
  cases encodes with
  | one lead value =>
      rw [if_pos (by omega), ofNat_eq_of_toNat value]
  | @two first second _ lead next value =>
      rw [if_neg (by omega), if_pos (by omega), @ofNat_eq_of_toNat _ first (by omega),
        @ofNat_eq_of_toNat _ second (by omega)]
  | @three first second third _ lead next last value shortest noSurrogate =>
      rw [if_neg (by omega), if_neg (by omega), if_pos (by omega),
        @ofNat_eq_of_toNat _ first (by omega), @ofNat_eq_of_toNat _ second (by omega),
        @ofNat_eq_of_toNat _ third (by omega)]
  | @four first second third fourth _ lead next following last value shortest within =>
      rw [if_neg (by omega), if_neg (by omega), if_neg (by omega),
        @ofNat_eq_of_toNat _ first (by omega), @ofNat_eq_of_toNat _ second (by omega),
        @ofNat_eq_of_toNat _ third (by omega), @ofNat_eq_of_toNat _ fourth (by omega)]

theorem Encodes.exists_char {code : Nat} {bytes : List UInt8} (encodes : Encodes code bytes) :
    ∃ c, bytes = String.utf8EncodeChar c := by
  have value : (Char.ofNatAux code encodes.valid).toNat = code := rfl
  rw [← value] at encodes
  exact ⟨_, encodes.eq_char⟩

/-! ## First bytes -/

theorem lead?_one {byte : UInt8} (lead : byte.toNat < 0x80) :
    lead? byte = some ⟨0, 0x80, 0xbf, byte.toNat⟩ := by
  simp only [lead?]
  rw [if_pos lead]

theorem lead?_two {byte : UInt8} (lead : 0xc2 ≤ byte.toNat ∧ byte.toNat < 0xe0) :
    lead? byte = some ⟨1, 0x80, 0xbf, byte.toNat - 0xc0⟩ := by
  simp only [lead?]
  rw [if_neg (by omega), if_neg (by omega), if_pos lead.2]

theorem lead?_three {byte : UInt8} (lead : 0xe0 ≤ byte.toNat ∧ byte.toNat < 0xf0) :
    lead? byte = some ⟨2, if byte.toNat = 0xe0 then 0xa0 else 0x80,
      if byte.toNat = 0xed then 0x9f else 0xbf, byte.toNat - 0xe0⟩ := by
  simp only [lead?]
  rw [if_neg (by omega), if_neg (by omega), if_neg (by omega)]
  split
  · next first => simp [first]
  · split
    · next surrogates => simp [surrogates]
    · rw [if_pos lead.2]

theorem lead?_four {byte : UInt8} (lead : 0xf0 ≤ byte.toNat ∧ byte.toNat < 0xf5) :
    lead? byte = some ⟨3, if byte.toNat = 0xf0 then 0x90 else 0x80,
      if byte.toNat = 0xf4 then 0x8f else 0xbf, byte.toNat - 0xf0⟩ := by
  simp only [lead?]
  rw [if_neg (by omega), if_neg (by omega), if_neg (by omega), if_neg (by omega),
    if_neg (by omega), if_neg (by omega)]
  split
  · next first => simp [first]
  · split
    · next inner => simp; omega
    · next last => simp; omega

theorem lead?_none {byte : UInt8}
    (noLead : 0x80 ≤ byte.toNat ∧ byte.toNat < 0xc2 ∨ 0xf5 ≤ byte.toNat) : lead? byte = none := by
  simp only [lead?]
  rcases noLead with inner | beyond
  · rw [if_neg (by omega), if_pos inner.2]
  · rw [if_neg (by omega), if_neg (by omega), if_neg (by omega), if_neg (by omega),
      if_neg (by omega), if_neg (by omega), if_neg (by omega), if_neg (by omega), if_neg (by omega)]

/-! ## Read characters -/

theorem continuation_succ {count low high code taken result : Nat} {bytes : List UInt8} :
    continuation (count + 1) low high code taken bytes = .ok result ↔
      ∃ byte rest, bytes = byte :: rest ∧ (low ≤ byte.toNat ∧ byte.toNat ≤ high) ∧
        continuation count 0x80 0xbf (code * 64 + (byte.toNat - 0x80)) (taken + 1) rest =
          .ok result := by
  cases bytes with
  | nil => simp [continuation]
  | cons byte rest =>
      by_cases within : low ≤ byte.toNat ∧ byte.toNat ≤ high
      · simp [continuation, within]
      · simp [continuation, within]

theorem within_bounds_iff {tight tight' : Prop} [Decidable tight] [Decidable tight']
    {lowest highest value : Nat} (above : 0x80 ≤ lowest) (below : highest ≤ 0xbf) :
    (if tight then lowest else 0x80) ≤ value ∧ value ≤ (if tight' then highest else 0xbf) ↔
      (0x80 ≤ value ∧ value ≤ 0xbf) ∧ (tight → lowest ≤ value) ∧ (tight' → value ≤ highest) := by
  split <;> split <;> simp [*] <;> omega

theorem encodes_of_lead {byte : UInt8} {others : List UInt8} {lead : Lead} {code : Nat}
    (isLead : lead? byte = some lead)
    (continues : continuation lead.continuations lead.low lead.high lead.bits 1 others = .ok code) :
    ∃ tail rest, others = tail ++ rest ∧ tail.length = lead.continuations ∧
      Encodes code (byte :: tail) := by
  have small := byte.toNat_lt
  by_cases one : byte.toNat < 0x80
  · rw [lead?_one one] at isLead
    cases isLead
    simp only [continuation, Except.ok.injEq] at continues
    exact ⟨[], others, rfl, rfl, .one one continues.symm⟩
  by_cases two : 0xc2 ≤ byte.toNat ∧ byte.toNat < 0xe0
  · rw [lead?_two two] at isLead
    cases isLead
    rcases continuation_succ.1 continues with ⟨second, rest, rfl, next, value⟩
    simp only [continuation, Except.ok.injEq] at value
    exact ⟨[second], rest, rfl, rfl, .two two next value.symm⟩
  by_cases three : 0xe0 ≤ byte.toNat ∧ byte.toNat < 0xf0
  · rw [lead?_three three] at isLead
    cases isLead
    rcases continuation_succ.1 continues with ⟨second, _, rfl, bounds, continues⟩
    rcases continuation_succ.1 continues with ⟨third, rest, rfl, last, value⟩
    simp only [continuation, Except.ok.injEq] at value
    rcases (within_bounds_iff (by decide) (by decide)).1 bounds with ⟨next, lowest, highest⟩
    exact ⟨[second, third], rest, rfl, rfl,
      .three three next last value.symm (by omega) (by omega)⟩
  by_cases four : 0xf0 ≤ byte.toNat ∧ byte.toNat < 0xf5
  · rw [lead?_four four] at isLead
    cases isLead
    rcases continuation_succ.1 continues with ⟨second, _, rfl, bounds, continues⟩
    rcases continuation_succ.1 continues with ⟨third, _, rfl, following, continues⟩
    rcases continuation_succ.1 continues with ⟨fourth, rest, rfl, last, value⟩
    simp only [continuation, Except.ok.injEq] at value
    rcases (within_bounds_iff (by decide) (by decide)).1 bounds with ⟨next, lowest, highest⟩
    exact ⟨[second, third, fourth], rest, rfl, rfl,
      .four four next following last value.symm (by omega) (by omega)⟩
  rw [lead?_none (by omega)] at isLead
  contradiction

theorem exists_lead_of_encodes {code : Nat} {byte : UInt8} {tail : List UInt8}
    (encodes : Encodes code (byte :: tail)) (rest : List UInt8) :
    ∃ lead, lead? byte = some lead ∧ lead.continuations = tail.length ∧
      continuation lead.continuations lead.low lead.high lead.bits 1 (tail ++ rest) = .ok code := by
  generalize whole : byte :: tail = encoded at encodes
  cases encodes with
  | one lead value =>
      cases whole
      exact ⟨_, lead?_one lead, rfl, by rw [continuation, value]⟩
  | two lead next value =>
      cases whole
      refine ⟨_, lead?_two lead, rfl, continuation_succ.2 ⟨_, _, rfl, next, ?_⟩⟩
      rw [continuation, value]
  | three lead next last value shortest noSurrogate =>
      cases whole
      refine ⟨_, lead?_three lead, rfl, continuation_succ.2 ⟨_, _, rfl, ?_,
        continuation_succ.2 ⟨_, _, rfl, last, ?_⟩⟩⟩
      · rw [within_bounds_iff (by decide) (by decide)]
        exact ⟨next, by omega, by omega⟩
      · rw [continuation, value]
  | four lead next following last value shortest within =>
      cases whole
      refine ⟨_, lead?_four lead, rfl, continuation_succ.2 ⟨_, _, rfl, ?_,
        continuation_succ.2 ⟨_, _, rfl, following, continuation_succ.2 ⟨_, _, rfl, last, ?_⟩⟩⟩⟩
      · rw [within_bounds_iff (by decide) (by decide)]
        exact ⟨next, by omega, by omega⟩
      · rw [continuation, value]

/-! ## Byte sequences -/

theorem exists_utf8EncodeChar_cons (c : Char) :
    ∃ byte tail, String.utf8EncodeChar c = byte :: tail := by
  cases encoded : String.utf8EncodeChar c with
  | nil =>
      have encodes := encodes_char c
      rw [encoded] at encodes
      cases encodes
  | cons byte tail => exact ⟨byte, tail, rfl⟩

theorem exists_lead_of_char (c : Char) (rest : List UInt8) :
    ∃ byte tail lead, String.utf8EncodeChar c = byte :: tail ∧ lead? byte = some lead ∧
      lead.continuations = tail.length ∧
      continuation lead.continuations lead.low lead.high lead.bits 1 (tail ++ rest) =
        .ok c.toNat := by
  rcases exists_utf8EncodeChar_cons c with ⟨byte, tail, encoded⟩
  have encodes := encodes_char c
  rw [encoded] at encodes
  rcases exists_lead_of_encodes encodes rest with ⟨lead, isLead, count, continues⟩
  exact ⟨byte, tail, lead, encoded, isLead, count, continues⟩

theorem eq_of_utf8EncodeChar_append {c c' : Char} {rest rest' : List UInt8}
    (same : String.utf8EncodeChar c ++ rest = String.utf8EncodeChar c' ++ rest') :
    c = c' ∧ rest = rest' := by
  have sameChar : c = c' := by
    rcases exists_lead_of_char c rest with ⟨byte, tail, lead, encoded, isLead, _, continues⟩
    rcases exists_lead_of_char c' rest' with ⟨byte', tail', lead', encoded', isLead', _, continues'⟩
    rw [encoded, encoded', List.cons_append, List.cons_append, List.cons.injEq] at same
    rw [same.1, isLead'] at isLead
    injection isLead with sameLead
    rw [same.2, ← sameLead, continues'] at continues
    injection continues with sameCode
    exact (Char.toNat_inj.1 sameCode).symm
  subst sameChar
  exact ⟨rfl, List.append_cancel_left same⟩

def encode (text : String) : List UInt8 :=
  text.toUTF8.data.toList

def encodeChars (chars : List Char) : List UInt8 :=
  chars.flatMap String.utf8EncodeChar

@[simp] theorem encodeChars_nil : encodeChars [] = [] := rfl

theorem encodeChars_cons (c : Char) (chars : List Char) :
    encodeChars (c :: chars) = String.utf8EncodeChar c ++ encodeChars chars := rfl

theorem encode_eq (text : String) : encode text = encodeChars text.toList := by
  rw [encode]
  conv => lhs; rw [← String.ofList_toList (s := text)]
  rw [String.toUTF8_eq_toByteArray, String.toByteArray_ofList, List.utf8Encode]
  simp [encodeChars]

/-- No character is encoded at the beginning. -/
def Stops (bytes : List UInt8) : Prop :=
  ∀ c rest, bytes ≠ String.utf8EncodeChar c ++ rest

theorem decodeFrom_utf8EncodeChar (offset : Nat) (c : Char) (rest : List UInt8) :
    decodeFrom offset (String.utf8EncodeChar c ++ rest) =
      (decodeFrom (offset + (String.utf8EncodeChar c).length) rest).map (c :: ·) := by
  rcases exists_lead_of_char c rest with ⟨byte, tail, lead, encoded, isLead, count, continues⟩
  rw [encoded, List.cons_append, decodeFrom]
  simp only [isLead, continues]
  rw [count, List.drop_left, Char.ofNat_toNat]
  simp only [List.length_cons]
  cases decodeFrom (offset + (tail.length + 1)) rest with
  | error malformed => rfl
  | ok text => rfl

theorem decodeFrom_of_stops {byte : UInt8} {others : List UInt8} (stops : Stops (byte :: others))
    (offset : Nat) :
    ∃ length flaw, decodeFrom offset (byte :: others) = .error ⟨offset, length, byte, flaw⟩ := by
  rw [decodeFrom]
  cases isLead : lead? byte with
  | none => exact ⟨_, _, rfl⟩
  | some lead =>
      cases continues :
          continuation lead.continuations lead.low lead.high lead.bits 1 others with
      | error failure => exact ⟨failure.1, failure.2, by simp only [continues]⟩
      | ok code =>
          rcases encodes_of_lead isLead continues with ⟨tail, rest, rfl, _, encodes⟩
          rcases encodes.exists_char with ⟨c, whole⟩
          exact absurd (congrArg (· ++ rest) whole) (stops _ _)

theorem exists_stops (bytes : List UInt8) :
    ∃ chars behind, bytes = encodeChars chars ++ behind ∧ Stops behind := by
  by_cases stops : Stops bytes
  · exact ⟨[], bytes, rfl, stops⟩
  · simp only [Stops, ne_eq, not_forall, not_not] at stops
    rcases stops with ⟨c, rest, rfl⟩
    have fewer : rest.length < (String.utf8EncodeChar c ++ rest).length := by
      rcases exists_utf8EncodeChar_cons c with ⟨byte, tail, encoded⟩
      rw [encoded, List.length_append, List.length_cons]
      omega
    rcases exists_stops rest with ⟨chars, behind, rfl, stops⟩
    exact ⟨c :: chars, behind, by simp [encodeChars_cons], stops⟩
termination_by bytes.length

theorem decodeFrom_encodeChars_append (offset : Nat) (chars : List Char) (behind : List UInt8) :
    decodeFrom offset (encodeChars chars ++ behind) =
      (decodeFrom (offset + (encodeChars chars).length) behind).map (chars ++ ·) := by
  induction chars generalizing offset with
  | nil =>
      change decodeFrom offset behind = (decodeFrom offset behind).map id
      cases decodeFrom offset behind with
      | error malformed => rfl
      | ok text => rfl
  | cons c others induction =>
      rw [encodeChars_cons, List.append_assoc, decodeFrom_utf8EncodeChar, induction,
        List.length_append, Nat.add_assoc]
      cases decodeFrom (offset + ((String.utf8EncodeChar c).length + (encodeChars others).length))
        behind with
      | error malformed => rfl
      | ok text => rfl

theorem length_le_of_stops {behind : List UInt8} (stops : Stops behind) {chars longer : List Char}
    (isPrefix : encodeChars longer <+: encodeChars chars ++ behind) :
    (encodeChars longer).length ≤ (encodeChars chars).length := by
  induction longer generalizing chars with
  | nil => exact Nat.zero_le _
  | cons c others induction =>
      rcases isPrefix with ⟨rest, whole⟩
      cases chars with
      | nil =>
          rw [encodeChars_cons, List.append_assoc] at whole
          exact absurd whole.symm (stops _ _)
      | cons c' chars =>
          simp only [encodeChars_cons, List.append_assoc] at whole
          rcases eq_of_utf8EncodeChar_append whole with ⟨rfl, wholeRest⟩
          have shorter := induction ⟨rest, wholeRest⟩
          simp only [encodeChars_cons, List.length_append]
          omega

/-! ## Decoding -/

theorem decode_encode (text : String) : decode (encode text) = .ok text := by
  have whole := decodeFrom_encodeChars_append 0 text.toList []
  rw [List.append_nil, decodeFrom] at whole
  rw [decode, encode_eq, whole]
  simp [Except.map]

/-- The byte is the one behind the longest text that the bytes begin with. -/
structure BreaksOff (bytes : List UInt8) (before : String) (byte : UInt8) : Prop where
  split : ∃ behind, bytes = encode before ++ byte :: behind
  longest : ∀ longer, encode longer <+: bytes → (encode longer).length ≤ (encode before).length

theorem exists_breaksOff {bytes : List UInt8} (noText : ∀ text, bytes ≠ encode text) :
    ∃ before malformed, BreaksOff bytes before malformed.byte ∧
      malformed.offset = (encode before).length ∧ decode bytes = .error malformed := by
  rcases exists_stops bytes with ⟨chars, behind, rfl, stops⟩
  have encoded : encodeChars chars = encode (String.ofList chars) := by
    rw [encode_eq, String.toList_ofList]
  cases behind with
  | nil =>
      rw [List.append_nil, encoded] at noText
      exact absurd rfl (noText _)
  | cons byte behind =>
      rcases decodeFrom_of_stops stops (0 + (encodeChars chars).length) with ⟨length, flaw, stopped⟩
      rw [Nat.zero_add] at stopped
      refine ⟨String.ofList chars, ⟨_, length, byte, flaw⟩, ⟨⟨behind, by rw [encoded]⟩, ?_⟩,
        congrArg List.length encoded, ?_⟩
      · intro longer isPrefix
        rw [encode_eq] at isPrefix
        rw [← encoded, encode_eq]
        exact length_le_of_stops stops isPrefix
      · rw [decode, decodeFrom_encodeChars_append, Nat.zero_add, stopped]
        rfl

end EventScript.Text.Utf8
