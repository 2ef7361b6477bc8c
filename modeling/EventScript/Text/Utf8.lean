import EventScript.Text.Decimal
import EventScript.Text.Quoted

/-! UTF-8. A byte sequence decodes to one text or is malformed at a first byte: the
one after the longest part that is well formed. -/

namespace EventScript.Text.Utf8

/-- The shape of a character's encoding, as its first byte tells it: how many bytes
continue it, which values the first of those may have, and the bits that the
first byte itself contributes. -/
structure Lead where
  continuations : Nat
  low : Nat
  high : Nat
  bits : Nat
deriving DecidableEq, Repr

/-- Bounds on the second byte rule out overlong forms, surrogates and values beyond Unicode. -/
def lead? (byte : UInt8) : Option Lead :=
  let value := byte.toNat
  if value < 0x80 then some ⟨0, 0x80, 0xbf, value⟩
  else if value < 0xc2 then none
  else if value < 0xe0 then some ⟨1, 0x80, 0xbf, value - 0xc0⟩
  else if value = 0xe0 then some ⟨2, 0xa0, 0xbf, 0⟩
  else if value = 0xed then some ⟨2, 0x80, 0x9f, 0xd⟩
  else if value < 0xf0 then some ⟨2, 0x80, 0xbf, value - 0xe0⟩
  else if value = 0xf0 then some ⟨3, 0x90, 0xbf, 0⟩
  else if value < 0xf4 then some ⟨3, 0x80, 0xbf, value - 0xf0⟩
  else if value = 0xf4 then some ⟨3, 0x80, 0x8f, 4⟩
  else none

inductive Flaw where
  | invalidStart
  | invalidContinuation
  | truncated
deriving DecidableEq, Repr

namespace Flaw

def text : Flaw → String
  | .invalidStart => "invalid start byte"
  | .invalidContinuation => "invalid continuation byte"
  | .truncated => "unexpected end of data"

end Flaw

structure Malformed where
  offset : Nat
  length : Nat
  byte : UInt8
  flaw : Flaw
deriving DecidableEq, Repr

def continuation : (count low high code taken : Nat) → List UInt8 → Except (Nat × Flaw) Nat
  | 0, _, _, code, _, _ => .ok code
  | _ + 1, _, _, _, taken, [] => .error (taken, .truncated)
  | count + 1, low, high, code, taken, byte :: rest =>
      if low ≤ byte.toNat ∧ byte.toNat ≤ high then
        continuation count 0x80 0xbf (code * 64 + (byte.toNat - 0x80)) (taken + 1) rest
      else .error (taken, .invalidContinuation)

def decodeFrom (offset : Nat) (bytes : List UInt8) : Except Malformed (List Char) :=
  match bytes with
  | [] => .ok []
  | byte :: rest =>
      match lead? byte with
      | none => .error ⟨offset, 1, byte, .invalidStart⟩
      | some lead =>
          match continuation lead.continuations lead.low lead.high lead.bits 1 rest with
          | .error (length, flaw) => .error ⟨offset, length, byte, flaw⟩
          | .ok code =>
              let size := lead.continuations + 1
              match decodeFrom (offset + size) (rest.drop lead.continuations) with
              | .error malformed => .error malformed
              | .ok text => .ok (Char.ofNat code :: text)
termination_by bytes.length

def decode (bytes : List UInt8) : Except Malformed String :=
  (decodeFrom 0 bytes).map String.ofList

namespace Malformed

def byteText (byte : UInt8) : String :=
  "0x" ++ String.ofList (hexDigits 2 byte.toNat)

def message (malformed : Malformed) : String :=
  let place :=
    if malformed.length = 1 then
      "byte " ++ byteText malformed.byte ++ " in position " ++ Decimal.textOfNat malformed.offset
    else
      "bytes in position " ++ Decimal.textOfNat malformed.offset ++ "-"
        ++ Decimal.textOfNat (malformed.offset + malformed.length - 1)
  "'utf-8' codec can't decode " ++ place ++ ": " ++ malformed.flaw.text

end Malformed

end EventScript.Text.Utf8
