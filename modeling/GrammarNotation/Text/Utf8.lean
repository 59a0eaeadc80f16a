import GrammarNotation.Text.Decimal

/-!
# Decoding UTF-8

Bytes are read as UTF-8 strictly: overlong forms, surrogates and numbers above U+10FFFF are
refused. The first fault ends the reading, and it names the bytes at fault: a lead byte together
with those valid continuation bytes that were read after it.

## Main definitions

- `Utf8.Fault` — what is wrong, and where
- `Utf8.decode` — the characters that bytes stand for
- `normalizeNewlines` — every line end made a newline character
-/

namespace GrammarNotation.Text

namespace Utf8

/-- What makes bytes unreadable. -/
inductive Reason where
  /-- A byte that starts no character. -/
  | start
  /-- A byte that cannot continue the character. -/
  | continuation
  /-- A character that the end of the bytes cuts off. -/
  | ending
  deriving DecidableEq

/-- The wording of a reason. -/
def Reason.text : Reason → String
  | .start => "invalid start byte"
  | .continuation => "invalid continuation byte"
  | .ending => "unexpected end of data"

/-- The first unreadable place. -/
structure Fault where
  /-- The value of the first byte at fault. -/
  byte : Nat
  /-- The place of the first byte at fault. -/
  first : Nat
  /-- The place of the last byte at fault. -/
  last : Nat
  reason : Reason
  deriving DecidableEq

/-- The message of a fault. -/
def Fault.message (f : Fault) : String :=
  "'utf-8' codec can't decode "
    ++ (if f.first = f.last then
          "byte 0x" ++ String.ofList (hexDigits 2 f.byte) ++ " in position " ++ decimal f.first
        else "bytes in position " ++ decimal f.first ++ "-" ++ decimal f.last)
    ++ ": " ++ f.reason.text

/-- A character of which only the first bytes have been read. -/
structure Partial where
  lead : Nat
  place : Nat
  bits : Nat
  /-- How many bytes are missing after the next one. -/
  missing : Nat
  /-- The least value that the next byte may have. -/
  low : Nat
  /-- The greatest value that the next byte may have. -/
  high : Nat

/-- What a lead byte announces, or `none` for a byte that starts no longer character. -/
def Partial.ofLead? (place byte : Nat) : Option Partial :=
  if byte < 0xC2 then none
  else if byte < 0xE0 then some ⟨byte, place, byte - 0xC0, 0, 0x80, 0xBF⟩
  else if byte < 0xF0 then
    some ⟨byte, place, byte - 0xE0, 1, if byte = 0xE0 then 0xA0 else 0x80,
      if byte = 0xED then 0x9F else 0xBF⟩
  else if byte < 0xF5 then
    some ⟨byte, place, byte - 0xF0, 2, if byte = 0xF0 then 0x90 else 0x80,
      if byte = 0xF4 then 0x8F else 0xBF⟩
  else none

/-- Decodes the bytes from the place `i` on, `p` being the character that is not yet complete. -/
def decodeFrom : (p : Option Partial) → (i : Nat) → List UInt8 → Except Fault (List Char)
  | none, _, [] => .ok []
  | some p, i, [] => .error ⟨p.lead, p.place, i - 1, .ending⟩
  | none, i, b :: bytes =>
    if b.toNat < 0x80 then (decodeFrom none (i + 1) bytes).map (Char.ofNat b.toNat :: ·)
    else
      match Partial.ofLead? i b.toNat with
      | none => .error ⟨b.toNat, i, i, .start⟩
      | some p => decodeFrom (some p) (i + 1) bytes
  | some p, i, b :: bytes =>
    if p.low ≤ b.toNat ∧ b.toNat ≤ p.high then
      let bits := p.bits * 0x40 + (b.toNat - 0x80)
      match p.missing with
      | 0 => (decodeFrom none (i + 1) bytes).map (Char.ofNat bits :: ·)
      | missing + 1 =>
        decodeFrom (some ⟨p.lead, p.place, bits, missing, 0x80, 0xBF⟩) (i + 1) bytes
    else .error ⟨p.lead, p.place, i - 1, .continuation⟩

/-- The characters that the bytes stand for, or the first fault. -/
def decode (bytes : List UInt8) : Except Fault (List Char) :=
  decodeFrom none 0 bytes

end Utf8

/-- A text with every line end, whether a carriage return, a newline or both, made a newline. -/
def normalizeNewlines : List Char → List Char
  | '\r' :: '\n' :: cs => '\n' :: normalizeNewlines cs
  | '\r' :: cs => '\n' :: normalizeNewlines cs
  | c :: cs => c :: normalizeNewlines cs
  | [] => []

end GrammarNotation.Text
