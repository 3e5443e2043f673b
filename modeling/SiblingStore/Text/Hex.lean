import SiblingStore.Bytes
import SiblingStore.Text.Quoted
import SiblingStore.Text.Utf8

/-!
# Hexadecimal text

Bytes written as pairs of digits, the high half first. Writing uses lower case,
reading accepts both.
-/

namespace SiblingStore.Text.Hex

def digit (n : Nat) : Char :=
  if n < 10 then Char.ofNat (0x30 + n) else Char.ofNat (0x57 + n)

def encodeChars (bs : Bytes) : List Char :=
  bs.flatMap fun b => [digit (b.toNat / 16), digit (b.toNat % 16)]

def encode (bs : Bytes) : String := String.ofList (encodeChars bs)

def value? (b : UInt8) : Option Nat :=
  if 0x30 ≤ b ∧ b ≤ 0x39 then some (b.toNat - 0x30)
  else if 0x61 ≤ b ∧ b ≤ 0x66 then some (b.toNat - 0x57)
  else if 0x41 ≤ b ∧ b ≤ 0x46 then some (b.toNat - 0x37)
  else none

inductive Fault where
  | oddLength
  | badDigit (octet : UInt8) (index : Nat)
  deriving Repr, DecidableEq

def Fault.message : Fault → String
  | .oddLength => "Odd number of digits"
  | .badDigit octet index =>
    s!"Invalid character {Quoted.char (Char.ofNat octet.toNat)} at position {index}"

/-- Reads pairs of digits; the first of them stands at `index`. -/
def decodePairs (index : Nat) : Bytes → Except Fault Bytes
  | [] => .ok []
  | [_] => .error .oddLength
  | h :: l :: rest =>
    match value? h with
    | none => .error (.badDigit h index)
    | some high =>
      match value? l with
      | none => .error (.badDigit l (index + 1))
      | some low => (decodePairs (index + 2) rest).map (UInt8.ofNat (16 * high + low) :: ·)

/-- An odd length is refused before any digit is looked at. -/
def decodeOctets (bs : Bytes) : Except Fault Bytes :=
  if bs.length % 2 = 1 then .error .oddLength else decodePairs 0 bs

def decode (s : String) : Except Fault Bytes := decodeOctets (Utf8.encode s)

end SiblingStore.Text.Hex
