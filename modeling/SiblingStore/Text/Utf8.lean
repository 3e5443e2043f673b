import SiblingStore.Bytes

/-!
# UTF-8

Encoding and decoding of text as bytes. Decoding accepts exactly the
well-formed sequences: no overlong form, no surrogate, nothing above U+10FFFF.
A refusal says how many bytes were good and how many after them are certainly
wrong, or that the input ends within a character.
-/

namespace SiblingStore.Text.Utf8

def encodeChar (c : Char) : Bytes :=
  let n := c.toNat
  if n < 0x80 then [UInt8.ofNat n]
  else if n < 0x800 then
    [UInt8.ofNat (0xC0 + n / 64), UInt8.ofNat (0x80 + n % 64)]
  else if n < 0x10000 then
    [UInt8.ofNat (0xE0 + n / 4096), UInt8.ofNat (0x80 + n / 64 % 64),
      UInt8.ofNat (0x80 + n % 64)]
  else
    [UInt8.ofNat (0xF0 + n / 262144), UInt8.ofNat (0x80 + n / 4096 % 64),
      UInt8.ofNat (0x80 + n / 64 % 64), UInt8.ofNat (0x80 + n % 64)]

def encode (s : String) : Bytes := s.toList.flatMap encodeChar

inductive Fault where
  /-- After `good` bytes come `width` bytes that start no character. -/
  | invalid (good width : Nat)
  /-- After `good` bytes the input ends within a character. -/
  | incomplete (good : Nat)
  deriving Repr, DecidableEq

def Fault.good : Fault → Nat
  | .invalid good _ | .incomplete good => good

def Fault.message : Fault → String
  | .invalid good width => s!"invalid utf-8 sequence of {width} bytes from index {good}"
  | .incomplete good => s!"incomplete utf-8 byte sequence from index {good}"

def continues (b : UInt8) : Bool := 0x80 ≤ b && b < 0xC0

/-- Whether `b` may follow the first byte `a` of a character of three bytes. -/
def secondOfThree (a b : UInt8) : Bool :=
  continues b && (a != 0xE0 || 0xA0 ≤ b) && (a != 0xED || b < 0xA0)

def secondOfFour (a b : UInt8) : Bool :=
  continues b && (a != 0xF0 || 0x90 ≤ b) && (a != 0xF4 || b < 0x90)

def payload (b : UInt8) : Nat := b.toNat % 64

/-- The characters of `bs`, which starts after `good` bytes of text. -/
def decodeFrom (good : Nat) : Bytes → Except Fault (List Char)
  | [] => .ok []
  | a :: rest =>
    if a < 0x80 then (decodeFrom (good + 1) rest).map (Char.ofNat a.toNat :: ·)
    else if a < 0xC2 then .error (.invalid good 1)
    else if a < 0xE0 then
      match rest with
      | [] => .error (.incomplete good)
      | b :: rest =>
        if continues b then
          (decodeFrom (good + 2) rest).map (Char.ofNat (a.toNat % 32 * 64 + payload b) :: ·)
        else .error (.invalid good 1)
    else if a < 0xF0 then
      match rest with
      | [] => .error (.incomplete good)
      | b :: rest =>
        if secondOfThree a b then
          match rest with
          | [] => .error (.incomplete good)
          | c :: rest =>
            if continues c then
              (decodeFrom (good + 3) rest).map
                (Char.ofNat (a.toNat % 16 * 4096 + payload b * 64 + payload c) :: ·)
            else .error (.invalid good 2)
        else .error (.invalid good 1)
    else if a < 0xF5 then
      match rest with
      | [] => .error (.incomplete good)
      | b :: rest =>
        if secondOfFour a b then
          match rest with
          | [] => .error (.incomplete good)
          | c :: rest =>
            if continues c then
              match rest with
              | [] => .error (.incomplete good)
              | d :: rest =>
                if continues d then
                  (decodeFrom (good + 4) rest).map
                    (Char.ofNat (a.toNat % 8 * 262144 + payload b * 4096 + payload c * 64
                      + payload d) :: ·)
                else .error (.invalid good 3)
            else .error (.invalid good 2)
        else .error (.invalid good 1)
    else .error (.invalid good 1)

def decode (bs : Bytes) : Except Fault String := (decodeFrom 0 bs).map String.ofList

def decode? (bs : Bytes) : Option String := (decode bs).toOption

def size (s : String) : Nat := (encode s).length

end SiblingStore.Text.Utf8
