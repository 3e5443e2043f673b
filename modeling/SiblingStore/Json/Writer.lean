import SiblingStore.Text.Hex

/-!
# Writing JSON

Compact JSON text: no space between tokens, only quotes, backslashes and control
characters escaped, everything else as it is.
-/

namespace SiblingStore.Json.Writer

def ascii (s : String) : Bytes := s.toList.map Bytes.ofChar

/-- One octet of a string; those of other characters than controls stay. -/
def escape (b : UInt8) : Bytes :=
  if b = 0x22 then [0x5C, 0x22]
  else if b = 0x5C then [0x5C, 0x5C]
  else if b = 0x08 then [0x5C, 0x62]
  else if b = 0x0C then [0x5C, 0x66]
  else if b = 0x0A then [0x5C, 0x6E]
  else if b = 0x0D then [0x5C, 0x72]
  else if b = 0x09 then [0x5C, 0x74]
  else if b < 0x20 then
    [0x5C, 0x75, 0x30, 0x30, Bytes.ofChar (Text.Hex.digit (b.toNat / 16)),
      Bytes.ofChar (Text.Hex.digit (b.toNat % 16))]
  else [b]

def text (s : String) : Bytes := 0x22 :: (Text.Utf8.encode s).flatMap escape ++ [0x22]

def natural (n : Nat) : Bytes := (Nat.toDigits 10 n).map Bytes.ofChar

def integer (n : Int) : Bytes :=
  if n < 0 then 0x2D :: natural n.natAbs else natural n.natAbs

def boolean (b : Bool) : Bytes := ascii (if b then "true" else "false")

def null : Bytes := ascii "null"

def separated : List Bytes → Bytes
  | [] => []
  | [a] => a
  | a :: b :: rest => a ++ 0x2C :: separated (b :: rest)

def list (items : List Bytes) : Bytes := 0x5B :: separated items ++ [0x5D]

def entry (p : String × Bytes) : Bytes := text p.1 ++ 0x3A :: p.2

def object (entries : List (String × Bytes)) : Bytes :=
  0x7B :: separated (entries.map entry) ++ [0x7D]

end SiblingStore.Json.Writer
