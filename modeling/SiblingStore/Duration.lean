/-!
# Durations

A length of time in whole nanoseconds, at most 2⁶⁴ − 1 seconds and 999 999 999
nanoseconds. The written form takes the largest unit that the length fills and
as many decimal places as it needs.
-/

namespace SiblingStore

structure Duration where
  nanos : Nat
  /-- Below 2⁶⁴ seconds. -/
  bounded : nanos < 18446744073709551616000000000
  deriving DecidableEq

namespace Duration

def max : Duration := ⟨18446744073709551615999999999, by decide⟩

def zero : Duration := ⟨0, by decide⟩

instance : Inhabited Duration := ⟨zero⟩

/-- `n` nanoseconds, or the longest duration if that is less. -/
def ofNanos (n : Nat) : Duration :=
  if h : n < 18446744073709551616000000000 then ⟨n, h⟩ else max

def ofMillis (n : UInt64) : Duration :=
  ⟨n.toNat * 1000000, by have := n.toNat_lt; omega⟩

def ofParts (seconds : UInt64) (nanos : Nat) : Duration :=
  ofNanos (seconds.toNat * 1000000000 + nanos)

def scale (d : Duration) (k : Nat) : Duration := ofNanos (d.nanos * k)

def min (a b : Duration) : Duration := if a.nanos ≤ b.nanos then a else b

def ceilMillis (d : Duration) : Nat := (d.nanos + 999999) / 1000000

def millis (d : Duration) : Nat := d.nanos / 1000000

/-- The decimal places of `n` out of `10 ^ places`, without trailing zeros. -/
def fraction (places n : Nat) : String :=
  let digits := (Nat.toDigits 10 n).leftpad places '0'
  String.ofList ((digits.reverse.dropWhile (· = '0')).reverse)

def decimal (places n : Nat) : String :=
  let part := fraction places (n % Nat.pow 10 places)
  let whole := toString (n / Nat.pow 10 places)
  if part.isEmpty then whole else whole ++ "." ++ part

def text (d : Duration) : String :=
  if 1000000000 ≤ d.nanos then decimal 9 d.nanos ++ "s"
  else if 1000000 ≤ d.nanos then decimal 6 d.nanos ++ "ms"
  else if 1000 ≤ d.nanos then decimal 3 d.nanos ++ "µs"
  else decimal 0 d.nanos ++ "ns"

end Duration

end SiblingStore
