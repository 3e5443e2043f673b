/-!
# Shortest decimals of binary fractions

A binary64 number is written with the fewest decimal digits that read back as
it, and among those with the ones nearest to it. All arithmetic is exact: the
number is `significand · 2 ^ exponent`, and a decimal reads back as it when it
lies between the midpoints to the two neighbouring numbers, which belong to the
interval just if the significand is even.
-/

namespace SiblingStore.Decimal

/-- A positive binary number `significand · 2 ^ exponent`. `tight` marks the
lowest significand of a binade, below which the neighbour is half as far. -/
structure Binary where
  significand : Nat
  exponent : Int
  tight : Bool
  deriving Repr, DecidableEq

/-- A decimal number `digits · 10 ^ exponent`. -/
structure Scientific where
  digits : Nat
  exponent : Int
  deriving Repr, DecidableEq

/-- The parts of a finite number other than zero, its sign left out. -/
def Binary.ofBits (bits : UInt64) : Binary :=
  let fraction : Nat := bits.toNat % Nat.pow 2 52
  let biased : Nat := bits.toNat / Nat.pow 2 52 % Nat.pow 2 11
  if biased = 0 then ⟨fraction, -1074, false⟩
  else ⟨Nat.pow 2 52 + fraction, (biased : Int) - 1075, fraction = 0 && 1 < biased⟩

namespace Shortest

/-- The distances to compare, all over one denominator. -/
structure Interval where
  low : Nat
  value : Nat
  high : Nat
  denominator : Nat
  closed : Bool

def interval (b : Binary) : Interval :=
  let unit := Nat.pow 2 (b.exponent - 2).toNat
  { low := (4 * b.significand - if b.tight then 1 else 2) * unit
    value := 4 * b.significand * unit
    high := (4 * b.significand + 2) * unit
    denominator := Nat.pow 2 (2 - b.exponent).toNat
    closed := b.significand % 2 = 0 }

/-- Whether `d · 10 ^ k` reads back as the number. -/
def Interval.holds (i : Interval) (d : Nat) (k : Int) : Bool :=
  let up := Nat.pow 10 (-k).toNat
  let point := d * i.denominator * Nat.pow 10 k.toNat
  if i.closed then i.low * up ≤ point && point ≤ i.high * up
  else i.low * up < point && point < i.high * up

/-- The nearest multiple of `10 ^ k` that reads back, if one does; of two equally
near ones the even multiple. -/
def Interval.nearest? (i : Interval) (k : Int) : Option Nat :=
  let num := i.value * Nat.pow 10 (-k).toNat
  let den := i.denominator * Nat.pow 10 k.toNat
  let below := num / den
  let rest := num % den
  let upFirst := den < 2 * rest || (den = 2 * rest && below % 2 = 1)
  let order := if upFirst then [below + 1, below] else [below, below + 1]
  order.find? (i.holds · k)

def search (i : Interval) : Nat → Int → Scientific
  | 0, k => ⟨0, k⟩
  | fuel + 1, k =>
    match i.nearest? k with
    | some d => ⟨d, k⟩
    | none => search i fuel (k - 1)

def startExponent (i : Interval) : Int :=
  if i.denominator ≤ i.value then (Nat.toDigits 10 (i.value / i.denominator)).length
  else 1 - ((Nat.toDigits 10 (i.denominator / i.value)).length : Int)

/-- The fewest digits that read back. Twenty grids always suffice. -/
def ofBinary (b : Binary) : Scientific :=
  let i := interval b
  search i 20 (startExponent i)

end Shortest

def Scientific.positional (s : Scientific) : String :=
  let ds := Nat.toDigits 10 s.digits
  if 0 ≤ s.exponent then String.ofList (ds ++ List.replicate s.exponent.toNat '0')
  else
    let places := (-s.exponent).toNat
    let ds := ds.leftpad (places + 1) '0'
    String.ofList (ds.take (ds.length - places) ++ '.' :: ds.drop (ds.length - places))

/-- Sign and magnitude of a number around a rendering of its shortest decimal. -/
def render (x : Float) (zero : String) (finite : Scientific → String) : String :=
  if x.isNaN then "NaN"
  else
    let sign := if x.toBits ≥ 0x8000000000000000 then "-" else ""
    if x.isInf then sign ++ "inf"
    else if x.toBits % 0x8000000000000000 = 0 then sign ++ zero
    else sign ++ finite (Shortest.ofBinary (Binary.ofBits (x.toBits % 0x8000000000000000)))

def plain (x : Float) : String := render x "0" Scientific.positional

/-- Notation that always shows a point or an exponent: positional while the point
is at most sixteen digits in and at most four zeros before them, with a signed
exponent otherwise. -/
def pointed (x : Float) : String :=
  render x "0.0" fun s =>
    let ds := Nat.toDigits 10 s.digits
    let point := ds.length + s.exponent
    if 0 ≤ s.exponent && point ≤ 16 then s.positional ++ ".0"
    else if -5 < point && point ≤ 16 then s.positional
    else
      let tail := match ds with
        | d :: d' :: rest => d :: '.' :: d' :: rest
        | short => short
      String.ofList tail ++ (if 0 < point then "e+" else "e") ++ toString (point - 1)

end SiblingStore.Decimal
