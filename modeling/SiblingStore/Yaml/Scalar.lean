import SiblingStore.Text.Hex

/-!
# What plain scalars mean

The core schema: a few words stand for null, true and false, and a number may be
written in decimal or with a radix mark. Anything else is text.
-/

namespace SiblingStore.Yaml.Scalar

def isNull (s : String) : Bool := ["null", "Null", "NULL", "~"].contains s

def boolean? (s : String) : Option Bool :=
  if ["true", "True", "TRUE"].contains s then some true
  else if ["false", "False", "FALSE"].contains s then some false
  else none

def digitValue? (c : Char) : Option Nat :=
  if c.toNat < 128 then Text.Hex.value? (UInt8.ofNat c.toNat) else none

def digits? (radix : Nat) (ds : List Char) : Option Nat :=
  if ds.isEmpty then none
  else ds.foldlM (fun n c =>
    match digitValue? c with
    | some d => if d < radix then some (n * radix + d) else none
    | none => none) 0

def marked? : List Char → Option Nat
  | '0' :: 'x' :: ds => digits? 16 ds
  | '0' :: 'o' :: ds => digits? 8 ds
  | '0' :: 'b' :: ds => digits? 2 ds
  | _ => none

/-- Zeros in front of further digits make a text of what would be a number. -/
def hasLeadingZero (cs : List Char) : Bool :=
  let cs := match cs with
    | '-' :: rest | '+' :: rest => rest
    | _ => cs
  match cs with
  | '0' :: rest => !rest.isEmpty && rest.all Char.isDigit
  | _ => false

def dropPlus : List Char → List Char
  | '+' :: rest => rest
  | cs => cs

def natural? (cs : List Char) : Option Nat :=
  let body := dropPlus cs
  match marked? body with
  | some n => some n
  | none => if hasLeadingZero cs then none else digits? 10 body

def negated? (cs : List Char) : Option Nat :=
  match cs with
  | '-' :: body =>
    match marked? body with
    | some n => some n
    | none => if hasLeadingZero cs then none else digits? 10 body
  | _ => none

/-- Digits, a point among or beside them, and an exponent: the digits before and
after the point, and the exponent. -/
def decimalParts? (cs : List Char) : Option (List Char × List Char × Int) :=
  let whole := cs.takeWhile Char.isDigit
  let rest := cs.dropWhile Char.isDigit
  let (part, rest) := match rest with
    | '.' :: rest => (rest.takeWhile Char.isDigit, rest.dropWhile Char.isDigit)
    | _ => ([], rest)
  if whole.isEmpty && part.isEmpty then none
  else
    match rest with
    | [] => some (whole, part, 0)
    | e :: rest =>
      if e = 'e' || e = 'E' then
        let (negative, ds) := match rest with
          | '-' :: ds => (true, ds)
          | '+' :: ds => (false, ds)
          | ds => (false, ds)
        (digits? 10 ds).map fun n => (whole, part, if negative then -n else n)
      else none

/-- Whether a binary number of 64 bits can hold a decimal one: it is less than the
middle between the greatest such number and the next power of two. -/
def isFinite (parts : List Char × List Char × Int) : Bool :=
  let (whole, part, e) := parts
  let n := (digits? 10 (whole ++ part)).getD 0
  let e := e - part.length
  let magnitude := (Nat.toDigits 10 n).length + e
  let limit := Nat.pow 2 1024 - Nat.pow 2 970
  n = 0 || magnitude < 309
    || (magnitude = 309 && n * Nat.pow 10 e.toNat < limit * Nat.pow 10 (-e).toNat)

/-- Whether a text is a number, of any size a binary number can have, or a word for
infinity or for no number. -/
def isFraction (s : String) : Bool :=
  let special := [".inf", ".Inf", ".INF", "+.inf", "+.Inf", "+.INF", "-.inf", "-.Inf", "-.INF",
    ".nan", ".NaN", ".NAN"].contains s
  let body := match s.toList with
    | '-' :: rest | '+' :: rest => rest
    | cs => cs
  special || (decimalParts? body).any isFinite

inductive Meaning where
  | nothing
  | boolean (b : Bool)
  /-- A number of 64 bits. -/
  | natural (n : Nat)
  /-- A number of 64 bits with a minus sign, which zero may have too. -/
  | negated (n : Nat)
  /-- A whole number that takes more than 64 bits, and no more than 128. -/
  | huge
  | fraction
  | text
  deriving DecidableEq

/-- The whole number of a text, if it has no more than 128 bits. -/
def whole? (s : String) : Option Meaning :=
  let cs := s.toList
  let word := UInt64.size
  let wide := word * word
  match natural? cs, negated? cs with
  | some n, _ => if n < word then some (.natural n) else if n < wide then some .huge else none
  | none, some n =>
    if n ≤ word / 2 then some (.negated n) else if n ≤ wide / 2 then some .huge else none
  | none, none => none

/-- What a plain scalar of this text stands for. Whole numbers beyond 128 bits are
fractions if they are decimal, and texts if not. -/
def meaning (s : String) : Meaning :=
  if s.isEmpty || isNull s then .nothing
  else
    match boolean? s, whole? s with
    | some b, _ => .boolean b
    | none, some m => m
    | none, none => if !hasLeadingZero s.toList && isFraction s then .fraction else .text

end SiblingStore.Yaml.Scalar
