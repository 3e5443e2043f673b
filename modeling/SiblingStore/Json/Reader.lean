import SiblingStore.Json.Fault

/-!
# Reading JSON

A reader takes a value off the front of a byte string and returns it with the
bytes that follow, or says what is wrong and where. Values are read straight
into the type that is wanted, so a text can be refused for its shape as well as
for its grammar, whichever is met first.
-/

namespace SiblingStore.Json

abbrev Reader (α : Type) := Bytes → Except Fault (α × Bytes)

namespace Reader

variable {α β σ : Type}

def faultAt (cause : Cause) (rest : Bytes) : Except Fault α := .error ⟨cause, rest.length⟩

/-- A fault at the first byte of `rest`, or at the end if there is none. -/
def faultPast (cause : Cause) (rest : Bytes) : Except Fault α := .error ⟨cause, rest.length - 1⟩

def map (f : α → β) (r : Reader α) : Reader β := fun bs =>
  (r bs).map fun p => (f p.1, p.2)

/-! ### Characters -/

def quote : UInt8 := 0x22
def comma : UInt8 := 0x2C
def colon : UInt8 := 0x3A
def backslash : UInt8 := 0x5C
def openBracket : UInt8 := 0x5B
def closeBracket : UInt8 := 0x5D
def openBrace : UInt8 := 0x7B
def closeBrace : UInt8 := 0x7D

def isSpace (b : UInt8) : Bool := b == 0x20 || b == 0x0A || b == 0x09 || b == 0x0D

def skipSpace (bs : Bytes) : Bytes := bs.dropWhile isSpace

def isDigit (b : UInt8) : Bool := 0x30 ≤ b && b ≤ 0x39

def digitValue (b : UInt8) : Nat := b.toNat - 0x30

def word : Bytes → Bytes → Except Fault Bytes
  | [], bs => .ok bs
  | _ :: _, [] => faultAt .valueUnfinished []
  | w :: ws, b :: bs => if b = w then word ws bs else faultAt .badWord bs

/-! ### Strings -/

def fourDigits (a b c d : UInt8) : Option Nat :=
  match Text.Hex.value? a, Text.Hex.value? b, Text.Hex.value? c, Text.Hex.value? d with
  | some a, some b, some c, some d => some (((a * 16 + b) * 16 + c) * 16 + d)
  | _, _, _, _ => none

def shortEscape (b : UInt8) : Option UInt8 :=
  if b = 0x22 then some 0x22
  else if b = 0x5C then some 0x5C
  else if b = 0x2F then some 0x2F
  else if b = 0x62 then some 0x08
  else if b = 0x66 then some 0x0C
  else if b = 0x6E then some 0x0A
  else if b = 0x72 then some 0x0D
  else if b = 0x74 then some 0x09
  else none

def codePoint (n : Nat) : Bytes := Text.Utf8.encodeChar (Char.ofNat n)

def stringOctets : Bytes → Except Fault (Bytes × Bytes)
  | [] => faultAt .stringUnfinished []
  | b :: rest =>
    if b = quote then .ok ([], rest)
    else if b = backslash then
      match rest with
      | [] => faultAt .stringUnfinished []
      | e :: rest =>
        if e = 0x75 then
          match rest with
          | h₁ :: h₂ :: h₃ :: h₄ :: rest =>
            match fourDigits h₁ h₂ h₃ h₄ with
            | none => faultAt .badEscape rest
            | some n =>
              if 0xDC00 ≤ n ∧ n ≤ 0xDFFF then faultAt .loneSurrogate rest
              else if n < 0xD800 ∨ 0xDBFF < n then
                (stringOctets rest).map fun p => (codePoint n ++ p.1, p.2)
              else
                match rest with
                | [] => faultAt .stringUnfinished []
                | s :: rest =>
                  if s ≠ backslash then faultAt .escapeUnfinished rest
                  else
                    match rest with
                    | [] => faultAt .stringUnfinished []
                    | u :: rest =>
                      if u ≠ 0x75 then faultAt .escapeUnfinished rest
                      else
                        match rest with
                        | l₁ :: l₂ :: l₃ :: l₄ :: rest =>
                          match fourDigits l₁ l₂ l₃ l₄ with
                          | none => faultAt .badEscape rest
                          | some m =>
                            if m < 0xDC00 ∨ 0xDFFF < m then faultAt .loneSurrogate rest
                            else
                              (stringOctets rest).map fun p =>
                                (codePoint ((n - 0xD800) * 1024 + (m - 0xDC00) + 0x10000) ++ p.1,
                                  p.2)
                        | _ => faultAt .stringUnfinished []
          | _ => faultAt .stringUnfinished []
        else
          match shortEscape e with
          | some c => (stringOctets rest).map fun p => (c :: p.1, p.2)
          | none => faultAt .badEscape rest
    else if b < 0x20 then faultAt .controlCharacter rest
    else (stringOctets rest).map fun p => (b :: p.1, p.2)

/-- The string whose opening quote has just been passed. If its bytes are not text, the
place of the fault is as many bytes before its end as the string has from there on. -/
def stringTail : Reader String := fun bs =>
  match stringOctets bs with
  | .error f => .error f
  | .ok (octets, rest) =>
    match Text.Utf8.decode octets with
    | .ok s => .ok (s, rest)
    | .error f => .error ⟨.badCodePoint, rest.length + (octets.length - f.good)⟩

/-- Passes over a string after its opening quote; its characters need not make sense. -/
def skipString : Bytes → Except Fault Bytes
  | [] => faultAt .stringUnfinished []
  | b :: rest =>
    if b = quote then .ok rest
    else if b = backslash then
      match rest with
      | [] => faultAt .stringUnfinished []
      | e :: rest =>
        if e = 0x75 then
          match rest with
          | h₁ :: h₂ :: h₃ :: h₄ :: rest =>
            if (fourDigits h₁ h₂ h₃ h₄).isSome then skipString rest
            else faultAt .badEscape rest
          | _ => faultAt .stringUnfinished []
        else if (shortEscape e).isSome then skipString rest
        else faultAt .badEscape rest
    else if b < 0x20 then faultAt .controlCharacter (b :: rest)
    else skipString rest

/-! ### Numbers -/

/-- A number as it is written: whole and not negative, whole and negative, or else. -/
inductive Number where
  | natural (n : Nat)
  /-- The number `-n`, where `n` is not zero. -/
  | negative (n : Nat)
  | float (x : Float)

def Number.found : Number → Found
  | .natural n => .integer n
  | .negative n => .integer (-n)
  | .float x => .float x

/-- Takes digits as long as the number they make stays below 2⁶⁴. -/
def significand (acc : Nat) : Bytes → Nat × Bytes
  | [] => (acc, [])
  | b :: rest =>
    if isDigit b ∧ acc * 10 + digitValue b < UInt64.size then
      significand (acc * 10 + digitValue b) rest
    else (acc, b :: rest)

def powerOfTen (n : Nat) : Float := Float.ofScientific 1 false n

/-- Divides by powers of ten that a binary number can hold. -/
def scaleDown : Nat → Float → Nat → Float
  | 0, x, _ => x
  | fuel + 1, x, n =>
    if n ≤ 308 then x / powerOfTen n
    else if x == 0 then x
    else scaleDown fuel (x / powerOfTen 308) (n - 308)

/-- `s · 10 ^ e`, unless it is too large for a binary number. -/
def toFloat (s : Nat) (e : Int) : Option Float :=
  let x := (UInt64.ofNat s).toFloat
  if e < 0 then some (scaleDown 5 x (-e).toNat)
  else if e ≤ 308 then
    let y := x * powerOfTen e.toNat
    if y.isInf then none else some y
  else if x == 0 then some x else none

def floatNumber (negative : Bool) (s : Nat) (e : Int) (rest : Bytes) :
    Except Fault (Number × Bytes) :=
  match toFloat s e with
  | some x => .ok (.float (if negative then -x else x), rest)
  | none => faultAt .numberOutOfRange rest

/-- Takes the digits of an exponent; `none` if they reach 2³¹. -/
def exponentDigits (acc : Nat) : Bytes → Option Nat × Bytes
  | [] => (some acc, [])
  | b :: rest =>
    if isDigit b then
      if acc * 10 + digitValue b < UInt32.size / 2 then exponentDigits (acc * 10 + digitValue b) rest
      else (none, rest)
    else (some acc, b :: rest)

def exponentTail (negative : Bool) (s : Nat) (e : Int) (bs : Bytes) :
    Except Fault (Number × Bytes) :=
  let (down, bs) := match bs with
    | b :: rest => if b = 0x2B then (false, rest) else if b = 0x2D then (true, rest) else (false, bs)
    | [] => (false, bs)
  match bs with
  | [] => faultAt .valueUnfinished []
  | b :: rest =>
    if isDigit b then
      match exponentDigits (digitValue b) rest with
      | (some n, rest) => floatNumber negative s (if down then e - n else e + n) rest
      | (none, rest) =>
        if s ≠ 0 ∧ !down then faultAt .numberOutOfRange rest
        else .ok (.float (if negative then -0.0 else 0.0), rest.dropWhile isDigit)
    else faultAt .badNumber rest

def exponentPart (negative : Bool) (s : Nat) (e : Int) (bs : Bytes) :
    Except Fault (Number × Bytes) :=
  match bs with
  | b :: rest =>
    if b = 0x65 ∨ b = 0x45 then exponentTail negative s e rest else floatNumber negative s e bs
  | [] => floatNumber negative s e bs

/-- What follows the point. Digits that no longer fit the significand are passed over. -/
def fractionTail (negative : Bool) (s : Nat) (e : Int) (bs : Bytes) :
    Except Fault (Number × Bytes) :=
  let (s', rest) := significand s bs
  let taken := bs.length - rest.length
  match rest with
  | b :: _ =>
    if isDigit b then exponentPart negative s' (e - taken) (rest.dropWhile isDigit)
    else if taken = 0 then faultPast .badNumber rest
    else exponentPart negative s' (e - taken) rest
  | [] =>
    if taken = 0 then faultPast .valueUnfinished [] else exponentPart negative s' (e - taken) []

def numberTail (negative : Bool) (s : Nat) (bs : Bytes) : Except Fault (Number × Bytes) :=
  match bs with
  | b :: rest =>
    if b = 0x2E then fractionTail negative s 0 rest
    else if b = 0x65 ∨ b = 0x45 then exponentTail negative s 0 rest
    else whole bs
  | [] => whole bs
where
  whole (bs : Bytes) : Except Fault (Number × Bytes) :=
    if !negative then .ok (.natural s, bs)
    else if 0 < s ∧ s ≤ UInt64.size / 2 then .ok (.negative s, bs)
    else .ok (.float (-(UInt64.ofNat s).toFloat), bs)

/-- A number with more digits than fit: the others only scale it. -/
def longTail (negative : Bool) (s : Nat) (bs : Bytes) : Except Fault (Number × Bytes) :=
  let rest := bs.dropWhile isDigit
  let e : Int := bs.length - rest.length
  match rest with
  | b :: after =>
    if b = 0x2E then fractionTail negative s e after
    else exponentPart negative s e rest
  | [] => floatNumber negative s e []

def unsigned (negative : Bool) : Reader Number := fun bs =>
  match bs with
  | [] => faultAt .valueUnfinished []
  | b :: rest =>
    if b = 0x30 then
      match rest with
      | c :: _ => if isDigit c then faultPast .badNumber rest else numberTail negative 0 rest
      | [] => numberTail negative 0 rest
    else if isDigit b then
      match significand (digitValue b) rest with
      | (s, c :: rest) =>
        if isDigit c then longTail negative s (c :: rest) else numberTail negative s (c :: rest)
      | (s, []) => numberTail negative s []
    else faultAt .badNumber rest

/-- Passes over a number whose sign has been passed; it may have any size. -/
def skipNumber (bs : Bytes) : Except Fault Bytes :=
  match bs with
  | [] => faultAt .badNumber []
  | b :: rest =>
    if b = 0x30 then
      match rest with
      | c :: _ => if isDigit c then faultPast .badNumber rest else fraction rest
      | [] => .ok []
    else if isDigit b then fraction (rest.dropWhile isDigit)
    else faultAt .badNumber rest
where
  fraction (bs : Bytes) : Except Fault Bytes :=
    match bs with
    | b :: rest =>
      if b = 0x2E then
        match rest with
        | c :: _ =>
          if isDigit c then exponent (rest.dropWhile isDigit) else faultPast .badNumber rest
        | [] => faultPast .badNumber []
      else exponent bs
    | [] => .ok []
  exponent (bs : Bytes) : Except Fault Bytes :=
    match bs with
    | b :: rest =>
      if b = 0x65 ∨ b = 0x45 then
        let rest := match rest with
          | c :: after => if c = 0x2B ∨ c = 0x2D then after else rest
          | [] => rest
        match rest with
        | c :: after =>
          if isDigit c then .ok (after.dropWhile isDigit) else faultAt .badNumber after
        | [] => faultAt .badNumber []
      else .ok bs
    | [] => .ok []

/-! ### Values that are passed over -/

/-- A list or object that has been opened. -/
inductive Frame where
  | list
  | object

def Frame.closing : Frame → UInt8
  | .list => closeBracket
  | .object => closeBrace

def Frame.unfinished : Frame → Cause
  | .list => .listUnfinished
  | .object => .objectUnfinished

def Frame.separator : Frame → Cause
  | .list => .expectedCommaOrBracket
  | .object => .expectedCommaOrBrace

def colonNext (bs : Bytes) : Except Fault Bytes :=
  match skipSpace bs with
  | [] => faultPast .objectUnfinished []
  | b :: rest => if b = colon then .ok rest else faultPast .expectedColon (b :: rest)

/-- Passes over what comes before a value in the frame: nothing, or a key. -/
def Frame.enter (f : Frame) (bs : Bytes) : Except Fault Bytes :=
  match f with
  | .list => .ok bs
  | .object =>
    match skipSpace bs with
    | [] => faultPast .objectUnfinished []
    | b :: rest =>
      if b = quote then
        match skipString rest with
        | .error f => .error f
        | .ok rest => colonNext rest
      else faultPast .keyNotText (b :: rest)

/-- Closes the frames that end here. Those left open have a value to come;
`item` tells whether the innermost has had one. -/
def settle : Bool → List Frame → Bytes → Except Fault (List Frame × Bytes)
  | _, [], bs => .ok ([], bs)
  | item, f :: outer, bs =>
    match skipSpace bs with
    | [] => faultPast f.unfinished []
    | b :: rest =>
      if b = comma ∧ item then (f.enter rest).map (f :: outer, ·)
      else if b = f.closing then settle true outer rest
      else if item then faultPast f.separator (b :: rest)
      else (f.enter (b :: rest)).map (f :: outer, ·)

/-- Passes over the start of a value: all of a scalar, the opening of anything else. -/
def skipStart (bs : Bytes) : Except Fault (Option Frame × Bytes) :=
  match skipSpace bs with
  | [] => faultPast .valueUnfinished []
  | b :: rest =>
    if b = 0x6E then (word [0x75, 0x6C, 0x6C] rest).map (none, ·)
    else if b = 0x74 then (word [0x72, 0x75, 0x65] rest).map (none, ·)
    else if b = 0x66 then (word [0x61, 0x6C, 0x73, 0x65] rest).map (none, ·)
    else if b = 0x2D then (skipNumber rest).map (none, ·)
    else if isDigit b then (skipNumber (b :: rest)).map (none, ·)
    else if b = quote then (skipString rest).map (none, ·)
    else if b = openBracket then .ok (some .list, rest)
    else if b = openBrace then .ok (some .object, rest)
    else faultPast .expectedValue (b :: rest)

/-- Passes over values until no frame is open. Every turn takes a byte or more,
so as many turns as there are bytes suffice. -/
def skipWithin : Nat → List Frame → Bytes → Except Fault Bytes
  | 0, _, bs => faultPast .valueUnfinished bs
  | fuel + 1, outer, bs =>
    match skipStart bs with
    | .error f => .error f
    | .ok (opened, rest) =>
      let settled := match opened with
        | none => settle true outer rest
        | some f => settle false (f :: outer) rest
      match settled with
      | .error f => .error f
      | .ok ([], rest) => .ok rest
      | .ok (f :: outer, rest) => skipWithin fuel (f :: outer) rest

def skipValue (bs : Bytes) : Except Fault Bytes := skipWithin (bs.length + 1) [] bs

/-! ### Scalars -/

/-- The complaint that the value which starts with `b` is not what was `expected`.
The value itself is read first, and its own fault comes before the complaint. -/
def mismatch (expected : String) (b : UInt8) (rest : Bytes) : Except Fault α :=
  let complain (p : Found × Bytes) : Except Fault α := faultAt (.invalidType p.1 expected) p.2
  if b = 0x6E then (word [0x75, 0x6C, 0x6C] rest).bind fun r => complain (.null, r)
  else if b = 0x74 then (word [0x72, 0x75, 0x65] rest).bind fun r => complain (.boolean true, r)
  else if b = 0x66 then
    (word [0x61, 0x6C, 0x73, 0x65] rest).bind fun r => complain (.boolean false, r)
  else if b = 0x2D then (unsigned true rest).bind fun p => complain (p.1.found, p.2)
  else if isDigit b then (unsigned false (b :: rest)).bind fun p => complain (p.1.found, p.2)
  else if b = quote then (stringTail rest).bind fun p => complain (.text p.1, p.2)
  else if b = openBracket then complain (.list, b :: rest)
  else if b = openBrace then complain (.object, b :: rest)
  else faultPast .expectedValue (b :: rest)

def text : Reader String := fun bs =>
  match skipSpace bs with
  | [] => faultPast .valueUnfinished []
  | b :: rest => if b = quote then stringTail rest else mismatch "a string" b rest

def boolean : Reader Bool := fun bs =>
  match skipSpace bs with
  | [] => faultPast .valueUnfinished []
  | b :: rest =>
    if b = 0x74 then (word [0x72, 0x75, 0x65] rest).map (true, ·)
    else if b = 0x66 then (word [0x61, 0x6C, 0x73, 0x65] rest).map (false, ·)
    else mismatch "a boolean" b rest

def number (expected : String) : Reader Number := fun bs =>
  match skipSpace bs with
  | [] => faultPast .valueUnfinished []
  | b :: rest =>
    if b = 0x2D then unsigned true rest
    else if isDigit b then unsigned false (b :: rest)
    else mismatch expected b rest

def natural (limit : Nat) (expected : String) : Reader Nat := fun bs =>
  match number expected bs with
  | .error f => .error f
  | .ok (.natural n, rest) =>
    if n ≤ limit then .ok (n, rest) else faultAt (.invalidValue (.integer n) expected) rest
  | .ok (.negative n, rest) => faultAt (.invalidValue (.integer (-n)) expected) rest
  | .ok (.float x, rest) => faultAt (.invalidType (.float x) expected) rest

def word64 : Reader UInt64 :=
  map UInt64.ofNat (natural (UInt64.size - 1) "u64")

def octet : Reader UInt8 := map UInt8.ofNat (natural 255 "an octet")

def integer64 : Reader Int := fun bs =>
  let expected := "i64"
  match number expected bs with
  | .error f => .error f
  | .ok (.natural n, rest) =>
    if n < UInt64.size / 2 then .ok (n, rest) else faultAt (.invalidValue (.integer n) expected) rest
  | .ok (.negative n, rest) => .ok (-n, rest)
  | .ok (.float x, rest) => faultAt (.invalidType (.float x) expected) rest

def option (r : Reader α) : Reader (Option α) := fun bs =>
  match skipSpace bs with
  | b :: rest =>
    if b = 0x6E then (word [0x75, 0x6C, 0x6C] rest).map (none, ·) else map some r (b :: rest)
  | [] => map some r []

/-! ### Lists and objects -/

/-- Stands before the next element of a list, or at the end of the list; `first`
tells that no element has been read. -/
def nextElement (first : Bool) (bs : Bytes) : Except Fault (Bool × Bytes) :=
  match skipSpace bs with
  | [] => faultPast .listUnfinished []
  | b :: rest =>
    if b = closeBracket then .ok (false, b :: rest)
    else if first then .ok (true, b :: rest)
    else if b = comma then
      match skipSpace rest with
      | [] => faultPast .valueUnfinished []
      | c :: rest =>
        if c = closeBracket then faultPast .trailingComma (c :: rest) else .ok (true, c :: rest)
    else faultPast .expectedCommaOrBracket (b :: rest)

def nextKey (first : Bool) (bs : Bytes) : Except Fault (Option String × Bytes) :=
  match skipSpace bs with
  | [] => faultPast .objectUnfinished []
  | b :: rest =>
    if b = closeBrace then .ok (none, b :: rest)
    else if first then key (b :: rest)
    else if b = comma then
      match skipSpace rest with
      | [] => faultPast .valueUnfinished []
      | c :: rest =>
        if c = closeBrace then faultPast .trailingComma (c :: rest) else key (c :: rest)
    else faultPast .expectedCommaOrBrace (b :: rest)
where
  key (bs : Bytes) : Except Fault (Option String × Bytes) :=
    match bs with
    | b :: rest => if b = quote then map some stringTail rest else faultPast .keyNotText bs
    | [] => faultPast .keyNotText []

/-- Passes the end of a list. The fault says where reading stopped. -/
def endList (bs : Bytes) : Except Fault Bytes :=
  match skipSpace bs with
  | [] => faultPast .listUnfinished []
  | b :: rest =>
    if b = closeBracket then .ok rest
    else if b = comma then
      match skipSpace rest with
      | c :: rest =>
        if c = closeBracket then faultPast .trailingComma (c :: rest)
        else faultPast .trailingCharacters (c :: rest)
      | [] => faultPast .trailingCharacters []
    else faultPast .trailingCharacters (b :: rest)

def pastList (bs : Bytes) : Bytes :=
  match skipSpace bs with
  | [] => []
  | b :: rest =>
    if b = closeBracket then rest else if b = comma then skipSpace rest else b :: rest

def endObject (bs : Bytes) : Except Fault Bytes :=
  match skipSpace bs with
  | [] => faultPast .objectUnfinished []
  | b :: rest =>
    if b = closeBrace then .ok rest
    else if b = comma then faultPast .trailingComma (b :: rest)
    else faultPast .trailingCharacters (b :: rest)

def pastObject (bs : Bytes) : Bytes :=
  match skipSpace bs with
  | [] => []
  | b :: rest => if b = closeBrace then rest else b :: rest

/-- What the reader of a list or object has so far: a value, or a cause whose
place is only known once the end has been tried. -/
abbrev Unplaced (α : Type) := Except Fault (Except Cause α × Bytes)

def closeList : Unplaced α → Except Fault (α × Bytes)
  | .error f => .error f
  | .ok (.ok a, rest) => (endList rest).map (a, ·)
  | .ok (.error c, rest) => faultAt c (pastList rest)

def closeObject : Unplaced α → Except Fault (α × Bytes)
  | .error f => .error f
  | .ok (.ok a, rest) => (endObject rest).map (a, ·)
  | .ok (.error c, rest) => faultAt c (pastObject rest)

def elements (r : Reader α) : Nat → Bool → Bytes → Except Fault (List α × Bytes)
  | 0, _, bs => faultPast .listUnfinished bs
  | fuel + 1, first, bs =>
    match nextElement first bs with
    | .error f => .error f
    | .ok (false, rest) => .ok ([], rest)
    | .ok (true, rest) =>
      match r rest with
      | .error f => .error f
      | .ok (a, rest) => (elements r fuel false rest).map fun p => (a :: p.1, p.2)

def listOf (r : Reader α) : Reader (List α) := fun bs =>
  match skipSpace bs with
  | [] => faultPast .valueUnfinished []
  | b :: rest =>
    if b = openBracket then
      match elements r (rest.length + 1) true rest with
      | .error f => .error f
      | .ok (as, rest) => (endList rest).map (as, ·)
    else mismatch "a sequence" b rest

/-- The remaining entries of an object, a repeated key as often as it stands there. -/
def entries (r : Reader α) : Nat → Bool → Bytes → Except Fault (List (String × α) × Bytes)
  | 0, _, bs => faultPast .objectUnfinished bs
  | fuel + 1, first, bs =>
    match nextKey first bs with
    | .error f => .error f
    | .ok (none, rest) => .ok ([], rest)
    | .ok (some k, rest) =>
      match colonNext rest with
      | .error f => .error f
      | .ok rest =>
        match r rest with
        | .error f => .error f
        | .ok (a, rest) => (entries r fuel false rest).map fun p => ((k, a) :: p.1, p.2)

def entriesOf (r : Reader α) : Reader (List (String × α)) := fun bs =>
  match skipSpace bs with
  | [] => faultPast .valueUnfinished []
  | b :: rest =>
    if b = openBrace then
      match entries r (rest.length + 1) true rest with
      | .error f => .error f
      | .ok (ps, rest) => (endObject rest).map (ps, ·)
    else mismatch "a map" b rest

def exactly (count : Nat) (expected : String) (r : Reader α) : Reader (List α) := fun bs =>
  match skipSpace bs with
  | [] => faultPast .valueUnfinished []
  | b :: rest =>
    if b = openBracket then closeList (take 0 count true rest) else mismatch expected b rest
where
  take (index : Nat) : Nat → Bool → Bytes → Unplaced (List α)
    | 0, _, bs => .ok (.ok [], bs)
    | n + 1, first, bs =>
      match nextElement first bs with
      | .error f => .error f
      | .ok (false, rest) => .ok (.error (.invalidLength index expected), rest)
      | .ok (true, rest) =>
        match r rest with
        | .error f => .error f
        | .ok (a, rest) =>
          (take (index + 1) n false rest).map fun p => (p.1.map (a :: ·), p.2)

/-! ### Objects with named fields -/

structure Field (σ : Type) where
  name : String
  isSet : σ → Bool
  read : σ → Reader σ

/-- An object with named fields. It may also be written as the list of the
values of its fields, in order. -/
structure Shape (σ α : Type) where
  expected : String
  fields : List (Field σ)
  start : σ
  /-- The value of a draft, or the first field that it lacks. -/
  finish : σ → Except Cause α

namespace Shape

/-- The fields that are still to come in an object. A name that is not a field's
is passed over with its value. -/
def named (fields : List (Field σ)) : Nat → Bool → σ → Bytes → Unplaced σ
  | 0, _, _, bs => faultPast .objectUnfinished bs
  | fuel + 1, first, draft, bs =>
    match nextKey first bs with
    | .error f => .error f
    | .ok (none, rest) => .ok (.ok draft, rest)
    | .ok (some k, rest) =>
      match fields.find? (·.name = k) with
      | some field =>
        if field.isSet draft then .ok (.error (.duplicateField k), rest)
        else
          match colonNext rest with
          | .error f => .error f
          | .ok rest =>
            match field.read draft rest with
            | .error f => .error f
            | .ok (draft, rest) => named fields fuel false draft rest
      | none =>
        match colonNext rest with
        | .error f => .error f
        | .ok rest =>
          match skipValue rest with
          | .error f => .error f
          | .ok rest => named fields fuel false draft rest

def counted (expected : String) (n : Nat) : String :=
  s!"{expected} with {n} element" ++ if n = 1 then "" else "s"

def listed (expected : String) (index : Nat) : List (Field σ) → Bool → σ → Bytes → Unplaced σ
  | [], _, draft, bs => .ok (.ok draft, bs)
  | field :: fields, first, draft, bs =>
    match nextElement first bs with
    | .error f => .error f
    | .ok (false, rest) => .ok (.error (.invalidLength index expected), rest)
    | .ok (true, rest) =>
      match field.read draft rest with
      | .error f => .error f
      | .ok (draft, rest) => listed expected (index + 1) fields false draft rest

def reader (s : Shape σ α) : Reader α := fun bs =>
  match skipSpace bs with
  | [] => faultPast .valueUnfinished []
  | b :: rest =>
    if b = openBrace then
      closeObject <| (named s.fields (rest.length + 1) true s.start rest).map fun p =>
        (p.1.bind s.finish, p.2)
    else if b = openBracket then
      closeList <|
        (listed (counted s.expected s.fields.length) 0 s.fields true s.start rest).map fun p =>
          (p.1.bind s.finish, p.2)
    else mismatch s.expected b rest

end Shape

/-! ### Whole texts -/

/-- Reads a text that holds one value and nothing else but space. -/
def run (r : Reader α) (input : Bytes) : Except Fault α :=
  match r input with
  | .error f => .error f
  | .ok (a, rest) =>
    match skipSpace rest with
    | [] => .ok a
    | b :: rest => faultPast .trailingCharacters (b :: rest)

end Reader

end SiblingStore.Json
