import SiblingStore.Text.Hex

/-!
# Places in a YAML text

A cursor is the rest of a text with the place where it starts. The scalars that
may run over several lines are read here: quoted, plain and block ones, with
their line breaks folded.
-/

namespace SiblingStore.Yaml

structure Cursor where
  rest : List Char
  line : Nat
  column : Nat
  index : Nat

def isBreak (c : Char) : Bool :=
  c = '\n' || c = '\r' || c = '\u0085' || c = '\u2028' || c = '\u2029'

def isBlank (c : Char) : Bool := c = ' ' || c = '\t'

/-- Whether the text ends here or goes on with a blank or a line break. -/
def atGap : List Char → Bool
  | [] => true
  | c :: _ => isBlank c || isBreak c

def isAllowed (c : Char) : Bool :=
  let n := c.toNat
  n = 0x09 || n = 0x0A || n = 0x0D || (0x20 ≤ n && n ≤ 0x7E) || n = 0x85
    || (0xA0 ≤ n && n ≤ 0xD7FF) || (0xE000 ≤ n && n ≤ 0xFFFD) || 0x10000 ≤ n

namespace Cursor

/-- Passes characters; a column is a character wide, whatever its size in bytes. -/
def skip (c : Cursor) (n : Nat) : Cursor where
  rest := c.rest.drop n
  line := c.line
  column := c.column + n
  index := (c.rest.take n).foldl (fun bytes x => bytes + x.utf8Size) c.index

/-- Passes a line break, which is two characters if it is a return and a feed. -/
def skipBreak (c : Cursor) : Cursor :=
  let n := match c.rest with
    | '\r' :: '\n' :: _ => 2
    | _ => 1
  { c.skip n with line := c.line + 1, column := 0 }

/-- The line break that starts the text, as it is kept in a scalar. -/
def breakText (c : Cursor) : List Char :=
  match c.rest with
  | '\u2028' :: _ => ['\u2028']
  | '\u2029' :: _ => ['\u2029']
  | _ => ['\n']

def atMark (c : Cursor) (mark : Char) : Bool :=
  c.column = 0 && match c.rest with
    | a :: b :: d :: rest => a = mark && b = mark && d = mark && atGap rest
    | _ => false

def atDocumentMark (c : Cursor) : Bool := c.atMark '-' || c.atMark '.'

end Cursor

/-! Texts under way are kept with their last character first. -/

/-- Blanks and line breaks between two words of a scalar, each text from its end. -/
structure Gap where
  blanks : List Char := []
  /-- Whether there is a line break among them. -/
  broken : Bool := false
  firstBreak : List Char := []
  moreBreaks : List Char := []

/-- What the gap contributes, from its end: a single line break becomes a space, further
ones are kept, and without any the blanks stay. -/
def Gap.text (g : Gap) : List Char :=
  if !g.broken then g.blanks
  else if g.firstBreak = ['\n'] then
    if g.moreBreaks.isEmpty then [' '] else g.moreBreaks
  else g.moreBreaks ++ g.firstBreak

def Gap.addBreak (g : Gap) (text : List Char) : Gap :=
  if g.broken then { g with moreBreaks := text ++ g.moreBreaks }
  else { g with blanks := [], broken := true, firstBreak := text }

/-- Passes blanks and line breaks. After a line break no tab may stand left of `margin`. -/
def passGap (margin : Nat) : Nat → Cursor → Gap → Option (Cursor × Gap)
  | 0, _, _ => none
  | fuel + 1, cur, gap =>
    match cur.rest with
    | [] => some (cur, gap)
    | c :: _ =>
      if isBlank c then
        if gap.broken then
          if c = '\t' && cur.column < margin then none else passGap margin fuel (cur.skip 1) gap
        else passGap margin fuel (cur.skip 1) { gap with blanks := c :: gap.blanks }
      else if isBreak c then passGap margin fuel cur.skipBreak (gap.addBreak cur.breakText)
      else some (cur, gap)

/-! ### Quoted scalars -/

def escape? : Char → Option Char
  | '0' => some '\x00'
  | 'a' => some '\x07'
  | 'b' => some '\x08'
  | 't' | '\t' => some '\t'
  | 'n' => some '\n'
  | 'v' => some '\x0b'
  | 'f' => some '\x0c'
  | 'r' => some '\r'
  | 'e' => some '\x1b'
  | ' ' => some ' '
  | '"' => some '"'
  | '/' => some '/'
  | '\\' => some '\\'
  | 'N' => some '\u0085'
  | '_' => some '\u00a0'
  | 'L' => some '\u2028'
  | 'P' => some '\u2029'
  | _ => none

def escapeWidth : Char → Option Nat
  | 'x' => some 2
  | 'u' => some 4
  | 'U' => some 8
  | _ => none

def hexValue (digits : List Char) : Option Nat :=
  digits.foldlM (fun n c =>
    if c.toNat < 128 then (Text.Hex.value? (UInt8.ofNat c.toNat)).map (16 * n + ·) else none) 0

def scalarValue? (n : Nat) : Option Char :=
  if (0xD800 ≤ n ∧ n ≤ 0xDFFF) ∨ 0x10FFFF < n then none else some (Char.ofNat n)

/-- Reads the characters up to the next gap or the closing quote. The last part
tells that an escaped line break ended the line. -/
def quotedRun (single : Bool) : Nat → Cursor → List Char → Option (Cursor × List Char × Bool)
  | 0, _, _ => none
  | fuel + 1, cur, text =>
    match cur.rest with
    | [] => some (cur, text, false)
    | c :: rest =>
      if isBlank c || isBreak c then some (cur, text, false)
      else if single then
        if c ≠ '\'' then quotedRun single fuel (cur.skip 1) (c :: text)
        else if rest.head? = some '\'' then quotedRun single fuel (cur.skip 2) ('\'' :: text)
        else some (cur, text, false)
      else if c = '"' then some (cur, text, false)
      else if c = '\\' then
        match rest with
        | [] => none
        | e :: rest =>
          if isBreak e then some ((cur.skip 1).skipBreak, text, true)
          else
            match escape? e, escapeWidth e with
            | some x, _ => quotedRun single fuel (cur.skip 2) (x :: text)
            | none, some width =>
              if (rest.take width).length < width then none
              else
                match (hexValue (rest.take width)).bind scalarValue? with
                | some x => quotedRun single fuel (cur.skip (2 + width)) (x :: text)
                | none => none
            | none, none => none
      else quotedRun single fuel (cur.skip 1) (c :: text)

/-- The text of a quoted scalar after its opening quote, and the place behind it. Fuel
beyond the length of the rest suffices for this and for every part of it. -/
def quotedText (single : Bool) : Nat → Cursor → List Char → Option (Cursor × List Char)
  | 0, _, _ => none
  | fuel + 1, cur, text =>
    if cur.atDocumentMark then none
    else
      match quotedRun single (fuel + 1) cur text with
      | none => none
      | some (cur, text, broken) =>
        match cur.rest with
        | [] => none
        | c :: _ =>
          if !broken && c = (if single then '\'' else '"') then some (cur.skip 1, text.reverse)
          else
            match passGap 0 (fuel + 1) cur { broken } with
            | none => none
            | some (cur, gap) =>
              if cur.rest.isEmpty then none else quotedText single fuel cur (gap.text ++ text)

/-! ### Plain scalars -/

def isFlowIndicator (c : Char) : Bool :=
  c = ',' || c = '[' || c = ']' || c = '\x7b' || c = '\x7d'

def endsPlain (inFlow : Bool) : List Char → Bool
  | [] => true
  | c :: rest =>
    isBlank c || isBreak c || (c = ':' && atGap rest) || (inFlow && isFlowIndicator c)

/-- Whether a colon stands where none may, right before an indicator of a flow. -/
def strayColon (inFlow : Bool) : List Char → Bool
  | ':' :: c :: _ => inFlow && (isFlowIndicator c || c = '?')
  | _ => false

def plainRun (inFlow : Bool) : Nat → Cursor → List Char → Option (Cursor × List Char)
  | 0, _, _ => none
  | fuel + 1, cur, text =>
    match cur.rest with
    | [] => some (cur, text)
    | c :: _ =>
      if isBlank c || isBreak c then some (cur, text)
      else if strayColon inFlow cur.rest then none
      else if endsPlain inFlow cur.rest then some (cur, text)
      else plainRun inFlow fuel (cur.skip 1) (c :: text)

/-- The text of a plain scalar, the place behind it, and whether a line break was
passed after its last word. Lines that go on with it are indented to `margin`. -/
def plainText (inFlow : Bool) (margin : Nat) :
    Nat → Cursor → List Char → Gap → Option (Cursor × List Char × Bool)
  | 0, _, _, _ => none
  | fuel + 1, cur, text, gap =>
    if cur.atDocumentMark || cur.rest.head? = some '#' then some (cur, text.reverse, gap.broken)
    else
      match plainRun inFlow (fuel + 1) cur [] with
      | none => none
      | some (after, word) =>
        let text := if word.isEmpty then text else word ++ gap.text ++ text
        let gap := if word.isEmpty then gap else {}
        match after.rest with
        | [] => some (after, text.reverse, gap.broken)
        | c :: _ =>
          if !(isBlank c || isBreak c) then some (after, text.reverse, gap.broken)
          else
            match passGap margin (fuel + 1) after gap with
            | none => none
            | some (cur, gap) =>
              if !inFlow && cur.column < margin then some (cur, text.reverse, gap.broken)
              else plainText inFlow margin fuel cur text gap

/-! ### Block scalars -/

/-- What becomes of the line breaks at the end of a block scalar. -/
inductive Chomping where
  | clip
  | strip
  | keep

def Cursor.takeChomping (cur : Cursor) : Option (Cursor × Chomping) :=
  match cur.rest with
  | '+' :: _ => some (cur.skip 1, .keep)
  | '-' :: _ => some (cur.skip 1, .strip)
  | _ => none

def Cursor.takeDigit (cur : Cursor) : Cursor × Option Nat :=
  match cur.rest with
  | c :: _ => if c.isDigit then (cur.skip 1, some (c.toNat - 48)) else (cur, none)
  | [] => (cur, none)

/-- Reads the header after the indicator: chomping and explicit indentation, in any order. -/
def blockHeader (cur : Cursor) : Option (Cursor × Chomping × Nat) :=
  let (cur, chomping, digit) :=
    match cur.takeChomping with
    | some (cur, chomping) => (cur.takeDigit.1, chomping, cur.takeDigit.2)
    | none =>
      let (cur, digit) := cur.takeDigit
      match digit.bind fun _ => cur.takeChomping with
      | some (cur, chomping) => (cur, chomping, digit)
      | none => (cur, .clip, digit)
  if digit = some 0 then none else some (cur, chomping, digit.getD 0)

def restOfLine (cur : Cursor) : Option Cursor :=
  let cur := cur.skip (cur.rest.takeWhile isBlank).length
  let cur := if cur.rest.head? = some '#' then
    cur.skip (cur.rest.takeWhile fun c => !isBreak c).length else cur
  match cur.rest with
  | [] => some cur
  | c :: _ => if isBreak c then some cur.skipBreak else none

/-- Passes indentation and empty lines. With `indent = 0` the indentation is still
to be found, as the greatest one seen. -/
def blockIndent (parent : Int) : Nat → Nat → Nat → Cursor → List Char →
    Option (Cursor × Nat × List Char)
  | 0, _, _, _, _ => none
  | fuel + 1, indent, widest, cur, breaks =>
    let spaces := (cur.rest.takeWhile (· = ' ')).length
    let taken := if indent = 0 then spaces else min spaces (indent - cur.column)
    let cur := cur.skip taken
    let widest := max widest cur.column
    let finish := fun (_ : Unit) =>
      let found := max (max widest (parent + 1).toNat) 1
      some (cur, if indent = 0 then found else indent, breaks)
    match cur.rest with
    | [] => finish ()
    | c :: _ =>
      if (indent = 0 || cur.column < indent) && c = '\t' then none
      else if isBreak c then
        blockIndent parent fuel indent widest cur.skipBreak (cur.breakText ++ breaks)
      else finish ()

def blockLines (folded : Bool) (parent : Int) (indent : Nat) :
    Nat → Cursor → List Char → List Char → List Char → Bool →
      Option (Cursor × List Char × List Char × List Char)
  | 0, _, _, _, _, _ => none
  | fuel + 1, cur, text, lead, trail, blankBefore =>
    if cur.column ≠ indent || cur.rest.isEmpty then some (cur, text, lead, trail)
    else
      let blankHere := (cur.rest.head?.map isBlank).getD false
      let joined := if folded && lead = ['\n'] && !blankBefore && !blankHere then
          (if trail.isEmpty then [' '] else [])
        else lead
      let line := cur.rest.takeWhile fun c => !isBreak c
      let text := line.reverse ++ trail ++ joined ++ text
      let cur := cur.skip line.length
      match cur.rest with
      | [] => some (cur, text, [], [])
      | _ :: _ =>
        let lead := cur.breakText
        match blockIndent parent (fuel + 1) indent 0 cur.skipBreak [] with
        | none => none
        | some (cur, _, trail) => blockLines folded parent indent fuel cur text lead trail blankHere

/-- The text of a block scalar after its indicator; `parent` is the indentation around it. -/
def blockText (folded : Bool) (parent : Int) (fuel : Nat) (cur : Cursor) :
    Option (Cursor × List Char) :=
  match blockHeader cur with
  | none => none
  | some (cur, chomping, increment) =>
    match restOfLine cur with
    | none => none
    | some cur =>
      let indent := if increment = 0 then 0 else (max parent 0).toNat + increment
      match blockIndent parent fuel indent 0 cur [] with
      | none => none
      | some (cur, indent, breaks) =>
        match blockLines folded parent indent fuel cur [] [] breaks false with
        | none => none
        | some (cur, text, lead, trail) =>
          let text := match chomping with
            | .strip => text
            | .clip => lead ++ text
            | .keep => trail ++ lead ++ text
          some (cur, text.reverse)

end SiblingStore.Yaml
