import SiblingStore.Text.Utf8
import SiblingStore.Yaml.Cursor

/-!
# Properties of nodes

Before its content a node may have an anchor, by which aliases refer to it, and
a tag, which says of what kind it is. Tags are abbreviated by handles, and lines
that start with a percent sign say which version a document is written in and
what its handles stand for.
-/

namespace SiblingStore.Yaml

def isNameChar (c : Char) : Bool := c.isAlphanum || c = '_' || c = '-'

def takeName (cur : Cursor) : Cursor × List Char :=
  let name := cur.rest.takeWhile isNameChar
  (cur.skip name.length, name)

def skipBlanks (cur : Cursor) : Cursor := cur.skip (cur.rest.takeWhile isBlank).length

/-! ### Anchors -/

def endsAnchor : List Char → Bool
  | [] => true
  | c :: rest =>
    atGap (c :: rest) || ['?', ':', ',', ']', '\x7d', '%', '@', '\x60'].contains c

def anchorName (cur : Cursor) : Option (Cursor × String) :=
  let (cur, name) := takeName cur
  if name.isEmpty || !endsAnchor cur.rest then none else some (cur, String.ofList name)

/-! ### Tags -/

inductive Tag where
  | absent
  /-- A tag that is not from the core schema; its name without the exclamation mark. -/
  | own (name : String)
  /-- A tag with an exclamation mark whose name is not text. -/
  | garbled
  | boolean
  | integer
  | fraction
  | null
  /-- Any other tag, of which nothing follows but that a scalar is text. -/
  | foreign
  deriving DecidableEq

def coreStem : String := "tag:yaml.org,2002:"

def Tag.ofBytes (bs : Bytes) : Tag :=
  match bs with
  | 0x21 :: name =>
    match Text.Utf8.decode? (if name.isEmpty then bs else name) with
    | some name => .own name
    | none => .garbled
  | _ =>
    let names := fun (kind : String) => bs == Text.Utf8.encode (coreStem ++ kind)
    if names "bool" then .boolean
    else if names "int" then .integer
    else if names "float" then .fraction
    else if names "null" then .null
    else .foreign

/-- Whether a character may stand in a tag; in one between angle brackets and in what a
handle stands for, more can. -/
def isTagChar (wide : Bool) (c : Char) : Bool :=
  isNameChar c
    || [';', '/', '?', ':', '@', '&', '=', '+', '$', '.', '%', '!', '~', '*', '\'', '(', ')'].contains c
    || (wide && [',', '[', ']'].contains c)

def tagOctet? : List Char → Option UInt8
  | '%' :: a :: b :: _ => (hexValue [a, b]).map UInt8.ofNat
  | _ => none

def octetCount (b : UInt8) : Option Nat :=
  if b < 0x80 then some 1
  else if b < 0xC0 then none
  else if b < 0xE0 then some 2
  else if b < 0xF0 then some 3
  else if b < 0xF8 then some 4
  else none

def moreOctets : Nat → Cursor → Option (Cursor × Bytes)
  | 0, cur => some (cur, [])
  | n + 1, cur =>
    match tagOctet? cur.rest with
    | some b =>
      if Text.Utf8.continues b then
        (moreOctets n (cur.skip 3)).map fun p => (p.1, b :: p.2)
      else none
    | none => none

/-- Reads the characters of a tag onto `octets`, which have the last one first. -/
def tagText (wide : Bool) : Nat → Cursor → Bytes → Option (Cursor × Bytes)
  | 0, _, _ => none
  | fuel + 1, cur, octets =>
    match cur.rest with
    | [] => some (cur, octets.reverse)
    | c :: _ =>
      if !isTagChar wide c then some (cur, octets.reverse)
      else if c = '%' then
        match tagOctet? cur.rest with
        | none => none
        | some b =>
          match octetCount b with
          | none => none
          | some n =>
            match moreOctets (n - 1) (cur.skip 3) with
            | none => none
            | some (cur, more) => tagText wide fuel cur (more.reverse ++ b :: octets)
      else tagText wide fuel (cur.skip 1) (Bytes.ofChar c :: octets)

def someTagText (wide : Bool) (fuel : Nat) (cur : Cursor) : Option (Cursor × Bytes) :=
  if cur.rest.head?.any (isTagChar wide) then tagText wide fuel cur [] else none

/-- Reads what may be a handle: an exclamation mark, a name and another mark if there is one. -/
def takeHandle (cur : Cursor) : Cursor × List Char :=
  let (cur, name) := takeName (cur.skip 1)
  if cur.rest.head? = some '!' then (cur.skip 1, '!' :: name ++ ['!']) else (cur, '!' :: name)

/-- Reads a tag, at its exclamation mark: its handle, which may be empty, and the rest. -/
def tagParts (fuel : Nat) (cur : Cursor) : Option (Cursor × String × Bytes) :=
  match cur.rest with
  | '!' :: '<' :: _ =>
    match someTagText true fuel (cur.skip 2) with
    | some (cur, text) => if cur.rest.head? = some '>' then some (cur.skip 1, "", text) else none
    | none => none
  | _ =>
    let (cur, handle) := takeHandle cur
    if 1 < handle.length && handle.getLast? = some '!' then
      (someTagText false fuel cur).map fun p => (p.1, String.ofList handle, p.2)
    else
      (tagText false fuel cur (handle.tail.reverse.map Bytes.ofChar)).map fun p =>
        if p.2.isEmpty then (p.1, "", [0x21]) else (p.1, "!", p.2)

def tagProperty (inFlow : Bool) (fuel : Nat) (cur : Cursor) : Option (Cursor × String × Bytes) :=
  (tagParts fuel cur).filter fun p =>
    atGap p.1.rest || (inFlow && p.1.rest.head? = some ',')

/-! ### Directives -/

inductive Directive where
  | version (major minor : Nat)
  /-- The handle stands for the stem. -/
  | handle (handle : String) (stem : Bytes)
  deriving DecidableEq

def versionNumber (cur : Cursor) : Option (Cursor × Nat) :=
  let digits := cur.rest.takeWhile Char.isDigit
  if digits.isEmpty || 9 < digits.length then none
  else some (cur.skip digits.length, digits.foldl (fun n c => 10 * n + (c.toNat - 48)) 0)

def versionDirective (cur : Cursor) : Option (Cursor × Directive) :=
  match versionNumber (skipBlanks cur) with
  | none => none
  | some (cur, major) =>
    if cur.rest.head? = some '.' then
      (versionNumber (cur.skip 1)).map fun p => (p.1, .version major p.2)
    else none

def handleDirective (fuel : Nat) (cur : Cursor) : Option (Cursor × Directive) :=
  let cur := skipBlanks cur
  if cur.rest.head? ≠ some '!' then none
  else
    let (cur, handle) := takeHandle cur
    if handle.getLast? ≠ some '!' || !(cur.rest.head?.any isBlank) then none
    else
      match someTagText true fuel (skipBlanks cur) with
      | some (cur, stem) =>
        if atGap cur.rest then some (cur, .handle (String.ofList handle) stem) else none
      | none => none

/-- Reads a directive, at its percent sign, and the end of its line. -/
def directive (fuel : Nat) (cur : Cursor) : Option (Cursor × Directive) :=
  let (cur, name) := takeName (cur.skip 1)
  let parsed :=
    if !atGap cur.rest then none
    else if name = "YAML".toList then versionDirective cur
    else if name = "TAG".toList then handleDirective fuel cur
    else none
  match parsed with
  | none => none
  | some (cur, d) => (restOfLine cur).map (·, d)

end SiblingStore.Yaml
