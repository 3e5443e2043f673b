import SiblingStore.Yaml.Property

/-!
# Tokens of a YAML text

Indentation and flows are turned into a list of tokens in which the start and
end of every collection is explicit. A key is only known to be one when its
colon comes, so the place of a possible key is remembered on every level of
flow, and the tokens of a key and of the mapping it starts are put there later.
-/

namespace SiblingStore.Yaml

inductive Form where
  | plain
  /-- A block whose line breaks are kept. -/
  | literal
  /-- In quotes, or a block whose lines are joined. -/
  | other
  deriving DecidableEq

inductive Token where
  | directive (d : Directive)
  | documentStart
  | documentEnd
  | sequenceStart
  | mappingStart
  /-- The end of a sequence or mapping that was written by indentation. -/
  | blockEnd
  | flowSequenceStart
  | flowSequenceEnd
  | flowMappingStart
  | flowMappingEnd
  | blockEntry
  | flowEntry
  | key
  | value
  | reference (name : String)
  | anchor (name : String)
  | tag (handle : String) (rest : Bytes)
  | scalar (text : List Char) (form : Form)
  deriving DecidableEq

namespace Token

structure KeyPlace where
  /-- How many tokens come before it. -/
  position : Nat
  line : Nat
  column : Nat
  index : Nat
  /-- Whether nothing else than a key can stand there. -/
  required : Bool

structure Scanner where
  cursor : Cursor
  tokens : Array Token
  indent : Int
  outerIndents : List Int
  /-- The possible key outside all flows. -/
  blockKey : Option KeyPlace
  /-- The possible key of every flow, innermost first. -/
  flowKeys : List (Option KeyPlace)
  keyAllowed : Bool

namespace Scanner

def ofText (text : List Char) : Scanner where
  cursor := ⟨text, 0, 0, 0⟩
  tokens := #[]
  indent := -1
  outerIndents := []
  blockKey := none
  flowKeys := []
  keyAllowed := true

def inFlow (s : Scanner) : Bool := !s.flowKeys.isEmpty

def push (s : Scanner) (t : Token) : Scanner := { s with tokens := s.tokens.push t }

def skip (s : Scanner) (n : Nat) : Scanner := { s with cursor := s.cursor.skip n }

/-- Passes blanks, comments and line breaks between tokens, and a byte order mark at
the very start, which takes up a column. -/
def passSpace : Nat → Scanner → Scanner
  | 0, s => s
  | fuel + 1, s =>
    match s.cursor.rest with
    | [] => s
    | c :: _ =>
      if c = '\uFEFF' && s.cursor.index = 0 then passSpace fuel (s.skip 1)
      else if c = ' ' || (c = '\t' && (s.inFlow || !s.keyAllowed)) then passSpace fuel (s.skip 1)
      else if c = '#' then
        passSpace fuel (s.skip (s.cursor.rest.takeWhile fun c => !isBreak c).length)
      else if isBreak c then
        passSpace fuel
          { s with cursor := s.cursor.skipBreak, keyAllowed := s.keyAllowed || !s.inFlow }
      else s

/-- Whether a possible key has come too far: onto another line, or past 1024 bytes. -/
def isStale (s : Scanner) (k : KeyPlace) : Bool :=
  k.line < s.cursor.line || k.index + 1024 < s.cursor.index

/-- Whether a key that had to be one has become stale. None that starts in a flow has to be. -/
def missesKey (s : Scanner) : Bool := s.blockKey.any fun k => k.required && s.isStale k

/-- The possible key of this level, stale or not. -/
def key (s : Scanner) : Option KeyPlace :=
  match s.flowKeys with
  | k :: _ => k
  | [] => s.blockKey

def setKey (s : Scanner) (k : Option KeyPlace) : Scanner :=
  match s.flowKeys with
  | _ :: outer => { s with flowKeys := k :: outer }
  | [] => { s with blockKey := k }

def unroll (column : Int) : Nat → Scanner → Scanner
  | 0, s => s
  | fuel + 1, s =>
    if s.inFlow || s.indent ≤ column then s
    else
      unroll column fuel
        { s.push .blockEnd with
          indent := s.outerIndents.head?.getD (-1), outerIndents := s.outerIndents.tail }

def unrollTo (s : Scanner) (column : Int) : Scanner := s.unroll column (s.outerIndents.length + 1)

/-- Starts a collection at `column` unless one is there already; its token comes
before the token at `position`. -/
def roll (s : Scanner) (column : Nat) (position : Nat) (t : Token) : Scanner :=
  if s.inFlow || (column : Int) ≤ s.indent then s
  else
    { s with
      indent := column
      outerIndents := s.indent :: s.outerIndents
      tokens := s.tokens.insertIdxIfInBounds position t }

def removeKey (s : Scanner) : Option Scanner :=
  if s.key.any (·.required) then none else some (s.setKey none)

def saveKey (s : Scanner) : Option Scanner :=
  if !s.keyAllowed then some s
  else
    let place : KeyPlace :=
      { position := s.tokens.size, line := s.cursor.line, column := s.cursor.column
        index := s.cursor.index, required := !s.inFlow && s.indent = s.cursor.column }
    s.removeKey.map (·.setKey (some place))

def documentMark (s : Scanner) (t : Token) : Option Scanner :=
  (s.unrollTo (-1)).removeKey.map fun s => ({ s with keyAllowed := false }.push t).skip 3

def flowStart (s : Scanner) (t : Token) : Option Scanner :=
  s.saveKey.map fun s => ({ s with flowKeys := none :: s.flowKeys, keyAllowed := true }.push t).skip 1

def flowEnd (s : Scanner) (t : Token) : Option Scanner :=
  s.removeKey.map fun s =>
    ({ s with flowKeys := s.flowKeys.tail, keyAllowed := false }.push t).skip 1

def flowEntry (s : Scanner) : Option Scanner :=
  s.removeKey.map fun s => ({ s with keyAllowed := true }.push .flowEntry).skip 1

def blockEntry (s : Scanner) : Option Scanner :=
  if !s.inFlow && !s.keyAllowed then none
  else
    (s.roll s.cursor.column s.tokens.size .sequenceStart).removeKey.map fun s =>
      ({ s with keyAllowed := true }.push .blockEntry).skip 1

def explicitKey (s : Scanner) : Option Scanner :=
  if !s.inFlow && !s.keyAllowed then none
  else
    (s.roll s.cursor.column s.tokens.size .mappingStart).removeKey.map fun s =>
      ({ s with keyAllowed := !s.inFlow }.push .key).skip 1

def value (s : Scanner) : Option Scanner :=
  match s.key.filter (!s.isStale ·) with
  | some k =>
    let s := { s with tokens := s.tokens.insertIdxIfInBounds k.position .key }
    let s := s.roll k.column k.position .mappingStart
    some (({ s.setKey none with keyAllowed := false }.push .value).skip 1)
  | none =>
    if !s.inFlow && !s.keyAllowed then none
    else
      let s := s.roll s.cursor.column s.tokens.size .mappingStart
      some (({ s with keyAllowed := !s.inFlow }.push .value).skip 1)

def directive (s : Scanner) (fuel : Nat) : Option Scanner :=
  (s.unrollTo (-1)).removeKey.bind fun s =>
    (Yaml.directive fuel s.cursor).map fun (cursor, d) =>
      { s with cursor, keyAllowed := false }.push (.directive d)

def anchor (s : Scanner) (t : String → Token) : Option Scanner :=
  s.saveKey.bind fun s =>
    (anchorName (s.cursor.skip 1)).map fun (cursor, name) =>
      { s with cursor, keyAllowed := false }.push (t name)

def tag (s : Scanner) (fuel : Nat) : Option Scanner :=
  s.saveKey.bind fun s =>
    (tagProperty s.inFlow fuel s.cursor).map fun (cursor, handle, rest) =>
      { s with cursor, keyAllowed := false }.push (.tag handle rest)

def blockScalar (s : Scanner) (fuel : Nat) (folded : Bool) : Option Scanner :=
  s.removeKey.bind fun s =>
    (blockText folded s.indent fuel (s.cursor.skip 1)).map fun (cursor, text) =>
      { s with cursor, keyAllowed := true }.push (.scalar text (if folded then .other else .literal))

def quotedScalar (s : Scanner) (fuel : Nat) (single : Bool) : Option Scanner :=
  s.saveKey.bind fun s =>
    (quotedText single fuel (s.cursor.skip 1) []).map fun (cursor, text) =>
      { s with cursor, keyAllowed := false }.push (.scalar text .other)

def plainScalar (s : Scanner) (fuel : Nat) : Option Scanner :=
  s.saveKey.bind fun s =>
    (plainText s.inFlow (s.indent + 1).toNat fuel s.cursor [] {}).map
      fun (cursor, text, broken) =>
        { s with cursor, keyAllowed := broken }.push (.scalar text .plain)

/-- Characters that start no plain scalar. -/
def indicators : List Char :=
  ['-', '?', ':', ',', '[', ']', '\x7b', '\x7d', '#', '&', '*', '!', '|', '>', '\'', '"', '%',
    '@', '\x60']

def token (s : Scanner) (fuel : Nat) (c : Char) (rest : List Char) : Option Scanner :=
  if s.cursor.column = 0 && c = '%' then s.directive fuel
  else if s.cursor.atMark '-' then s.documentMark .documentStart
  else if s.cursor.atMark '.' then s.documentMark .documentEnd
  else if c = '[' then s.flowStart .flowSequenceStart
  else if c = '\x7b' then s.flowStart .flowMappingStart
  else if c = ']' then s.flowEnd .flowSequenceEnd
  else if c = '\x7d' then s.flowEnd .flowMappingEnd
  else if c = ',' then s.flowEntry
  else if c = '-' && atGap rest then s.blockEntry
  else if c = '?' && (s.inFlow || atGap rest) then s.explicitKey
  else if c = ':' && (s.inFlow || atGap rest) then s.value
  else if c = '*' then s.anchor .reference
  else if c = '&' then s.anchor .anchor
  else if c = '!' then s.tag fuel
  else if c = '|' && !s.inFlow then s.blockScalar fuel false
  else if c = '>' && !s.inFlow then s.blockScalar fuel true
  else if c = '\'' then s.quotedScalar fuel true
  else if c = '"' then s.quotedScalar fuel false
  else if !(isBlank c || indicators.contains c)
      || (c = '-' && !(rest.head?.any isBlank))
      || (!s.inFlow && (c = '?' || c = ':')) then s.plainScalar fuel
  else none

/-- Reads all tokens. Every turn takes a character or more, so that fuel beyond the number
of characters suffices, in every turn for the characters that are left. -/
def run : Nat → Scanner → Option (Array Token)
  | 0, _ => none
  | fuel + 1, s =>
    let s := s.passSpace (fuel + 1)
    if s.missesKey then none
    else
      let s := s.unrollTo s.cursor.column
      match s.cursor.rest with
      | [] => (s.unrollTo (-1)).removeKey.map (·.tokens)
      | c :: rest =>
        match s.token (fuel + 1) c rest with
        | none => none
        | some s => run fuel s

end Scanner

def ofText (text : List Char) : Option (List Token) :=
  if text.all isAllowed then
    (Scanner.run (text.length + 2) (.ofText text)).map (·.toList)
  else none

end Token

end SiblingStore.Yaml
