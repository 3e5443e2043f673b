import SiblingStore.Yaml.Alias

/-!
# YAML documents

A document is a tree of scalars, sequences, mappings and aliases, with the nodes
that the aliases stand for beside it. A text has at most one document; an empty
text is an empty plain scalar.
-/

namespace SiblingStore.Yaml

inductive Node where
  | scalar (text : String) (form : Form) (tag : Tag)
  | sequence (items : List Node) (tag : Tag)
  | mapping (entries : List (Node × Node)) (tag : Tag)
  /-- Another appearance of the node with this anchor, counted from zero. -/
  | reference (anchor : Nat)

namespace Node

def missing : Node := scalar "" .plain .absent

instance : Inhabited Node := ⟨missing⟩

end Node

structure Document where
  root : Node
  /-- The nodes that have anchors, each with the place of its anchor. -/
  anchored : List (Nat × Node)
  /-- How many starts and ends of nodes the text has. -/
  size : Nat

def Document.follow (d : Document) (n : Node) : Node :=
  match n with
  | .reference k => ((d.anchored.find? (·.1 = k)).map (·.2)).getD .missing
  | n => n

structure Progress where
  tokens : List Token
  /-- What each of the remaining aliases stands for. -/
  targets : List Nat
  /-- What handles stand for, those with precedence first. -/
  handles : List (String × Bytes)
  anchorCount : Nat
  anchored : List (Nat × Node)
  size : Nat

abbrev Parser := StateT Progress Option

namespace Parser

def peek : Parser (Option Token) := do return (← get).tokens.head?

def comes (ts : List Token) : Parser Bool := do return (← peek).any ts.contains

def advance : Parser Unit := modify fun p => { p with tokens := p.tokens.tail }

def accept (t : Token) : Parser Bool := do
  if (← peek) = some t then
    advance
    return true
  else return false

def expect (t : Token) : Parser Unit := do
  if !(← accept t) then failure

/-- Takes note of starts and ends of nodes. -/
def count (n : Nat) : Parser Unit := modify fun p => { p with size := p.size + n }

def missing : Parser Node := do
  count 1
  return .missing

structure Properties where
  anchor : Option Nat := none
  tag : Option Bytes := none

def Properties.isEmpty (p : Properties) : Bool := p.anchor.isNone && p.tag.isNone

def anchor? : Parser (Option Nat) := do
  match ← peek with
  | some (.anchor _) =>
    advance
    modifyGet fun p => (some p.anchorCount, { p with anchorCount := p.anchorCount + 1 })
  | _ => return none

def tag? : Parser (Option Bytes) := do
  match ← peek with
  | some (.tag handle rest) =>
    advance
    if handle.isEmpty then return some rest
    else
      match (← get).handles.find? (·.1 = handle) with
      | some (_, stem) => return some (stem ++ rest)
      | none => failure
  | _ => return none

/-- At most one anchor and at most one tag, in any order. -/
def properties : Parser Properties := do
  match ← anchor? with
  | some k => return ⟨some k, ← tag?⟩
  | none =>
    match ← tag? with
    | some t => return ⟨← anchor?, some t⟩
    | none => return {}

def Properties.readTag (p : Properties) : Tag := p.tag.elim .absent Tag.ofBytes

/-- The tag of a scalar with contents, for which a lone exclamation mark is none. -/
def Properties.scalarTag (p : Properties) : Tag :=
  if p.tag = some [0x21] then .absent else p.readTag

mutual

/-- A node. `block` allows collections written by indentation, `indentless` a
sequence that is no deeper than the key before it. -/
def node : Nat → (block indentless : Bool) → Parser Node
  | 0, _, _ => failure
  | fuel + 1, block, indentless => do
    match ← peek with
    | some (.reference _) =>
      advance
      count 1
      match (← get).targets with
      | k :: targets =>
        modify fun p => { p with targets }
        return .reference k
      | [] => failure
    | _ =>
      let props ← properties
      let n ← content fuel block indentless props
      if let some k := props.anchor then
        modify fun p => { p with anchored := (k, n) :: p.anchored }
      return n

def content : Nat → (block indentless : Bool) → Properties → Parser Node
  | 0, _, _, _ => failure
  | fuel + 1, block, indentless, props => do
    let sequence (items : Parser (List Node)) : Parser Node := do
      count 2
      return .sequence (← items) props.readTag
    let mapping (entries : Parser (List (Node × Node))) : Parser Node := do
      count 2
      return .mapping (← entries) props.readTag
    match ← peek with
    | some (.scalar text form) =>
      advance
      count 1
      return .scalar (String.ofList text) form props.scalarTag
    | some .flowSequenceStart =>
      advance
      sequence (flowItems fuel true [])
    | some .flowMappingStart =>
      advance
      mapping (flowPairs fuel true [])
    | t =>
      if indentless && t = some .blockEntry then sequence (entries fuel true [])
      else if block && t = some .sequenceStart then
        advance
        sequence (entries fuel false [])
      else if block && t = some .mappingStart then
        advance
        mapping (pairs fuel [])
      else if props.isEmpty then failure
      else
        count 1
        return .scalar "" .plain props.readTag

def nodeUnless : Nat → List Token → (block indentless : Bool) → Parser Node
  | 0, _, _, _ => failure
  | fuel + 1, stops, block, indentless => do
    if ← comes stops then missing else node fuel block indentless

/-- The entries of a sequence written with dashes, after those that are `done`. -/
def entries : Nat → (indentless : Bool) → (done : List Node) → Parser (List Node)
  | 0, _, _ => failure
  | fuel + 1, indentless, done => do
    if ← accept .blockEntry then
      let stops : List Token :=
        if indentless then [.blockEntry, .key, .value, .blockEnd] else [.blockEntry, .blockEnd]
      let item ← nodeUnless fuel stops true false
      entries fuel indentless (item :: done)
    else
      if !indentless then expect .blockEnd
      return done.reverse

def pairs : Nat → (done : List (Node × Node)) → Parser (List (Node × Node))
  | 0, _ => failure
  | fuel + 1, done => do
    if ← accept .key then
      let stops : List Token := [.key, .value, .blockEnd]
      let k ← nodeUnless fuel stops true true
      let v ← if ← accept .value then nodeUnless fuel stops true true else missing
      pairs fuel ((k, v) :: done)
    else
      expect .blockEnd
      return done.reverse

def flowItems : Nat → (first : Bool) → (done : List Node) → Parser (List Node)
  | 0, _, _ => failure
  | fuel + 1, first, done => do
    if ← accept .flowSequenceEnd then return done.reverse
    if !first then expect .flowEntry
    if ← accept .flowSequenceEnd then return done.reverse
    let item ← if ← accept .key then flowPair fuel else node fuel false false
    flowItems fuel false (item :: done)

/-- A mapping of a single pair among the items of a sequence. Where its key is left out,
the token that shows this is passed over, be it the colon, a comma or the closing bracket. -/
def flowPair : Nat → Parser Node
  | 0 => failure
  | fuel + 1 => do
    count 2
    let k ←
      if ← comes [.value, .flowEntry, .flowSequenceEnd] then
        advance
        missing
      else node fuel false false
    let v ←
      if ← accept .value then nodeUnless fuel [.flowEntry, .flowSequenceEnd] false false
      else missing
    return .mapping [(k, v)] .absent

def flowPairs : Nat → (first : Bool) → (done : List (Node × Node)) → Parser (List (Node × Node))
  | 0, _, _ => failure
  | fuel + 1, first, done => do
    if ← accept .flowMappingEnd then return done.reverse
    if !first then expect .flowEntry
    if ← accept .flowMappingEnd then return done.reverse
    let p ←
      if ← accept .key then
        let k ← nodeUnless fuel [.value, .flowEntry, .flowMappingEnd] false false
        let v ←
          if ← accept .value then nodeUnless fuel [.flowEntry, .flowMappingEnd] false false
          else missing
        pure (k, v)
      else
        let k ← node fuel false false
        pure (k, ← missing)
    flowPairs fuel false (p :: done)

end

/-- Reads the directives before a document. There is one version at most, and it is known;
no handle is given twice. -/
def directives : Nat → (versioned : Bool) → Parser Unit
  | 0, _ => failure
  | fuel + 1, versioned => do
    match ← peek with
    | some (.directive (.version major minor)) =>
      if versioned || major ≠ 1 || (minor ≠ 1 && minor ≠ 2) then failure
      advance
      directives fuel true
    | some (.directive (.handle handle stem)) =>
      if (← get).handles.any (·.1 = handle) then failure
      advance
      modify fun p => { p with handles := p.handles ++ [(handle, stem)] }
      directives fuel versioned
    | _ => return ()

def document (fuel : Nat) : Parser Node := do
  let root ←
    match ← peek with
    | none => missing
    | some t =>
      let marked := t matches .directive _ | .documentStart
      if marked then
        directives fuel false
        expect .documentStart
      modify fun p => { p with
        handles := p.handles ++ [("!", [0x21]), ("!!", Text.Utf8.encode coreStem)] }
      match ← peek with
      | none | some (.directive _) | some .documentStart | some .documentEnd =>
        if marked then missing else failure
      | _ => node fuel true false
  if (← get).tokens.all (· = .documentEnd) then return root else failure

end Parser

namespace Document

def ofTokens (ts : List Token) : Option Document :=
  match aliasTargets ts with
  | none => none
  | some targets =>
    ((Parser.document (4 * ts.length + 4)).run ⟨ts, targets, [], 0, [], 0⟩).map fun (root, p) =>
      ⟨root, p.anchored, p.size⟩

def parse (text : String) : Option Document := (Token.ofText text.toList).bind ofTokens

end Document

end SiblingStore.Yaml
