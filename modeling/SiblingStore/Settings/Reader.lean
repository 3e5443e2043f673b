import SiblingStore.Json.Value
import SiblingStore.Settings.Basic
import SiblingStore.Yaml.Node
import SiblingStore.Yaml.Scalar

/-!
# Reading settings

Settings are read alike from JSON values and from YAML documents; a format says
how the two spell texts, numbers and structures. Unknown fields are passed over,
fields that are left out have their defaults, and a known field may come once.
-/

namespace SiblingStore.Settings

inductive Label where
  | name (text : String)
  /-- The place of a field in its structure, counted from zero. -/
  | place (index : Nat)
  /-- Something that can name no field. -/
  | other
  deriving DecidableEq

/-- The parts of a structure: with labels, or in order. -/
inductive Parts (ν : Type) where
  | labelled (fields : List (Label × ν))
  | listed (items : List ν)

def Parts.named {ν : Type} (fields : List (String × ν)) : Parts ν :=
  .labelled (fields.map fun p => (.name p.1, p.2))

structure Format (ν : Type) where
  text? : ν → Option String
  natural? : ν → Option Nat
  boolean? : ν → Option Bool
  /-- Whether the value stands for the absence of one; some say so wrongly. -/
  isNothing? : ν → Option Bool
  /-- The name of one of several alternatives without contents. -/
  choice? : ν → Option String
  structure? : ν → Option (Parts ν)
  /-- The parts of one of several alternatives, of which one part is the name. -/
  tagged? : ν → Option (Parts ν)
  /-- A natural number within an alternative. -/
  taggedNatural? : ν → Option Nat

/-- Field number `index`, called `name`: an error if it comes twice. -/
def Parts.get {ν : Type} (ps : Parts ν) (index : Nat) (name : String) : Option (Option ν) :=
  match ps with
  | .listed items => some items[index]?
  | .labelled fields =>
    match fields.filter fun p => p.1 = .name name || p.1 = .place index with
    | [] => some none
    | [p] => some (some p.2)
    | _ => none

/-- Whether these can be the parts of a structure of `count` fields: no more than those in
a list, and none whose label is none. The labels do not matter where there is no field. -/
def Parts.fits {ν : Type} (count : Nat) : Parts ν → Bool
  | .labelled fields => count = 0 || fields.all (·.1 ≠ .other)
  | .listed items => items.length ≤ count

section

variable {ν α : Type} (format : Format ν)

def field (ps : Parts ν) (index : Nat) (name : String) (standard : α) (read : ν → Option α) :
    Option α :=
  match ps.get index name with
  | none => none
  | some none => some standard
  | some (some v) => read v

def required (ps : Parts ν) (index : Nat) (name : String) (read : ν → Option α) : Option α :=
  (ps.get index name).bind fun v => v.bind read

def optional (read : ν → Option α) (v : ν) : Option (Option α) :=
  match format.isNothing? v with
  | none => none
  | some true => some none
  | some false => (read v).map some

def milliseconds? (v : ν) : Option UInt64 := (format.natural? v).map UInt64.ofNat

def taggedMilliseconds? (v : ν) : Option UInt64 := (format.taggedNatural? v).map UInt64.ofNat

/-- The parts but the one that names the alternative, and that name. -/
def split : Parts ν → Option (String × Parts ν)
  | .listed [] => none
  | .listed (tag :: items) => (format.text? tag).map (·, .listed items)
  | .labelled fields =>
    match fields.filter (·.1 = .name "kind") with
    | [p] => (format.text? p.2).map (·, .labelled (fields.filter (·.1 ≠ .name "kind")))
    | _ => none

def backoff? (v : ν) : Option BackoffSettings := do
  let (kind, ps) ← split format (← format.tagged? v)
  match kind with
  | "none" => if ps.fits 0 then some .none else none
  | "fixed" =>
    if !ps.fits 1 then none
    else some (.fixed (← required ps 0 "delay_ms" (taggedMilliseconds? format)))
  | "exponential" =>
    if !ps.fits 2 then none
    else
      some (.exponential (← required ps 0 "base_ms" (taggedMilliseconds? format))
        (← required ps 1 "max_ms" (taggedMilliseconds? format)))
  | _ => none

def count32? (v : ν) : Option Nat := (format.natural? v).filter (· < UInt32.size)

def operation? (v : ν) : Option OperationSettings := do
  let ps ← format.structure? v
  if !ps.fits 6 then none
  let standard : OperationSettings := {}
  some
    { retries := ← field ps 0 "retry" standard.retries (count32? format)
      quorum := ← field ps 1 "rw" standard.quorum (optional format format.natural?)
      returnBody := ← field ps 2 "return_body" standard.returnBody format.boolean?
      allowSiblings := ← field ps 3 "allow_siblings" standard.allowSiblings format.boolean?
      attemptTimeoutMs :=
        ← field ps 4 "attempt_timeout_ms" standard.attemptTimeoutMs (milliseconds? format)
      backoff := ← field ps 5 "backoff" standard.backoff (backoff? format) }

def strategy? (v : ν) : Option Strategy :=
  match format.choice? v with
  | some "manual" => some .manual
  | some "last_writer_wins" => some .lastWriterWins
  | some "union" => some .union
  | _ => none

def cluster? (v : ν) : Option ClusterSettings := do
  let ps ← format.structure? v
  if !ps.fits 4 then none
  let standard : ClusterSettings := {}
  some
    { replicas := ← field ps 0 "replicas" standard.replicas format.natural?
      readQuorum := ← field ps 1 "r" standard.readQuorum format.natural?
      writeQuorum := ← field ps 2 "w" standard.writeQuorum format.natural?
      readRepair := ← field ps 3 "read_repair" standard.readRepair format.boolean? }

def storage? (v : ν) : Option StorageSettings := do
  let ps ← format.structure? v
  if !ps.fits 2 then none
  let standard : StorageSettings := {}
  some
    { directory := ← field ps 0 "data_dir" standard.directory format.text?
      sync := ← field ps 1 "fsync" standard.sync format.text? }

def settings? (v : ν) : Option Settings := do
  let ps ← format.structure? v
  if !ps.fits 6 then none
  let standard : Settings := {}
  some
    { clientId := ← field ps 0 "client_id" standard.clientId (optional format format.text?)
      poolSize := ← field ps 1 "pool_size" standard.poolSize format.natural?
      operation := ← field ps 2 "operation" standard.operation (operation? format)
      resolver := ← field ps 3 "resolver" standard.resolver (strategy? format)
      cluster := ← field ps 4 "cluster" standard.cluster (cluster? format)
      storage := ← field ps 5 "storage" standard.storage (storage? format) }

end

/-! ### The two formats -/

/-- The entries of an object, of a repeated name the last. -/
def lastEntries (entries : List (String × Json.Value)) : List (String × Json.Value) :=
  entries.foldr (fun p kept => if kept.any (·.1 = p.1) then kept else p :: kept) []

def jsonParts? : Json.Value → Option (Parts Json.Value)
  | .object entries => some (.named (lastEntries entries))
  | .list items => some (.listed items)
  | _ => none

/-- In JSON a structure may be the list of its fields, and an alternative an object
that binds its name to null. -/
def jsonFormat : Format Json.Value where
  text? := Json.Value.text?
  natural? := fun v => v.natural?.filter (· < UInt64.size)
  boolean? := Json.Value.boolean?
  isNothing? := fun v => some v.isNull
  choice?
    | .text s => some s
    | .object [(name, .null)] => some name
    | _ => none
  structure? := jsonParts?
  tagged? := jsonParts?
  taggedNatural? := fun v => v.natural?.filter (· < UInt64.size)

section

open Yaml (Document Node Form Tag)

/-- What a scalar stands for where nothing in particular is wanted. One in quotes or in a
block is a text; a tag may say otherwise, and may be wrong. -/
def meaning? (text : String) (form : Form) (tag : Tag) : Option Yaml.Scalar.Meaning :=
  let untagged := if form = .plain then Yaml.Scalar.meaning text else .text
  match tag with
  | .absent | .garbled => some untagged
  | .own _ => none
  | .foreign => some .text
  | .boolean => (Yaml.Scalar.boolean? text).map .boolean
  | .integer => Yaml.Scalar.whole? text
  | .fraction => if Yaml.Scalar.isFraction text then some .fraction else none
  | .null => if Yaml.Scalar.isNull text then some .nothing else none

def mayBe (kind : Tag) (form : Form) (tag : Tag) : Bool :=
  form = .plain || (form = .literal && tag = kind)

def isOwn : Tag → Bool
  | .own _ => true
  | _ => false

variable (d : Document)

/-- Whether all of a node can be kept until it is known what it is for: its collections
are no more than `depth` deep, and its whole numbers have no more than 64 bits. It may
hold `aliases` aliases; the answer is how many are left. -/
def canWait : (depth aliases : Nat) → Node → Option Nat
  | depth, aliases, n =>
    let left :=
      match n with
      | .reference _ => if aliases = 0 then none else some (aliases - 1)
      | _ => some aliases
    match left, depth, d.follow n with
    | some left, _, .scalar text form tag =>
      if (meaning? text form tag).any (· ≠ .huge) then some left else none
    | some left, depth + 1, .sequence items tag =>
      if isOwn tag then none else items.foldlM (canWait depth) left
    | some left, depth + 1, .mapping entries tag =>
      if isOwn tag then none
      else entries.foldlM (fun left p =>
        (canWait depth left p.1).bind fun left => canWait depth left p.2) left
    | _, _, _ => none

/-- What a key is to an alternative: a number is the place of a field. -/
def label (n : Node) : Label :=
  match d.follow n with
  | .scalar text form tag =>
    match meaning? text form tag with
    | some .text => .name text
    | some (.natural n) => .place n
    | _ => .other
  | _ => .other

/-- The deepest that collections may be nested in one of several alternatives, which
itself is the third collection from outside. -/
def depthLimit : Nat := 126

def namedEntries (entries : List (Node × Node)) : Option (List (String × Node)) :=
  entries.mapM fun p =>
    match d.follow p.1 with
    | .scalar name _ _ => some (name, p.2)
    | _ => none

def saysNothing (text : String) : Bool := text.isEmpty || Yaml.Scalar.isNull text

/-- In YAML a structure is a mapping or left out; numbers and truth values are
plain scalars, and any scalar is a text. An alternative without contents is a scalar,
or nothing with its name as a tag. -/
def yamlFormat : Format Node where
  text? n :=
    match d.follow n with
    | .scalar text _ _ => some text
    | _ => none
  natural? n :=
    match d.follow n with
    | .scalar text form tag =>
      if mayBe .integer form tag then
        (Yaml.Scalar.natural? text.toList).filter (· < UInt64.size)
      else none
    | _ => none
  boolean? n :=
    match d.follow n with
    | .scalar text form tag =>
      if mayBe .boolean form tag then Yaml.Scalar.boolean? text else none
    | _ => none
  isNothing? n :=
    match d.follow n with
    | .scalar text .plain .absent => some (saysNothing text)
    | .scalar text .plain .null => if Yaml.Scalar.isNull text then some true else none
    | _ => some false
  choice? n :=
    match d.follow n with
    | .scalar text .plain (.own name) => if saysNothing text then some name else none
    | .scalar _ _ (.own _) => none
    | .scalar text _ _ => some text
    | _ => none
  structure? n :=
    match d.follow n with
    | .mapping entries _ => (namedEntries d entries).map .named
    | .scalar "" .plain _ => some (.named [])
    | _ => none
  tagged? n :=
    if (canWait d depthLimit (100 * d.size) n).isNone then none
    else
      match d.follow n with
      | .mapping entries _ => some (.labelled (entries.map fun p => (label d p.1, p.2)))
      | .sequence items _ => some (.listed items)
      | _ => none
  taggedNatural? n :=
    match d.follow n with
    | .scalar text form tag =>
      match meaning? text form tag with
      | some (.natural n) => some n
      | some (.negated 0) => some 0
      | _ => none
    | _ => none

end

def ofJson? (v : Json.Value) : Option Settings := settings? jsonFormat v

def operationOfJson? (v : Json.Value) : Option OperationSettings := operation? jsonFormat v

def load (text : String) : Except LoadError Settings :=
  match (Yaml.Document.parse text).bind fun d => settings? (yamlFormat d) d.root with
  | none => .error .yaml
  | some s =>
    match s.validate with
    | .error refusal => .error (.invalid refusal)
    | .ok () => .ok s

def loadFile : Disk.Place → Except LoadError Settings
  | .absent => .error (.disk .notFound)
  | .directory => .error (.disk .isDirectory)
  | .file content =>
    match Text.Utf8.decode? content with
    | none => .error (.disk .notText)
    | some text => load text

end SiblingStore.Settings
