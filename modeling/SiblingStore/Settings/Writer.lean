import SiblingStore.Json.Value
import SiblingStore.Settings.Basic
import SiblingStore.Yaml.Writer

/-!
# Writing settings

Settings as a JSON value and as a YAML text, with every field.
-/

namespace SiblingStore

def Strategy.name : Strategy → String
  | .manual => "manual"
  | .lastWriterWins => "last_writer_wins"
  | .union => "union"

namespace Settings

inductive Entry where
  | null
  | flag (b : Bool)
  | count (n : Nat)
  | text (s : String)
  | fields (entries : List (String × Entry))

def backoffEntry : BackoffSettings → Entry
  | .none => .fields [("kind", .text "none")]
  | .fixed delayMs => .fields [("kind", .text "fixed"), ("delay_ms", .count delayMs.toNat)]
  | .exponential baseMs limitMs =>
    .fields [("kind", .text "exponential"), ("base_ms", .count baseMs.toNat),
      ("max_ms", .count limitMs.toNat)]

def entries (s : Settings) : List (String × Entry) :=
  [("client_id", s.clientId.elim .null .text),
   ("pool_size", .count s.poolSize),
   ("operation", .fields
     [("retry", .count s.operation.retries),
      ("rw", s.operation.quorum.elim .null .count),
      ("return_body", .flag s.operation.returnBody),
      ("allow_siblings", .flag s.operation.allowSiblings),
      ("attempt_timeout_ms", .count s.operation.attemptTimeoutMs.toNat),
      ("backoff", backoffEntry s.operation.backoff)]),
   ("resolver", .text s.resolver.name),
   ("cluster", .fields
     [("replicas", .count s.cluster.replicas), ("r", .count s.cluster.readQuorum),
      ("w", .count s.cluster.writeQuorum), ("read_repair", .flag s.cluster.readRepair)]),
   ("storage", .fields
     [("data_dir", .text s.storage.directory), ("fsync", .text s.storage.sync)])]

def Entry.jsonWithin : Nat → Entry → Json.Value
  | _, .null => .null
  | _, .flag b => .boolean b
  | _, .count n => .integer n
  | _, .text s => .text s
  | 0, .fields _ => .null
  | depth + 1, .fields es => .object (es.map fun p => (p.1, jsonWithin depth p.2))

def json (s : Settings) : Json.Value := Entry.jsonWithin 3 (.fields s.entries)

def Entry.yamlWithin : Nat → Nat → String × Entry → String
  | depth, indent, (name, e) =>
    let head := String.ofList (List.replicate indent ' ') ++ name ++ ":"
    match e with
    | .null => head ++ " null\n"
    | .flag b => head ++ (if b then " true\n" else " false\n")
    | .count n => head ++ s!" {n}\n"
    | .text s => head ++ " " ++ Yaml.Writer.line (indent + 2) s
    | .fields es =>
      match depth with
      | 0 => head ++ "\n"
      | depth + 1 => head ++ "\n" ++ String.join (es.map (yamlWithin depth (indent + 2)))

def yaml (s : Settings) : String := String.join (s.entries.map (Entry.yamlWithin 2 0))

end Settings

end SiblingStore
