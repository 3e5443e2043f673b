import SiblingStore.Clock.Basic
import SiblingStore.Json.Reader
import SiblingStore.Json.Writer

/-!
# Clocks as bytes

A clock travels to clients and into logs as a JSON object with its entries in
key order. As a causal context the clock without entries is no bytes at all.
-/

namespace SiblingStore.Clock

def json (c : Clock) : Bytes :=
  Json.Writer.object
    [("entries", Json.Writer.object
      (c.entries.toList.map fun p => (p.1, Json.Writer.natural p.2.toNat)))]

structure Draft where
  entries : Option (List (String × UInt64)) := none

def shape : Json.Reader.Shape Draft Clock where
  expected := "struct VClock"
  start := {}
  fields :=
    [{ name := "entries", isSet := fun d => d.entries.isSome
       read := fun d =>
         (Json.Reader.entriesOf Json.Reader.word64).map fun es => { d with entries := some es } }]
  finish := fun d =>
    match d.entries with
    | none => .error (.missingField "entries")
    | some es => .ok (ofList es)

def reader : Json.Reader Clock := shape.reader

def toBytes (c : Clock) : Bytes := if c.isEmpty then [] else c.json

def ofBytes (bs : Bytes) : Except Json.Fault Clock :=
  if bs.isEmpty then .ok empty else Json.Reader.run reader bs

end SiblingStore.Clock
