import SiblingStore.Clock.Codec
import SiblingStore.Version.Basic

/-!
# Versions as JSON

The form in which a version is logged: an object of seven fields, with the value
as the list of its octets.
-/

namespace SiblingStore.Version

def json (v : Version) : Bytes :=
  Json.Writer.object
    [("bucket", Json.Writer.text v.location.bucket),
     ("key", Json.Writer.text v.location.key),
     ("vclock", v.clock.json),
     ("value", Json.Writer.list (v.value.map fun b => Json.Writer.natural b.toNat)),
     ("tombstone", Json.Writer.boolean v.tombstone),
     ("vtag", Json.Writer.text v.tag),
     ("timestamp_ms", Json.Writer.natural v.time.toNat)]

structure Draft where
  bucket : Option String := none
  key : Option String := none
  clock : Option Clock := none
  value : Option Bytes := none
  tombstone : Option Bool := none
  tag : Option String := none
  time : Option UInt64 := none

def Draft.finish (d : Draft) : Except Json.Cause Version :=
  match d.bucket, d.key, d.clock, d.value, d.tombstone, d.tag, d.time with
  | none, _, _, _, _, _, _ => .error (.missingField "bucket")
  | _, none, _, _, _, _, _ => .error (.missingField "key")
  | _, _, none, _, _, _, _ => .error (.missingField "vclock")
  | _, _, _, none, _, _, _ => .error (.missingField "value")
  | _, _, _, _, none, _, _ => .error (.missingField "tombstone")
  | _, _, _, _, _, none, _ => .error (.missingField "vtag")
  | _, _, _, _, _, _, none => .error (.missingField "timestamp_ms")
  | some bucket, some key, some clock, some value, some tombstone, some tag, some time =>
    .ok ⟨⟨bucket, key⟩, clock, value, tombstone, tag, time⟩

def shape : Json.Reader.Shape Draft Version where
  expected := "a version"
  start := {}
  fields :=
    [{ name := "bucket", isSet := fun d => d.bucket.isSome
       read := fun d => Json.Reader.text.map fun s => { d with bucket := some s } },
     { name := "key", isSet := fun d => d.key.isSome
       read := fun d => Json.Reader.text.map fun s => { d with key := some s } },
     { name := "vclock", isSet := fun d => d.clock.isSome
       read := fun d => Clock.reader.map fun c => { d with clock := some c } },
     { name := "value", isSet := fun d => d.value.isSome
       read := fun d =>
         (Json.Reader.listOf Json.Reader.octet).map fun bs => { d with value := some bs } },
     { name := "tombstone", isSet := fun d => d.tombstone.isSome
       read := fun d => Json.Reader.boolean.map fun b => { d with tombstone := some b } },
     { name := "vtag", isSet := fun d => d.tag.isSome
       read := fun d => Json.Reader.text.map fun s => { d with tag := some s } },
     { name := "timestamp_ms", isSet := fun d => d.time.isSome
       read := fun d => Json.Reader.word64.map fun n => { d with time := some n } }]
  finish := Draft.finish

def reader : Json.Reader Version := shape.reader

end SiblingStore.Version
