import SiblingStore.Json.Reader
import SiblingStore.Json.Writer

/-!
# Locations

A key within a bucket, and the targets an operation can have: one location, or
a whole bucket.
-/

namespace SiblingStore

structure Location where
  bucket : String
  key : String
  deriving Repr, DecidableEq, Inhabited

namespace Location

def path (l : Location) : String := l.bucket ++ "/" ++ l.key

def debug (l : Location) : String :=
  "Location \x7b bucket: " ++ Text.Quoted.text l.bucket ++ ", key: " ++ Text.Quoted.text l.key
    ++ " \x7d"

def order (a b : Location) : Ordering :=
  (compare a.bucket b.bucket).then (compare a.key b.key)

def json (l : Location) : Bytes :=
  Json.Writer.object [("bucket", Json.Writer.text l.bucket), ("key", Json.Writer.text l.key)]

structure Draft where
  bucket : Option String := none
  key : Option String := none

def shape : Json.Reader.Shape Draft Location where
  expected := "a location"
  start := {}
  fields :=
    [{ name := "bucket", isSet := fun d => d.bucket.isSome
       read := fun d => Json.Reader.text.map fun s => { d with bucket := some s } },
     { name := "key", isSet := fun d => d.key.isSome
       read := fun d => Json.Reader.text.map fun s => { d with key := some s } }]
  finish := fun d =>
    match d.bucket, d.key with
    | none, _ => .error (.missingField "bucket")
    | _, none => .error (.missingField "key")
    | some bucket, some key => .ok ⟨bucket, key⟩

def reader : Json.Reader Location := shape.reader

end Location

inductive Target where
  | key (location : Location)
  | bucket (name : String)
  deriving Repr, DecidableEq

def Target.path : Target → String
  | .key location => location.path
  | .bucket name => name ++ "/*"

end SiblingStore
