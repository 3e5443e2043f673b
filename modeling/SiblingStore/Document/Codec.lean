import SiblingStore.Json.Reader
import SiblingStore.Json.Writer

/-!
# Codecs

How values of a type are turned into the bytes that are stored, and back.
-/

namespace SiblingStore

inductive DecodeFault where
  | notText (fault : Text.Utf8.Fault)
  | notJson (fault : Json.Fault) (input : Bytes)
  | other (text : String)

def DecodeFault.messageWith (detail : Json.Fault → Bytes → String) : DecodeFault → String
  | .notText fault => fault.message
  | .notJson fault input => detail fault input
  | .other text => text

inductive ConversionError where
  | encode (text : String)
  | decode (fault : DecodeFault)

def ConversionError.messageWith (detail : Json.Fault → Bytes → String) :
    ConversionError → String
  | .encode text => "encode failed: " ++ text
  | .decode fault => "decode failed: " ++ fault.messageWith detail

structure Codec (α : Type) where
  encode : α → Except ConversionError Bytes
  decode : Bytes → Except ConversionError α

/-- How objects of a type carry the key they are stored under. -/
structure ObjectKey (α : Type) where
  typeName : String
  key? : α → Option String

namespace Codec

def text : Codec String where
  encode := fun s => .ok (Text.Utf8.encode s)
  decode := fun bs => (Text.Utf8.decode bs).mapError fun f => .decode (.notText f)

def bytes : Codec Bytes where
  encode := .ok
  decode := .ok

def json {α : Type} (write : α → Bytes) (read : Json.Reader α) : Codec α where
  encode := fun a => .ok (write a)
  decode := fun bs => (Json.Reader.run read bs).mapError fun f => .decode (.notJson f bs)

end Codec

end SiblingStore
