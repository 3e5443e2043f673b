import SiblingStore.Conflict.Resolver
import SiblingStore.Document.Codec

/-!
# Documents

Value types with a JSON form: sets of texts and of numbers, shopping carts with
an owner and carts without one, and values that carry their own key.
-/

namespace SiblingStore

abbrev Words := Ordered.Set String

abbrev Numbers := Ordered.Set Int

def Words.json (s : Words) : Bytes := Json.Writer.list (s.toList.map Json.Writer.text)

def Words.reader : Json.Reader Words := (Json.Reader.listOf Json.Reader.text).map .ofList

def Words.codec : Codec Words := .json Words.json Words.reader

def Numbers.json (s : Numbers) : Bytes := Json.Writer.list (s.toList.map Json.Writer.integer)

def Numbers.codec : Codec Numbers :=
  .json Numbers.json ((Json.Reader.listOf Json.Reader.integer64).map .ofList)

/-- A cart whose owner is its identity; a cart without owner has an empty name there. -/
structure Cart where
  owner : String
  items : Words
  deriving DecidableEq

namespace Cart

def ownerName? (c : Cart) : Option String := if c.owner.isEmpty then none else some c.owner

def json (c : Cart) : Bytes :=
  Json.Writer.object [("owner", Json.Writer.text c.owner), ("items", c.items.json)]

structure Draft where
  owner : Option String := none
  items : Option Words := none

def shape : Json.Reader.Shape Draft Cart where
  expected := "a cart"
  start := {}
  fields :=
    [{ name := "owner", isSet := fun d => d.owner.isSome
       read := fun d => Json.Reader.text.map fun s => { d with owner := some s } },
     { name := "items", isSet := fun d => d.items.isSome
       read := fun d => Words.reader.map fun s => { d with items := some s } }]
  finish := fun d =>
    match d.owner, d.items with
    | none, _ => .error (.missingField "owner")
    | _, none => .error (.missingField "items")
    | some owner, some items => .ok ⟨owner, items⟩

def codec : Codec Cart := .json json shape.reader

def setLike : SetLike Cart String where
  identity := ownerName?
  members := fun c => c.items.toList
  assemble := fun owner items => ⟨owner.getD "", items⟩

def objectKey : ObjectKey Cart := ⟨"ShoppingCart", ownerName?⟩

end Cart

/-- A cart that has neither owner nor set of items, only a list of them. -/
structure LegacyCart where
  items : List String
  deriving DecidableEq

namespace LegacyCart

def json (c : LegacyCart) : Bytes :=
  Json.Writer.object [("items", Json.Writer.list (c.items.map Json.Writer.text))]

structure Draft where
  items : Option (List String) := none

def shape : Json.Reader.Shape Draft LegacyCart where
  expected := "a cart without owner"
  start := {}
  fields :=
    [{ name := "items", isSet := fun d => d.items.isSome
       read := fun d =>
         (Json.Reader.listOf Json.Reader.text).map fun s => { d with items := some s } }]
  finish := fun d =>
    match d.items with
    | none => .error (.missingField "items")
    | some items => .ok ⟨items⟩

def codec : Codec LegacyCart := .json json shape.reader

def objectKey : ObjectKey LegacyCart := ⟨"LegacyCart", fun _ => none⟩

end LegacyCart

structure KeyedCart where
  id : Option String
  value : Cart
  deriving DecidableEq

namespace KeyedCart

def json (k : KeyedCart) : Bytes :=
  Json.Writer.object
    [("id", k.id.elim Json.Writer.null Json.Writer.text), ("value", k.value.json)]

structure Draft where
  id : Option (Option String) := none
  value : Option Cart := none

def shape : Json.Reader.Shape Draft KeyedCart where
  expected := "a cart with a key"
  start := {}
  fields :=
    [{ name := "id", isSet := fun d => d.id.isSome
       read := fun d =>
         (Json.Reader.option Json.Reader.text).map fun s => { d with id := some s } },
     { name := "value", isSet := fun d => d.value.isSome
       read := fun d => Cart.shape.reader.map fun c => { d with value := some c } }]
  finish := fun d =>
    match d.value with
    | none => .error (.missingField "value")
    | some value => .ok ⟨d.id.getD none, value⟩

def codec : Codec KeyedCart := .json json shape.reader

def objectKey : ObjectKey KeyedCart := ⟨"Keyed", (·.id)⟩

end KeyedCart

end SiblingStore
