import SiblingStore.Json.Reader
import SiblingStore.Json.Writer
import SiblingStore.Ordered.Map

/-!
# JSON values

A value of any shape, for data whose shape is not fixed. An object is the list of
its entries; a look-up takes the last entry of a name.
-/

namespace SiblingStore.Json

inductive Value where
  | null
  | boolean (b : Bool)
  | integer (n : Int)
  | float (x : Float)
  | text (s : String)
  | list (items : List Value)
  | object (entries : List (String × Value))

namespace Value

instance : Inhabited Value := ⟨null⟩

/-- Reads a value nested less deep than `depth`. -/
def readWithin : Nat → Reader Value
  | 0 => fun bs => Reader.faultPast .valueUnfinished bs
  | depth + 1 => fun bs =>
    match Reader.skipSpace bs with
    | [] => Reader.faultPast .valueUnfinished []
    | b :: rest =>
      if b = 0x6E then (Reader.word [0x75, 0x6C, 0x6C] rest).map (null, ·)
      else if b = 0x74 then (Reader.word [0x72, 0x75, 0x65] rest).map (boolean true, ·)
      else if b = 0x66 then (Reader.word [0x61, 0x6C, 0x73, 0x65] rest).map (boolean false, ·)
      else if b = Reader.quote then Reader.map text Reader.stringTail rest
      else if b = Reader.openBracket then
        Reader.map list (Reader.listOf (readWithin depth)) (b :: rest)
      else if b = Reader.openBrace then
        Reader.map object (Reader.entriesOf (readWithin depth)) (b :: rest)
      else
        Reader.map (fun
          | .natural n => integer n
          | .negative n => integer (-n)
          | .float x => float x) (Reader.number "a value") (b :: rest)

def parse (input : Bytes) : Except Fault Value := Reader.run (readWithin 128) input

def write : Value → Bytes
  | null => Writer.null
  | boolean b => Writer.boolean b
  | integer n => Writer.integer n
  | float x => Writer.ascii (Decimal.pointed x)
  | text s => Writer.text s
  | list items => Writer.list (items.attach.map fun v => write v.1)
  | object entries => Writer.object (entries.attach.map fun p => (p.1.1, write p.1.2))
decreasing_by
  all_goals simp_wf
  · have := List.sizeOf_lt_of_mem v.2; omega
  · have := List.sizeOf_lt_of_mem p.2
    have : sizeOf p.1.2 < sizeOf p.1 := by
      obtain ⟨⟨name, v⟩, _⟩ := p
      simp only [Prod.mk.sizeOf_spec]
      omega
    omega

def get? (v : Value) (name : String) : Option Value :=
  match v with
  | object entries => (entries.reverse.find? (·.1 = name)).map (·.2)
  | _ => none

def text? : Value → Option String
  | text s => some s
  | _ => none

def boolean? : Value → Option Bool
  | boolean b => some b
  | _ => none

def natural? : Value → Option Nat
  | integer n => if 0 ≤ n then some n.toNat else none
  | _ => none

def integer? : Value → Option Int
  | integer n => some n
  | _ => none

def float? : Value → Option Float
  | integer n => some (if n < 0 then -(UInt64.ofNat n.natAbs).toFloat else
      (UInt64.ofNat n.natAbs).toFloat)
  | float x => some x
  | _ => none

def list? : Value → Option (List Value)
  | list l => some l
  | _ => none

def isNull : Value → Bool
  | null => true
  | _ => false

end Value

end SiblingStore.Json
