import SiblingStore.Yaml.Token

/-!
# What aliases stand for

An alias stands for a node with an anchor before it in the text. Anchors are
numbered by how many different names there have been; a name that comes again
so may take the number that a new name takes next, and then shares it.
-/

namespace SiblingStore.Yaml

structure AnchorNames where
  /-- Each name with its number. -/
  numbers : List (String × Nat)
  /-- The numbers of all anchors, last first. -/
  anchors : List Nat
  /-- The numbers that aliases refer to, last first. -/
  aliases : List Nat

namespace AnchorNames

/-- Takes in an anchor: its number is how many names there have been. -/
def anchor (a : AnchorNames) (name : String) : AnchorNames :=
  let n := a.numbers.length
  { a with
    numbers := (name, n) :: a.numbers.filter (·.1 ≠ name)
    anchors := n :: a.anchors }

def refer (a : AnchorNames) (name : String) : Option AnchorNames :=
  (a.numbers.find? (·.1 = name)).map fun p => { a with aliases := p.2 :: a.aliases }

def read (a : AnchorNames) : List Token → Option AnchorNames
  | [] => some a
  | .anchor name :: ts => (a.anchor name).read ts
  | .reference name :: ts =>
    match a.refer name with
    | none => none
    | some a => a.read ts
  | _ :: ts => a.read ts

def place (a : AnchorNames) (number : Nat) : Nat :=
  a.anchors.length - 1 - a.anchors.idxOf number

end AnchorNames

/-- For every alias, in order, which anchor of the text it stands for. -/
def aliasTargets (ts : List Token) : Option (List Nat) :=
  (AnchorNames.read ⟨[], [], []⟩ ts).map fun a => a.aliases.reverse.map a.place

end SiblingStore.Yaml
