import Playthrough.Yaml.Token

/-!
# Documents as trees

A YAML document is a tree of scalars, sequences and mappings. A node may carry an
anchor, and a reference stands for a node with an anchor.

Text that makes no sense somewhere still has a tree: everything before that place,
with a `cut` there. This is what lets a document be judged by what comes before the
place where it breaks off.

- `Node α` is a tree whose anchors are named by values of `α`;
- `Node.number` turns the names that are written into numbers that tell anchors of
  one name apart, and cuts the tree at a reference to a name not seen before.
-/

namespace Playthrough.Yaml

/-- A node of a document. -/
inductive Node (α : Type) where
  /-- A scalar. -/
  | scalar (anchor : Option α) (style : ScalarStyle) (text : String)
  /-- A sequence of items. -/
  | sequence (anchor : Option α) (items : List (Node α))
  /-- A mapping from keys to values, in the order in which they are written. -/
  | mapping (anchor : Option α) (entries : List (Node α × Node α))
  /-- Another mention of a node with an anchor. -/
  | reference (target : α)
  /-- The place where the text stops making sense. -/
  | cut

namespace Node

/-- The node that is there where nothing is written. -/
def absent {α : Type} : Node α := .scalar none .plain ""

/-! ## Cuts -/

mutual

/-- Whether the text breaks off within a node. -/
def isCut {α : Type} : Node α → Bool
  | .cut => true
  | .sequence _ items => anyCut items
  | .mapping _ entries => anyEntryCut entries
  | _ => false

/-- Whether the text breaks off within one of the items. -/
def anyCut {α : Type} : List (Node α) → Bool
  | [] => false
  | item :: items => isCut item || anyCut items

/-- Whether the text breaks off within one of the entries. -/
def anyEntryCut {α : Type} : List (Node α × Node α) → Bool
  | [] => false
  | (key, value) :: entries => isCut key || isCut value || anyEntryCut entries

end

/-! ## Size -/

mutual

/-- The number of marks that a node is made of: one for a scalar or a reference, and
one for each end of a collection. -/
def size {α : Type} : Node α → Nat
  | .scalar .. => 1
  | .reference _ => 1
  | .sequence anchor items => 1 + sizeItems items + if isCut (.sequence anchor items) then 0 else 1
  | .mapping anchor entries =>
    1 + sizeEntries entries + if isCut (.mapping anchor entries) then 0 else 1
  | .cut => 0

/-- The number of marks that items are made of. -/
def sizeItems {α : Type} : List (Node α) → Nat
  | [] => 0
  | item :: items => size item + sizeItems items

/-- The number of marks that entries are made of. -/
def sizeEntries {α : Type} : List (Node α × Node α) → Nat
  | [] => 0
  | (key, value) :: entries => size key + size value + sizeEntries entries

end

/-! ## Anchors -/

/-- The names of anchors seen so far, each with the number it was given last. -/
abbrev Names := List (String × Nat)

/-- Gives the next number to a name, if there is one. The number is that of the
different names seen before, so a name that comes again may get a number that a new
name gets later. -/
def Names.add (names : Names) : Option String → Option Nat × Names
  | none => (none, names)
  | some name => (some names.length, (name, names.length) :: names.filter (·.1 ≠ name))

mutual

/-- Numbers the anchors of a node in the order of the text. Without names the text has
broken off before. -/
def number : Node String → Names → Node Nat × Option Names
  | .scalar anchor style text, names =>
    let (anchor, names) := names.add anchor
    (.scalar anchor style text, some names)
  | .sequence anchor items, names =>
    let (anchor, names) := names.add anchor
    let (items, names) := numberItems items names
    (.sequence anchor items, names)
  | .mapping anchor entries, names =>
    let (anchor, names) := names.add anchor
    let (entries, names) := numberEntries entries names
    (.mapping anchor entries, names)
  | .reference name, names =>
    match names.lookup name with
    | some target => (.reference target, some names)
    | none => (.cut, none)
  | .cut, _ => (.cut, none)

/-- Numbers the anchors of items. -/
def numberItems : List (Node String) → Names → List (Node Nat) × Option Names
  | [], names => ([], some names)
  | item :: items, names =>
    match number item names with
    | (item, none) => ([item], none)
    | (item, some names) =>
      let (items, names) := numberItems items names
      (item :: items, names)

/-- Numbers the anchors of entries. -/
def numberEntries :
    List (Node String × Node String) → Names → List (Node Nat × Node Nat) × Option Names
  | [], names => ([], some names)
  | (key, value) :: entries, names =>
    match number key names with
    | (key, none) => ([(key, .cut)], none)
    | (key, some names) =>
      match number value names with
      | (value, none) => ([(key, value)], none)
      | (value, some names) =>
        let (entries, names) := numberEntries entries names
        ((key, value) :: entries, names)

end

/-- A node with the given anchor, as a list of one or no target. -/
def targetOf {α : Type} (anchor : Option α) (node : Node α) : List (α × Node α) :=
  (anchor.map fun a => (a, node)).toList

mutual

/-- The nodes with anchors within a node, in the order of the text. -/
def targets {α : Type} : Node α → List (α × Node α)
  | .scalar anchor style text => targetOf anchor (.scalar anchor style text)
  | .sequence anchor items => targetOf anchor (.sequence anchor items) ++ targetsOfItems items
  | .mapping anchor entries => targetOf anchor (.mapping anchor entries) ++ targetsOfEntries entries
  | .reference _ => []
  | .cut => []

/-- The nodes with anchors within items. -/
def targetsOfItems {α : Type} : List (Node α) → List (α × Node α)
  | [] => []
  | item :: items => targets item ++ targetsOfItems items

/-- The nodes with anchors within entries. -/
def targetsOfEntries {α : Type} : List (Node α × Node α) → List (α × Node α)
  | [] => []
  | (key, value) :: entries => targets key ++ targets value ++ targetsOfEntries entries

end

end Node

end Playthrough.Yaml
