import Stencil.Data
import Stencil.Yaml.Lexeme

/-!
# Nodes of YAML documents

A document is a tree of scalars, sequences and mappings, any of which may have an anchor and a tag.
An alias stands for the node with an anchor.  Whatever names anchors is a parameter: in the text it
is a name, and where no alias is left there is nothing to name.

Each anchor is given the number of distinct names that were anchored before it, and an alias the
number its name was given last.  If two nodes are given the same number, it stands for the later
one.
-/

namespace Stencil.Yaml

/-- What may stand before a node. -/
structure Properties (ρ : Type) where
  anchor : Option ρ
  tag : Option TagOctets
  deriving Repr

/-- A node whose anchors are named by `ρ`. -/
inductive Node (ρ : Type) where
  | alias (target : ρ)
  | scalar (properties : Properties ρ) (style : Style) (content : String)
  | sequence (properties : Properties ρ) (items : List (Node ρ))
  | mapping (properties : Properties ρ) (entries : List (Node ρ × Node ρ))

namespace Node

variable {ρ : Type}

/-- The scalar that stands where there is no content. -/
def empty (properties : Properties ρ) : Node ρ :=
  .scalar properties .plain ""

/-- A scalar without content, anchor and tag. -/
def absent : Node ρ :=
  .empty { anchor := none, tag := none }

mutual

/-- How many events a node consists of: one for an alias or a scalar, and one each for the start
and the end of a collection. -/
def size : Node ρ → Nat
  | .alias _ => 1
  | .scalar _ _ _ => 1
  | .sequence _ items => sizeOfItems items + 2
  | .mapping _ entries => sizeOfEntries entries + 2

/-- How many events the items of a sequence consist of. -/
def sizeOfItems : List (Node ρ) → Nat
  | [] => 0
  | item :: rest => size item + sizeOfItems rest

/-- How many events the entries of a mapping consist of. -/
def sizeOfEntries : List (Node ρ × Node ρ) → Nat
  | [] => 0
  | (key, value) :: rest => size key + size value + sizeOfEntries rest

end

end Node

/-- The numbers that names were given, by name. -/
abbrev Anchors := List (String × Nat)

namespace Properties

/-- Gives the anchor, if there is one, its number. -/
def number (properties : Properties String) (anchors : Anchors) : Properties Nat × Anchors :=
  match properties.anchor with
  | none => ({ anchor := none, tag := properties.tag }, anchors)
  | some name =>
      let number := anchors.length
      ({ anchor := some number, tag := properties.tag }, Entries.insert name number anchors)

end Properties

namespace Node

mutual

/-- Gives numbers to the anchors and aliases of a node; there is no number for an alias whose name
was not anchored before. -/
def number (anchors : Anchors) : Node String → Option (Node Nat × Anchors)
  | .alias name => (Entries.find? name anchors).map fun target => (.alias target, anchors)
  | .scalar properties style content =>
      let (properties, anchors) := properties.number anchors
      some (.scalar properties style content, anchors)
  | .sequence properties items => do
      let (properties, anchors) := properties.number anchors
      let (items, anchors) ← numberItems anchors items
      return (.sequence properties items, anchors)
  | .mapping properties entries => do
      let (properties, anchors) := properties.number anchors
      let (entries, anchors) ← numberEntries anchors entries
      return (.mapping properties entries, anchors)

/-- Gives numbers to the anchors and aliases of items. -/
def numberItems (anchors : Anchors) : List (Node String) → Option (List (Node Nat) × Anchors)
  | [] => some ([], anchors)
  | item :: rest => do
      let (item, anchors) ← number anchors item
      let (rest, anchors) ← numberItems anchors rest
      return (item :: rest, anchors)

/-- Gives numbers to the anchors and aliases of entries. -/
def numberEntries (anchors : Anchors) :
    List (Node String × Node String) → Option (List (Node Nat × Node Nat) × Anchors)
  | [] => some ([], anchors)
  | (key, value) :: rest => do
      let (key, anchors) ← number anchors key
      let (value, anchors) ← number anchors value
      let (rest, anchors) ← numberEntries anchors rest
      return ((key, value) :: rest, anchors)

end

/-- A node that defines what its anchor stands for. -/
def definition (properties : Properties Nat) (node : Node Nat) : List (Nat × Node Nat) :=
  properties.anchor.toList.map fun number => (number, node)

mutual

/-- What numbers stand for, in the order of the text. -/
def definitions : Node Nat → List (Nat × Node Nat)
  | .alias _ => []
  | .scalar properties style content => definition properties (.scalar properties style content)
  | .sequence properties items =>
      definition properties (.sequence properties items) ++ definitionsOfItems items
  | .mapping properties entries =>
      definition properties (.mapping properties entries) ++ definitionsOfEntries entries

def definitionsOfItems : List (Node Nat) → List (Nat × Node Nat)
  | [] => []
  | item :: rest => definitions item ++ definitionsOfItems rest

def definitionsOfEntries : List (Node Nat × Node Nat) → List (Nat × Node Nat)
  | [] => []
  | (key, value) :: rest =>
      definitions key ++ definitions value ++ definitionsOfEntries rest

end

end Node

end Stencil.Yaml
