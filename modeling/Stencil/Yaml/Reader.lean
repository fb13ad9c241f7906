import Stencil.Yaml.Document
import Stencil.Yaml.Scalar.Resolution

/-!
# Reading YAML values

The value of a node follows from its tag and, for scalars, from its text.  A local tag becomes part
of the value.  No key may occur twice in a mapping.
-/

namespace Stencil.Yaml

/-- The value of a node with a given tag, if `untagged` is what it is without a tag.  Only local
tags count. -/
def addTag (tag : Option TagOctets) (untagged : Yaml) : Yaml :=
  match localTag? tag with
  | none => untagged
  | some name => .tagged name untagged

/-- Adds an entry unless there is one of its key. -/
def insertNew (key value : Yaml) (entries : List (Yaml × Yaml)) : Option (List (Yaml × Yaml)) :=
  match find? key entries with
  | none => some (insert key value entries)
  | some _ => none

mutual

def ofNode : Node Empty → Option Yaml
  | .alias target => target.elim
  | .scalar properties style content =>
      match properties.tag with
      | some tag =>
          if (localTag? (some tag)).isSome then
            (ofScalar style content).map (addTag (some tag))
          else ofTaggedScalar tag style content
      | none => ofScalar style content
  | .sequence properties items =>
      (ofItems items).map fun values => addTag properties.tag (.sequence values)
  | .mapping properties entries =>
      (ofNodeEntries [] entries).map fun values => addTag properties.tag (.mapping values)

def ofItems : List (Node Empty) → Option (List Yaml)
  | [] => some []
  | item :: rest => do
      let value ← ofNode item
      let values ← ofItems rest
      return value :: values

/-- The values of entries, added to those before them. -/
def ofNodeEntries (before : List (Yaml × Yaml)) :
    List (Node Empty × Node Empty) → Option (List (Yaml × Yaml))
  | [] => some before
  | (key, node) :: rest => do
      let key ← ofNode key
      let value ← ofNode node
      let entries ← insertNew key value before
      ofNodeEntries entries rest

end

def read (text : String) : Option Yaml := do
  let document ← Document.read text
  ofNode (← document.expand)

end Stencil.Yaml
