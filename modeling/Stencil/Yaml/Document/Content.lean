import Stencil.Yaml.Document
import Stencil.Yaml.Scalar.Resolution

/-!
# The content of documents

A program that expects a certain structure asks the nodes of a document for it.  Aliases are
followed where a node is asked; what no question reaches is not looked at.
-/

namespace Stencil.Yaml

namespace Document

def scalarText (document : Document) (node : Node Nat) : Expansion String := do
  match ← Node.expandAlias document node with
  | .scalar _ _ content => return content
  | _ => failure

/-- The items of a sequence; where nothing is written there are none. -/
def items (document : Document) (node : Node Nat) : Expansion (List (Node Nat)) := do
  match ← Node.expandAlias document node with
  | .sequence _ items => return items
  | .scalar _ .plain "" => return []
  | _ => failure

/-- The entries of a mapping by the texts of their keys; where nothing is written there are none. -/
def entries (document : Document) (node : Node Nat) : Expansion (List (String × Node Nat)) := do
  match ← Node.expandAlias document node with
  | .mapping _ entries =>
      entries.mapM fun (key, value) => do return (← document.scalarText key, value)
  | .scalar _ .plain "" => return []
  | _ => failure

/-- The whole numbers that fit 64 bits and have no sign, as scalars write them. -/
def natural (document : Document) (node : Node Nat) : Expansion Nat := do
  match ← Node.expandAlias document node with
  | .scalar properties style content =>
      if style = .plain || (style = .literal && properties.tag = some (standardTag "int")) then
        liftM ((readNatural content.toList).filter (· < Number.wordLimit))
      else failure
  | _ => failure

/-- The word that chooses among alternatives: a scalar, or a local tag without a value. -/
def choice (document : Document) (node : Node Nat) : Expansion String := do
  match ← Node.expandAlias document node with
  | .scalar properties style content =>
      match localTag? properties.tag with
      | none => return content
      | some name =>
          if style = .plain && (content.isEmpty || isNullWord content) then return name
          else failure
  | _ => failure

end Document

/-- The value of the entry of a name.  The name must not occur twice. -/
def findSingle (name : String) (entries : List (String × Node Nat)) :
    Option (Option (Node Nat)) :=
  match entries.filter fun entry => entry.1 = name with
  | [] => some none
  | [entry] => some (some entry.2)
  | _ => none

/-- Reads the value of the entry of a name, if there is one, and has a default otherwise. -/
def readSingle {α : Type} (name : String) (entries : List (String × Node Nat)) (default : α)
    (read : Node Nat → Expansion α) : Expansion α :=
  match findSingle name entries with
  | none => failure
  | some none => pure default
  | some (some node) => read node

end Stencil.Yaml
