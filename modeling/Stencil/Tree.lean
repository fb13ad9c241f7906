import Stencil.Data
import Stencil.Decimal.Layout

/-!
# Data trees

A data tree is built by hand from scalars, sequences and mappings.
-/

namespace Stencil

/-- A value put together from maps, lists and scalars. -/
inductive Tree where
  | null
  | bool (value : Bool)
  | integer (value : Int)
  | float (value : Float)
  | string (content : String)
  | mapping (entries : List (String × Tree))
  | sequence (items : List Tree)
  deriving Repr

namespace Tree

/-- A mapping with the given entries, a later one replacing an earlier one of its name. -/
def ofEntries (entries : List (String × Tree)) : Tree :=
  .mapping (Entries.ofList entries)

/-- Doubles are written without an exponent, and whole ones without a point. -/
def layout : Layout where
  positional := fun _ => true
  wholeSuffix := ""
  exponentPlus := ""
  tie := .awayFromZero
  nan := "NaN"
  infinity := "inf"

def child (value : Tree) (name : String) : Option Tree :=
  match value with
  | .mapping entries => Entries.find? name entries
  | _ => none

def children : Tree → Option (List Tree)
  | .sequence items => some items
  | _ => none

def text : Tree → Option String
  | .bool true => some "true"
  | .bool false => some "false"
  | .integer value => some (toString value)
  | .float value => some (layout.write value)
  | .string content => some content
  | _ => none

/-- Whether a value counts as true: it is a mapping, or neither null, false, zero nor empty. -/
def truthy : Tree → Bool
  | .null => false
  | .bool value => value
  | .integer value => value ≠ 0
  | .float value => !(value == 0.0)
  | .string content => !content.isEmpty
  | .sequence items => !items.isEmpty
  | .mapping _ => true

def isNull : Tree → Bool
  | .null => true
  | _ => false

instance : Data Tree where
  child := child
  children := children
  text := text
  truthy := truthy
  isNull := isNull

end Tree

end Stencil
