import Stencil.Data
import Stencil.Decimal.Layout

/-!
# YAML values

A YAML value is a tree of sequences and mappings over scalars.  The keys of a mapping may be any
values, and any value may have a tag of its own.  As data, only entries whose keys are strings can
be referred to by name, and a tag changes nothing.
-/

namespace Stencil

/-- A YAML value. -/
inductive Yaml where
  | null
  | bool (value : Bool)
  | number (value : Number)
  | string (content : String)
  | sequence (items : List Yaml)
  | mapping (entries : List (Yaml × Yaml))
  | tagged (tag : String) (value : Yaml)
  deriving Repr

namespace Yaml

/-- Doubles have a point or an exponent, which stands from 10^16 on and below 10^-5. -/
def layout : Layout where
  positional := fun exponent => -5 ≤ exponent && exponent ≤ 15
  wholeSuffix := ".0"
  exponentPlus := ""
  tie := .toEven
  nan := ".nan"
  infinity := ".inf"

/-- Whether two numbers are the same key.  A whole number differs from every floating point
number. -/
def isSameNumber : Number → Number → Bool
  | .integer left, .integer right => left = right
  | .float left, .float right => left == right || (left.isNaN && right.isNaN)
  | _, _ => false

/-- A tag without the exclamation mark before its name. -/
def unmarked (tag : String) : String :=
  match tag.toList with
  | '!' :: character :: rest => String.ofList (character :: rest)
  | _ => tag

mutual

/-- Whether two values are the same key.  The order of entries does not matter, nor does a mark
before the name of a tag. -/
def isSame : Yaml → Yaml → Bool
  | .null, .null => true
  | .bool left, .bool right => left = right
  | .number left, .number right => isSameNumber left right
  | .string left, .string right => left = right
  | .sequence left, .sequence right => areSame left right
  | .mapping left, .mapping right => left.length = right.length && areAmong left right
  | .tagged leftTag left, .tagged rightTag right =>
      unmarked leftTag = unmarked rightTag && isSame left right
  | _, _ => false

/-- Whether the items of two sequences are the same. -/
def areSame : List Yaml → List Yaml → Bool
  | [], [] => true
  | left :: leftRest, right :: rightRest => isSame left right && areSame leftRest rightRest
  | _, _ => false

/-- Whether the same entries are found among others. -/
def areAmong : List (Yaml × Yaml) → List (Yaml × Yaml) → Bool
  | [], _ => true
  | (key, value) :: rest, others =>
      others.any (fun other => isSame key other.1 && isSame value other.2) && areAmong rest others

end

def find? (key : Yaml) : List (Yaml × Yaml) → Option Yaml
  | [] => none
  | (head, value) :: rest => if isSame key head then some value else find? key rest

/-- Adds an entry; the value of an earlier entry of the same key is replaced. -/
def insert (key value : Yaml) : List (Yaml × Yaml) → List (Yaml × Yaml)
  | [] => [(key, value)]
  | (head, old) :: rest =>
      if isSame key head then (head, value) :: rest else (head, old) :: insert key value rest

/-- A mapping with the given entries, a later one replacing an earlier one of its key. -/
def ofEntries (entries : List (Yaml × Yaml)) : Yaml :=
  .mapping (entries.foldl (fun inserted entry => insert entry.1 entry.2 inserted) [])

end Yaml

end Stencil

namespace Stencil.Yaml

def child (value : Yaml) (name : String) : Option Yaml :=
  match value with
  | .mapping entries => find? (.string name) entries
  | .tagged _ content => content.child name
  | _ => none

def children : Yaml → Option (List Yaml)
  | .sequence items => some items
  | .tagged _ content => content.children
  | _ => none

def writeNumber : Number → String
  | .integer value => toString value
  | .float value => layout.write value

def text : Yaml → Option String
  | .bool true => some "true"
  | .bool false => some "false"
  | .number value => some (writeNumber value)
  | .string content => some content
  | .tagged _ content => content.text
  | _ => none

/-- Whether a value counts as true: it is a mapping, or neither null, false, zero nor empty. -/
def truthy : Yaml → Bool
  | .null => false
  | .bool value => value
  | .number value => !value.isZero
  | .string content => !content.isEmpty
  | .sequence items => !items.isEmpty
  | .mapping _ => true
  | .tagged _ content => content.truthy

def isNull : Yaml → Bool
  | .null => true
  | .tagged _ content => content.isNull
  | _ => false

instance : Data Yaml where
  child := child
  children := children
  text := text
  truthy := truthy
  isNull := isNull

end Stencil.Yaml
