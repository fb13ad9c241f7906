/-!
# Data

A template is rendered on values that may be scalars, lists or objects.  What a kind of data has to
offer is collected in a class; the renderer knows nothing else about it.  Data formats keep whole
numbers apart from floating point numbers, although both are written the same way in a template.
Objects and schemas hold entries by name, in the order of their names and each name once.  Names
are compared character by character, which is also the order of their bytes.
-/

namespace Stencil

/-- A number in JSON or YAML data. -/
inductive Number where
  | integer (value : Int)
  | float (value : Float)
  deriving Repr

/-- The least natural number that does not fit 64 bits. -/
def Number.wordLimit : Nat := 0x10000000000000000

/-- Whether a whole number fits 64 bits, with a sign or without. -/
def Number.fitsWord (whole : Int) : Bool :=
  -0x8000000000000000 ≤ whole && whole < Number.wordLimit

/-- Whether a number is zero; what is no number is not. -/
def Number.isZero : Number → Bool
  | .integer value => value = 0
  | .float value => value == 0.0

end Stencil

namespace Stencil.Entries

variable {α : Type}

/-- Puts an entry at its place in the order; an entry of the same name is replaced. -/
def insert (name : String) (value : α) : List (String × α) → List (String × α)
  | [] => [(name, value)]
  | (head, old) :: rest =>
      if name < head then (name, value) :: (head, old) :: rest
      else if name = head then (name, value) :: rest
      else (head, old) :: insert name value rest

/-- The entries of a sequence of pairs, a later pair replacing an earlier one of its name. -/
def ofList (pairs : List (String × α)) : List (String × α) :=
  pairs.foldl (fun entries pair => insert pair.1 pair.2 entries) []

def find? (name : String) : List (String × α) → Option α
  | [] => none
  | (head, value) :: rest => if name = head then some value else find? name rest

/-- The names, in order. -/
def names (entries : List (String × α)) : List String :=
  entries.map Prod.fst

end Stencil.Entries

namespace Stencil

/-- Values a template can be rendered on. -/
class Data (δ : Type) where
  /-- The value of a field, if the value is an object and has the field. -/
  child : δ → String → Option δ
  /-- The elements, if the value is a list. -/
  children : δ → Option (List δ)
  /-- The text, if the value is a scalar. -/
  text : δ → Option String
  /-- Whether the value counts as true. -/
  truthy : δ → Bool
  /-- Whether the value counts as absent. -/
  isNull : δ → Bool

end Stencil
