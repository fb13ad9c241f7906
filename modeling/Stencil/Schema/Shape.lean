import Stencil.Json.Reader
import Stencil.Schema

/-!
# Shapes

A type whose values can be rendered tells the kind of its values.  A type of objects thereby
describes a schema.

A shape document describes a schema in JSON.  The word `scalar` is a scalar, an array with one
item is a list, a mapping is an object, and a key that ends in a question mark names a field that
may be absent.  The word `scalar?` is a scalar that may be absent.  Faults are reported in the
order in which the document is walked, an object's entries by their keys.
-/

namespace Stencil

/-- Types whose values are of a known kind. -/
class Shape (α : Type) where
  kind : Kind

def Kind.ofType (α : Type) [Shape α] : Kind :=
  Shape.kind α

instance : Shape String := ⟨.scalar⟩
instance : Shape Char := ⟨.scalar⟩
instance : Shape Bool := ⟨.scalar⟩
instance : Shape Nat := ⟨.scalar⟩
instance : Shape Int := ⟨.scalar⟩
instance : Shape Float := ⟨.scalar⟩

instance {α : Type} [Shape α] : Shape (List α) := ⟨.list (Kind.ofType α)⟩
instance {α : Type} [Shape α] : Shape (Array α) := ⟨.list (Kind.ofType α)⟩
instance {α : Type} [Shape α] : Shape (Option α) := ⟨(Kind.ofType α).orAbsent⟩

def Schema.ofType (α : Type) [Shape α] : Except SchemaError Schema :=
  match Kind.ofType α with
  | .object fields => .ok { fields }
  | found => .error (.invalidShape "" (.rootNotObject found))

/-- The name a key declares, and whether the field may be absent. -/
def Schema.splitKey (key : String) : String × Bool :=
  let characters := key.toList
  if characters.getLast? = some '?' then (String.ofList characters.dropLast, true)
  else (key, false)

mutual

/-- The kind that a shape at a location describes. -/
def Kind.ofShape (location : String) : Json → Except SchemaError Kind
  | .string word =>
      if word = "scalar" then .ok .scalar
      else if word = "scalar?" then .ok (.optional .scalar)
      else .error (.invalidShape location (.unexpected (.string word)))
  | .array [item] =>
      match ofShape (location ++ "[]") item with
      | .error error => .error error
      | .ok element => .ok (.list element)
  | .array _ => .error (.invalidShape location .listLength)
  | .object entries =>
      match fieldsOfShape location [] entries with
      | .error error => .error error
      | .ok fields => .ok (.object fields)
  | shape => .error (.invalidShape location (.unexpected shape))

/-- The fields that entries at a location describe, added to those declared before them. -/
def Kind.fieldsOfShape (location : String) (fields : List (String × Kind)) :
    List (String × Json) → Except SchemaError (List (String × Kind))
  | [] => .ok fields
  | (key, shape) :: rest =>
      let (name, mayBeAbsent) := Schema.splitKey key
      let inside := location ++ "." ++ name
      match ofShape inside shape with
      | .error error => .error error
      | .ok kind =>
          if (Entries.find? name fields).isSome then
            .error (.invalidShape inside .declaredTwice)
          else
            let declared := if mayBeAbsent then kind.orAbsent else kind
            fieldsOfShape location (Entries.insert name declared fields) rest

end

namespace Schema

def ofShape : Json → Except SchemaError Schema
  | .object entries =>
      match Kind.fieldsOfShape "" [] entries with
      | .error error => .error error
      | .ok fields => .ok { fields }
  | _ => .error (.invalidShape "" .rootNotMapping)

def ofJsonText (text : String) : Except SchemaError Schema :=
  match Json.read text with
  | none => .error .json
  | some shape => ofShape shape

end Schema

end Stencil
