import Stencil.Data
import Stencil.Data.Json

/-!
# Schemas

A schema declares the fields of the data a template is rendered on.  A kind says what a value must
look like: a scalar, a list whose elements are of one kind, an object with fields of given kinds, or
something that may also be absent.
-/

namespace Stencil

/-- What a value looks like.  The fields of an object are in the order of their names. -/
inductive Kind where
  | scalar
  | list (element : Kind)
  | object (fields : List (String × Kind))
  | optional (kind : Kind)
  deriving BEq, Repr

namespace Kind

/-- An object with the given fields, a later one replacing an earlier one of its name. -/
def ofFields (fields : List (String × Kind)) : Kind :=
  .object (Entries.ofList fields)

/-- The kind that may also be absent.  A kind that may be absent already stays as it is. -/
def orAbsent : Kind → Kind
  | .optional kind => .optional kind
  | kind => .optional kind

/-- The kind of a value that is there. -/
def required : Kind → Kind
  | .optional kind => kind.required
  | kind => kind

def isOptional : Kind → Bool
  | .optional _ => true
  | _ => false

def text : Kind → String
  | .scalar => "scalar"
  | .list element => "list of " ++ element.text
  | .object _ => "object"
  | .optional kind => "optional " ++ kind.text

end Kind

/-- The declared fields, in the order of their names. -/
structure Schema where
  fields : List (String × Kind)
  deriving BEq, Repr

/-- What is wrong with the shape a schema is made from. -/
inductive ShapeFault where
  | rootNotMapping
  | rootNotObject (found : Kind)
  | declaredTwice
  /-- A list shape has no element or more than one. -/
  | listLength
  | unexpected (shape : Json)

def ShapeFault.reason : ShapeFault → String
  | .rootNotMapping => "root must be a mapping"
  | .rootNotObject found => "root must be an object, found " ++ found.text
  | .declaredTwice => "declared twice"
  | .listLength => "a list shape has exactly one element"
  | .unexpected shape => "unexpected shape `" ++ shape.write ++ "`"

/-- Why there is no schema. -/
inductive SchemaError where
  /-- The shape has a fault at a location. -/
  | invalidShape (location : String) (fault : ShapeFault)
  /-- The text is not JSON. -/
  | json
  /-- The text is not YAML. -/
  | yaml

def SchemaError.invalidShapeText (location reason : String) : String :=
  "invalid shape at `" ++ location ++ "`: " ++ reason

/-- The wording of an error, for errors whose wording is fixed. -/
def SchemaError.message? : SchemaError → Option String
  | .invalidShape location fault => some (invalidShapeText location fault.reason)
  | .json => none
  | .yaml => none

namespace Schema

def empty : Schema :=
  { fields := [] }

/-- Declares a field; an earlier field of the same name is replaced. -/
def field (schema : Schema) (name : String) (kind : Kind) : Schema :=
  { fields := Entries.insert name kind schema.fields }

def get? (schema : Schema) (name : String) : Option Kind :=
  Entries.find? name schema.fields

end Schema

end Stencil
