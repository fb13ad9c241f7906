import Stencil.Path
import Stencil.Schema
import Stencil.TypeError

/-!
# Static scopes

Where a path stands decides what it may refer to: the fields of the schema and, inside of loops,
their bindings and metadata.  Loops are searched from the innermost one that the path does not
leave, and the fields last.
-/

namespace Stencil

/-- What an enclosing loop declares. -/
structure LoopScope where
  binding : String
  /-- The kind of the elements, unless the list of the loop is in error. -/
  element : Option Kind

/-- What can be referred to at a place of a template. -/
structure Scope where
  /-- The fields of the schema. -/
  fields : List (String × Kind)
  /-- The enclosing loops, innermost first. -/
  loops : List LoopScope

/-- What a path refers to. -/
inductive Resolution where
  /-- A value of a kind, which is none of those that may be absent.  The marks tell for each
  segment whether its value may be absent. -/
  | found (kind : Kind) (marks : List Bool)
  /-- Something that depends on a loop whose list is in error, or nothing because the path has no
  segment. -/
  | unknown
  | failed (error : TypeError)

namespace Scope

def ofSchema (schema : Schema) : Scope :=
  { fields := schema.fields, loops := [] }

def enter (scope : Scope) (binding : String) (element : Option Kind) : Scope :=
  { scope with loops := { binding, element } :: scope.loops }

/-- The scope outside of a number of enclosing loops. -/
def leave (scope : Scope) (hops : Nat) : Scope :=
  { scope with loops := scope.loops.drop hops }

/-- What a name refers to inside of loops.  The kind is missing for the binding of a loop whose
list is in error. -/
def findIn (fields : List (String × Kind)) (name : String) :
    List LoopScope → Option (Option Kind)
  | [] => (Entries.find? name fields).map some
  | innermost :: outer =>
      if innermost.binding = name then some innermost.element
      else if Metadata.isReserved name then some (some .scalar)
      else findIn fields name outer

def find (scope : Scope) (name : String) : Option (Option Kind) :=
  findIn scope.fields name scope.loops

/-- Names in order, each once. -/
def sortNames (names : List String) : List String :=
  Entries.names (Entries.ofList (names.map fun name => (name, ())))

/-- The names that refer to something. -/
def names (scope : Scope) : List String :=
  let loopNames := scope.loops.map LoopScope.binding
  let metadata := if scope.loops.isEmpty then [] else Metadata.all.map Metadata.name
  sortNames (Entries.names scope.fields ++ loopNames ++ metadata)

/-- Follows the segments of a path from position `position` on, below a value of a kind. -/
def follow (path : Path) (position : Nat) (kind : Kind) : List String → Resolution
  | [] => .found kind []
  | segment :: rest =>
      let missing := fun available =>
        Resolution.failed (.fieldNotFound segment (path.textUpTo (position + 1)) available)
      match kind with
      | .object fields =>
          match Entries.find? segment fields with
          | none => missing (sortNames (Entries.names fields))
          | some field =>
              match follow path (position + 1) field.required rest with
              | .found below marks => .found below (field.isOptional :: marks)
              | .unknown => .unknown
              | .failed error => .failed error
      | _ => missing []

def resolve (scope : Scope) (path : Path) : Resolution :=
  if path.hops > scope.loops.length then
    .failed (.navigationOutOfRange path.text path.hops scope.loops.length)
  else
    let outside := scope.leave path.hops
    match path.segments with
    | [] => .unknown
    | first :: rest =>
        match outside.find first with
        | none => .failed (.fieldNotFound first (path.textUpTo 1) outside.names)
        | some none => .unknown
        | some (some kind) =>
            match follow path 1 kind.required rest with
            | .found below marks => .found below (kind.isOptional :: marks)
            | .unknown => .unknown
            | .failed error => .failed error

end Scope

end Stencil
