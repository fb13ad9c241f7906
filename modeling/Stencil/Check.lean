import Stencil.Node
import Stencil.Path
import Stencil.Scope

/-!
# Checking templates against schemas

A tree is walked in the order of its text.  Every path is resolved in its scope; what fails to
resolve or is used as something else is reported.  Where the list of a loop is in error, paths that
start at the binding of that loop are not reported.  A tree without errors has its paths marked.
-/

namespace Stencil

namespace Scope

/-- The kind of the elements, if a path refers to a list. -/
def elementKind (scope : Scope) (path : Path) : Option Kind :=
  match scope.resolve path with
  | .found (.list element) _ => some element
  | _ => none

/-- The errors of a path whose value is written. -/
def variableErrors (scope : Scope) (path : Path) : List TypeError :=
  match scope.resolve path with
  | .found .scalar _ => []
  | .found kind _ => [.notInterpolable path.text kind.text]
  | .unknown => []
  | .failed error => [error]

/-- The errors of a path that a loop runs over. -/
def loopErrors (scope : Scope) (path : Path) : List TypeError :=
  match scope.resolve path with
  | .found (.list _) _ => []
  | .found kind _ => [.notIterable path.text "list" kind.text]
  | .unknown => []
  | .failed error => [error]

/-- The errors of a path that decides between two branches. -/
def conditionErrors (scope : Scope) (path : Path) : List TypeError :=
  match scope.resolve path with
  | .failed error => [error]
  | _ => []

/-- The path with its marks, as far as it resolves. -/
def mark (scope : Scope) (path : Path) : Reference :=
  match scope.resolve path with
  | .found _ marks => path.mark marks
  | _ => path.mark []

end Scope

namespace Node

mutual

def typeErrors (scope : Scope) : Node Path → List TypeError
  | .text _ => []
  | .variable path _ => scope.variableErrors path
  | .loop path binding body =>
      scope.loopErrors path ++ typeErrorsAll (scope.enter binding (scope.elementKind path)) body
  | .conditional path thenBranch elseBranch =>
      scope.conditionErrors path ++ typeErrorsAll scope thenBranch ++
        (match elseBranch with
        | none => []
        | some nodes => typeErrorsAll scope nodes)

def typeErrorsAll (scope : Scope) : List (Node Path) → List TypeError
  | [] => []
  | node :: rest => typeErrors scope node ++ typeErrorsAll scope rest

end

mutual

def mark (scope : Scope) : Node Path → Node Reference
  | .text content => .text content
  | .variable path raw => .variable (scope.mark path) raw
  | .loop path binding body =>
      .loop (scope.mark path) binding
        (markAll (scope.enter binding (scope.elementKind path)) body)
  | .conditional path thenBranch elseBranch =>
      .conditional (scope.mark path) (markAll scope thenBranch)
        (match elseBranch with
        | none => none
        | some nodes => some (markAll scope nodes))

def markAll (scope : Scope) : List (Node Path) → List (Node Reference)
  | [] => []
  | node :: rest => mark scope node :: markAll scope rest

end

end Node

/-- A tree that fits a schema. -/
structure Template where
  nodes : List (Node Reference)
  schema : Schema

def Template.check (nodes : List (Node Path)) (schema : Schema) :
    Except (List TypeError) Template :=
  let scope := Scope.ofSchema schema
  match Node.typeErrorsAll scope nodes with
  | [] => .ok { nodes := Node.markAll scope nodes, schema }
  | errors => .error errors

end Stencil
