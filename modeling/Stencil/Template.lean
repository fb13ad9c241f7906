import Stencil.Check
import Stencil.Node
import Stencil.Render
import Stencil.Token

/-!
# Making templates

A template text is read into tokens, built into a tree and checked against a schema.

Nodes that are checked may also come from another template, with the marks of an earlier check on
their paths.  A check replaces the marks of the paths that resolve and leaves those of the others as
they are; a tree as it is read has none.
-/

namespace Stencil

/-- Why a template text has no template. -/
inductive CompileError where
  | lex (error : LexError)
  | parse (error : ParseError)
  | check (errors : List TypeError)
  deriving DecidableEq, Repr

namespace CompileError

/-- The wording for a fault of the text of a directive. -/
def lexText (inner : String) : String :=
  "lex error: " ++ inner

def parseText (inner : String) : String :=
  "parse error: " ++ inner

def message : CompileError → String
  | .lex error => lexText error.message
  | .parse error => parseText error.message
  | .check errors => TypeError.listing errors

end CompileError

def Template.compile (source : String) (schema : Schema) : Except CompileError Template :=
  match Token.read source with
  | .error error => .error (.lex error)
  | .ok tokens =>
      match Node.ofTokens tokens with
      | .error error => .error (.parse error)
      | .ok nodes =>
          match Template.check nodes schema with
          | .error errors => .error (.check errors)
          | .ok template => .ok template

/-- A path with the marks it has so far. -/
structure Draft where
  path : Path
  /-- The marks, first to last. -/
  marks : List Bool
  deriving DecidableEq, Repr

namespace Draft

/-- A path that has not been checked. -/
def ofPath (path : Path) : Draft :=
  { path, marks := [] }

/-- A draft as it is rendered. -/
def reference (draft : Draft) : Reference :=
  draft.path.mark draft.marks

end Draft

def Scope.remark (scope : Scope) (draft : Draft) : Draft :=
  match scope.resolve draft.path with
  | .found _ marks => { draft with marks }
  | _ => draft

namespace Node

mutual

def remark (scope : Scope) : Node Draft → Node Draft
  | .text content => .text content
  | .variable draft raw => .variable (scope.remark draft) raw
  | .loop draft binding body =>
      .loop (scope.remark draft) binding
        (remarkAll (scope.enter binding (scope.elementKind draft.path)) body)
  | .conditional draft thenBranch elseBranch =>
      .conditional (scope.remark draft) (remarkAll scope thenBranch)
        (match elseBranch with
        | none => none
        | some nodes => some (remarkAll scope nodes))

def remarkAll (scope : Scope) : List (Node Draft) → List (Node Draft)
  | [] => []
  | node :: rest => remark scope node :: remarkAll scope rest

end

end Node

/-- A check of nodes that may have been checked before. -/
def Template.recheck (nodes : List (Node Draft)) (schema : Schema) :
    Except (List TypeError) (List (Node Draft)) :=
  let scope := Scope.ofSchema schema
  match Node.typeErrorsAll scope (Node.mapAll Draft.path nodes) with
  | [] => .ok (Node.remarkAll scope nodes)
  | errors => .error errors

end Stencil
