import Stencil.Check
import Stencil.Output
import Stencil.Stack

/-!
# Rendering

A checked template is written to a sink, node by node.  Values are escaped unless their node is
raw.  Rendering stops at the first path whose data does not fit the schema and at the first write
that does not fit the sink; what has been written until then stays.
-/

namespace Stencil

/-- Why rendering stops. -/
inductive RenderError where
  /-- The sink does not take more. -/
  | outputFailure
  /-- The data does not fit the schema. -/
  | contractViolation (path : Path) (violation : Violation)
  /-- There is no template of this name. -/
  | unknownTemplate (name : String)
  deriving DecidableEq, Repr

namespace RenderError

/-- The wording for data that does not fit the schema. -/
def contractViolationText (path reason : String) : String :=
  "context does not match schema at `" ++ path ++ "`: " ++ reason

def message : RenderError → String
  | .outputFailure => "failed to write rendered output"
  | .contractViolation path violation => contractViolationText path.text violation.reason
  | .unknownTemplate name => "no template named `" ++ name ++ "`"

end RenderError

/-- Something that writes to a sink and may stop. -/
abbrev Rendering := EStateM RenderError Sink

namespace Rendering

variable {δ : Type}

def emit (content : String) : Rendering Unit := fun sink =>
  match sink.write content with
  | (true, sink) => .ok () sink
  | (false, sink) => .error .outputFailure sink

def emitAll : List String → Rendering Unit
  | [] => pure ()
  | content :: rest => do
      emit content
      emitAll rest

def demand {α : Type} (reference : Reference) : Except Violation α → Rendering α
  | .ok result => pure result
  | .error violation => throw (.contractViolation reference.path violation)

/-- Does something for each element of a list, telling its index. -/
def forEach (action : Nat → δ → Rendering Unit) (index : Nat) : List δ → Rendering Unit
  | [] => pure ()
  | element :: rest => do
      action index element
      forEach action (index + 1) rest

end Rendering

namespace Found

variable {δ : Type} [Data δ]

def scalar (found : Found δ) : Except Violation String :=
  match found.text with
  | some content => .ok content
  | none => .error .notScalar

def elements : Found δ → Except Violation (List δ)
  | .value data =>
      match Data.children data with
      | some elements => .ok elements
      | none => .error .notList
  | .absent => .ok []
  | _ => .error .metadataList

end Found

namespace Node

variable {δ : Type} [Data δ]

mutual

def render : Node Reference → Stack δ → Rendering Unit
  | .text content, _ => Rendering.emit content
  | .variable reference raw, stack => do
      let found ← Rendering.demand reference (stack.resolve reference)
      let content ← Rendering.demand reference found.scalar
      Rendering.emitAll (if raw then [content] else Text.escape content)
  | .loop reference binding body, stack => do
      let found ← Rendering.demand reference (stack.resolve reference)
      let elements ← Rendering.demand reference found.elements
      Rendering.forEach
        (fun index element =>
          renderAll body (stack.enter binding element index elements.length))
        0 elements
  | .conditional reference thenBranch elseBranch, stack => do
      let found ← Rendering.demand reference (stack.resolve reference)
      if found.truthy then renderAll thenBranch stack
      else
        match elseBranch with
        | none => pure ()
        | some nodes => renderAll nodes stack

def renderAll : List (Node Reference) → Stack δ → Rendering Unit
  | [], _ => pure ()
  | node :: rest, stack => do
      render node stack
      renderAll rest stack

end

end Node

namespace Template

variable {δ : Type} [Data δ]

/-- Writes a template for data to a sink.  The sink is part of the result also when rendering
stops. -/
def renderTo (template : Template) (data : δ) (sink : Sink) : Except RenderError Unit × Sink :=
  match Node.renderAll template.nodes (Stack.ofRoot data) sink with
  | .ok () sink => (.ok (), sink)
  | .error error sink => (.error error, sink)

def render (template : Template) (data : δ) : Except RenderError String :=
  match template.renderTo data .unlimited with
  | (.ok (), sink) => .ok sink.text
  | (.error error, _) => .error error

end Template

end Stencil
