import Stencil.Proofs.Occurrences
import Stencil.Proofs.Rendering
import Stencil.Proofs.Trail

/-!
# The nodes a run comes to

`Node.Visits` describes the nodes a run comes to, with the loops around them, the values of names,
the running loops and the sink at that time.  A node that fails ends the run, and a run that data
ends has come to the node that is to blame.
-/

namespace Stencil

variable {δ : Type} [Data δ]

/-- Where a run is. -/
structure Place (δ : Type) where
  /-- The loops around the place, innermost first. -/
  loops : List Enclosing
  /-- What names stand for. -/
  valuations : Valuations δ
  stack : Stack δ
  sink : Sink

namespace Place

/-- Outside of all loops. -/
def ofRoot (data : δ) (sink : Sink) : Place δ where
  loops := []
  valuations := .ofRoot data
  stack := .ofRoot data
  sink

/-- Inside of one more loop, at one of its elements. -/
def enter (place : Place δ) (loop : Enclosing) (element : δ) (index length : Nat)
    (sink : Sink) : Place δ where
  loops := loop :: place.loops
  valuations := place.valuations.enter loop.binding element index length
  stack := place.stack.enter loop.binding element index length
  sink

end Place

namespace Node

/-- The nodes that a run through a sequence of nodes comes to, and where it is then.  The nodes of
a body are visited once for each element, behind the runs for all elements before it. -/
inductive Visits : Place δ → List (Node Reference) → Place δ → Node Reference → Prop where
  | here {place : Place δ} {node : Node Reference} {rest : List (Node Reference)} :
      Visits place (node :: rest) place node
  | later {start place : Place δ} {after : Sink} {node target : Node Reference}
      {rest : List (Node Reference)}
      (done : render node start.stack start.sink = .ok () after)
      (visits : Visits { start with sink := after } rest place target) :
      Visits start (node :: rest) place target
  | body {start place : Place δ} {after : Sink} {reference : Reference} {binding : String}
      {body rest : List (Node Reference)} {target : Node Reference} {found : Found δ}
      {items : List δ} {index : Nat} {item : δ}
      (resolved : start.stack.resolve reference = .ok found)
      (elements : found.elements = .ok items)
      (current : items[index]? = some item)
      (earlier : Rendering.forEach
          (fun index item => renderAll body (start.stack.enter binding item index items.length))
          0 (items.take index) start.sink = .ok () after)
      (visits : Visits
        (start.enter { path := reference.path, binding } item index items.length after)
        body place target) :
      Visits start (.loop reference binding body :: rest) place target
  | thenBranch {start place : Place δ} {reference : Reference}
      {thenBranch rest : List (Node Reference)} {elseBranch : Option (List (Node Reference))}
      {target : Node Reference} {found : Found δ}
      (resolved : start.stack.resolve reference = .ok found)
      (truthy : found.truthy = true)
      (visits : Visits start thenBranch place target) :
      Visits start (.conditional reference thenBranch elseBranch :: rest) place target
  | elseBranch {start place : Place δ} {reference : Reference}
      {thenBranch rest : List (Node Reference)} {elseBranch : Option (List (Node Reference))}
      {target : Node Reference} {found : Found δ}
      (resolved : start.stack.resolve reference = .ok found)
      (falsy : found.truthy = false)
      (visits : Visits start (elseBranch.getD []) place target) :
      Visits start (.conditional reference thenBranch elseBranch :: rest) place target

/-- A node that fails ends the whole run. -/
theorem Visits.stops
    {start place : Place δ} {nodes : List (Node Reference)} {target : Node Reference}
    {error : RenderError} {after : Sink} (visits : Visits start nodes place target)
    (stopped : render target place.stack place.sink = .error error after) :
    renderAll nodes start.stack start.sink = .error error after := by
  induction visits with
  | here =>
      rw [renderAll_cons]
      exact Rendering.bind_of_error stopped _
  | later done visits induction =>
      rw [renderAll_cons, Rendering.bind_of_ok done]
      exact induction stopped
  | body resolved elements current earlier visits induction =>
      rw [renderAll_cons]
      apply Rendering.bind_of_error
      rw [render_loop resolved, elements, Rendering.demand_ok, pure_bind]
      exact Rendering.forEach_of_error current earlier (induction stopped)
  | thenBranch resolved truthy visits induction =>
      rw [renderAll_cons]
      apply Rendering.bind_of_error
      rw [render_conditional resolved, if_pos truthy]
      exact induction stopped
  | elseBranch resolved falsy visits induction =>
      rw [renderAll_cons]
      apply Rendering.bind_of_error
      rw [render_conditional resolved, if_neg (by simp [falsy])]
      exact induction stopped

/-- The violation that a node itself comes to: it has nothing to refer to, or what it refers to is
of no use to it. -/
inductive Violates (stack : Stack δ) : Node Reference → Reference → Violation → Prop where
  | reference {node : Node Reference} {reference : Reference} {violation : Violation}
      (refers : node.reference? = some reference)
      (unresolved : stack.resolve reference = .error violation) :
      Violates stack node reference violation
  | scalar {reference : Reference} {raw : Bool} {found : Found δ} {violation : Violation}
      (resolved : stack.resolve reference = .ok found)
      (noText : found.scalar = .error violation) :
      Violates stack (.variable reference raw) reference violation
  | elements {reference : Reference} {binding : String} {body : List (Node Reference)}
      {found : Found δ} {violation : Violation}
      (resolved : stack.resolve reference = .ok found)
      (noList : found.elements = .error violation) :
      Violates stack (.loop reference binding body) reference violation

theorem Violates.render_eq
    {stack : Stack δ} {node : Node Reference} {reference : Reference} {violation : Violation}
    (violates : node.Violates stack reference violation) :
    render node stack = throw (.contractViolation reference.path violation) := by
  cases violates with
  | reference refers unresolved => exact render_of_violation refers unresolved
  | scalar resolved noText =>
      rw [render_variable resolved, noText, Rendering.demand_error, Rendering.throw_bind]
  | elements resolved noList =>
      rw [render_loop resolved, noList, Rendering.demand_error, Rendering.throw_bind]

/-- A run comes to a node that comes to a violation. -/
def Blames (start : Place δ) (nodes : List (Node Reference)) (path : Path)
    (violation : Violation) (after : Sink) : Prop :=
  ∃ place target reference, Visits start nodes place target ∧
    target.Violates place.stack reference violation ∧ reference.path = path ∧ place.sink = after

theorem Blames.through
    {start inner : Place δ} {nodes part : List (Node Reference)} {path : Path}
    {violation : Violation} {after : Sink} (blames : Blames inner part path violation after)
    (leads : ∀ {place target}, Visits inner part place target → Visits start nodes place target) :
    Blames start nodes path violation after := by
  obtain ⟨place, target, reference, visits, blamed⟩ := blames
  exact ⟨place, target, reference, leads visits, blamed⟩

section

variable {start : Place δ} {after : Sink} {path : Path} {violation : Violation}

theorem blames_of_violates
    {node : Node Reference} {reference : Reference} {own : Violation}
    (rest : List (Node Reference)) (violates : node.Violates start.stack reference own)
    (stopped : render node start.stack start.sink =
      .error (.contractViolation path violation) after) :
    Blames start (node :: rest) path violation after := by
  rw [violates.render_eq, Rendering.throw_apply] at stopped
  cases stopped
  exact ⟨_, node, reference, .here, violates, rfl, rfl⟩

/-- A sequence is ended by its first node or behind it. -/
theorem blames_cons
    {node : Node Reference} {rest : List (Node Reference)}
    (first : render node start.stack start.sink =
        .error (.contractViolation path violation) after →
      Blames start (node :: rest) path violation after)
    (later : ∀ middle,
      renderAll rest start.stack middle = .error (.contractViolation path violation) after →
        Blames { start with sink := middle } rest path violation after)
    (stopped : renderAll (node :: rest) start.stack start.sink =
      .error (.contractViolation path violation) after) :
    Blames start (node :: rest) path violation after := by
  rw [renderAll_cons, Rendering.bind_apply] at stopped
  split at stopped
  · rename_i middle done
    exact (later middle stopped).through (.later done)
  · rename_i failed
    cases stopped
    exact first failed

end

/-- A run that data ends has come to the node that is to blame. -/
theorem blames_of_renderAll
    {start : Place δ} {nodes : List (Node Reference)} {after : Sink} {path : Path}
    {violation : Violation}
    (stopped : renderAll nodes start.stack start.sink =
      .error (.contractViolation path violation) after) :
    Blames start nodes path violation after := by
  induction nodes using sequence_induction generalizing start with
  | nil =>
      rw [renderAll_nil] at stopped
      cases stopped
  | text content rest later =>
      refine blames_cons (fun failed => ?_) (fun middle failed => later failed) stopped
      rw [render_text] at failed
      cases Rendering.eq_outputFailure_of_emit failed
  | «variable» reference raw rest later =>
      refine blames_cons (fun failed => ?_) (fun middle failed => later failed) stopped
      cases resolved : start.stack.resolve reference with
      | error unresolved => exact blames_of_violates rest (.reference rfl resolved) failed
      | ok found =>
          cases text : found.scalar with
          | error noText => exact blames_of_violates rest (.scalar resolved text) failed
          | ok content =>
              rw [render_variable resolved, text, Rendering.demand_ok, pure_bind] at failed
              cases Rendering.eq_outputFailure_of_emitAll failed
  | loop reference binding body rest inside later =>
      refine blames_cons (fun failed => ?_) (fun middle failed => later failed) stopped
      cases resolved : start.stack.resolve reference with
      | error unresolved => exact blames_of_violates rest (.reference rfl resolved) failed
      | ok found =>
          cases elements : found.elements with
          | error noList => exact blames_of_violates rest (.elements resolved elements) failed
          | ok items =>
              rw [render_loop resolved, elements, Rendering.demand_ok, pure_bind] at failed
              obtain ⟨index, item, middle, current, earlier, bodyFailed⟩ :=
                Rendering.exists_of_forEach_error failed
              rw [Nat.zero_add] at bodyFailed
              have blames : Blames
                  (start.enter { path := reference.path, binding } item index items.length middle)
                  body path violation after :=
                inside bodyFailed
              exact blames.through (.body resolved elements current earlier)
  | conditional reference thenBranch elseBranch rest first second later =>
      refine blames_cons (fun failed => ?_) (fun middle failed => later failed) stopped
      cases resolved : start.stack.resolve reference with
      | error unresolved => exact blames_of_violates rest (.reference rfl resolved) failed
      | ok found =>
          rw [render_conditional resolved] at failed
          cases truthy : found.truthy with
          | true =>
              rw [truthy, if_pos rfl] at failed
              exact (first failed).through (.thenBranch resolved truthy)
          | false =>
              rw [truthy, if_neg Bool.false_ne_true] at failed
              exact (second failed).through (.elseBranch resolved truthy)

/-- Data ends a run exactly if the run comes to a node that comes to a violation. -/
theorem renderAll_eq_violation_iff
    {start : Place δ} {nodes : List (Node Reference)} {after : Sink} {path : Path}
    {violation : Violation} :
    renderAll nodes start.stack start.sink = .error (.contractViolation path violation) after ↔
      Blames start nodes path violation after := by
  constructor
  · exact blames_of_renderAll
  · rintro ⟨place, target, reference, visits, violates, rfl, rfl⟩
    apply visits.stops
    rw [violates.render_eq, Rendering.throw_apply]

end Node

end Stencil
