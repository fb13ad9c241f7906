import Mathlib.Data.List.Forall2
import Stencil.Proofs.Typing

/-!
# Running loops and their static scopes

While a tree is rendered, the loops that run are those that enclose the current node.  A stack
runs in a scope if the bindings agree one by one and each current element stands for the kind of
the elements.  A name that is declared in the scope then refers to such an element, to what a loop
tells about one, or to a field of the data the tree is rendered on.
-/

namespace Stencil

variable {δ : Type}

/-- A running loop stands for an enclosing one: its binding is the same and its element is what
the kind of the elements asks for. -/
def LoopScope.Runs (holds : Kind → δ → Prop) (loop : LoopScope) (frame : Frame δ) : Prop :=
  frame.binding = loop.binding ∧ ∃ kind, loop.element = some kind ∧ holds kind frame.element

/-- The running loops of a stack stand for the enclosing loops of a scope, one by one. -/
def Stack.RunsIn (holds : Kind → δ → Prop) (scope : Scope) (stack : Stack δ) : Prop :=
  List.Forall₂ (LoopScope.Runs holds) scope.loops stack.frames

/-- The metadata of a loop is never absent. -/
inductive Found.IsMetadata : Found δ → Prop where
  | index (number : Nat) : Found.IsMetadata (.index number)
  | flag (holds : Bool) : Found.IsMetadata (.flag holds)

theorem Frame.isMetadata_metadata (frame : Frame δ) (metadata : Metadata) :
    (frame.metadata metadata).IsMetadata := by
  cases metadata with
  | index => exact .index _
  | first => exact .flag _
  | last => exact .flag _

namespace Stack

variable {holds : Kind → δ → Prop} {scope : Scope} {stack : Stack δ}

theorem RunsIn.ofRoot (schema : Schema) (data : δ) :
    (Stack.ofRoot data).RunsIn holds (Scope.ofSchema schema) :=
  .nil

theorem RunsIn.enter
    (runs : stack.RunsIn holds scope) (binding : String) {element : δ} {kind : Kind}
    (current : holds kind element) (index length : Nat) :
    (stack.enter binding element index length).RunsIn holds
      (scope.enter binding (some kind)) :=
  .cons ⟨rfl, kind, rfl, current⟩ runs

theorem RunsIn.length_eq (runs : stack.RunsIn holds scope) :
    scope.loops.length = stack.frames.length :=
  List.Forall₂.length_eq runs

variable [Data δ]

/-- What a name refers to while rendering when the scope declares it. -/
inductive Refers (holds : Kind → δ → Prop) (fields : List (String × Kind)) (root : δ)
    (name : String) (kind : Kind) : Found δ → Prop where
  | element {element : δ} (current : holds kind element) :
      Refers holds fields root name kind (.value element)
  | metadata {found : Found δ} (metadata : found.IsMetadata) (scalar : kind = .scalar) :
      Refers holds fields root name kind found
  | field (declared : Entries.find? name fields = some kind) :
      Refers holds fields root name kind (.ofOption (Data.child root name))

theorem findIn_refers
    {fields : List (String × Kind)} {name : String} {kind : Kind} {loops : List LoopScope}
    {frames : List (Frame δ)} (root : δ)
    (runs : List.Forall₂ (LoopScope.Runs holds) loops frames)
    (found : Scope.findIn fields name loops = some (some kind)) :
    Refers holds fields root name kind (findIn root name frames) := by
  induction runs with
  | nil =>
      simp only [Scope.findIn, Option.map_eq_some_iff, Option.some.injEq,
        exists_eq_right] at found
      exact .field found
  | @cons loop frame loops frames innermost outer induction =>
      obtain ⟨sameBinding, elementKind, known, current⟩ := innermost
      unfold Scope.findIn at found
      unfold findIn
      by_cases bound : name = frame.binding
      · have sameLoop : loop.binding = name := by rw [bound, sameBinding]
        rw [if_pos sameLoop, Option.some.injEq, known, Option.some.injEq] at found
        rw [if_pos bound]
        exact .element (found ▸ current)
      · have otherLoop : loop.binding ≠ name := by
          intro same
          exact bound (by rw [sameBinding, same])
        rw [if_neg otherLoop] at found
        rw [if_neg bound]
        cases reserved : Metadata.ofName? name with
        | some metadata =>
            simp only [Metadata.isReserved, reserved, Option.isSome_some, if_true,
              Option.some.injEq] at found
            exact .metadata (frame.isMetadata_metadata metadata) found.symm
        | none =>
            simp only [Metadata.isReserved, reserved, Option.isSome_none, Bool.false_eq_true,
              if_false] at found
            exact induction found

end Stack

theorem Violation.exists_of_bind_eq_ok
    {α β : Type} {first : Except Violation α} {next : α → Except Violation β} {result : β}
    (done : first.bind next = .ok result) :
    ∃ middle, first = .ok middle ∧ next middle = .ok result := by
  cases first with
  | error violation => cases done
  | ok middle => exact ⟨middle, rfl, done⟩

variable [Data δ] {reference : Reference}

theorem Found.follow_value
    (reference : Reference) (position : Nat) (data : δ) (step : Step) (rest : List Step) :
    follow reference position (.value data) (step :: rest) =
      (settle reference position step (.ofOption (Data.child data step.name))).bind
        fun found => follow reference (position + 1) found rest := by
  rw [follow]
  cases settle reference position step (.ofOption (Data.child data step.name)) <;> rfl

omit [Data δ] in
theorem Stack.RunsIn.inRange
    {holds : Kind → δ → Prop} {scope : Scope} {stack : Stack δ} (runs : stack.RunsIn holds scope)
    (inRange : reference.hops ≤ scope.loops.length) :
    reference.hops ≤ stack.frames.length := by
  rwa [← runs.length_eq]

/-- A reference that leaves no more loops than are running looks its first segment up outside of
them and then follows the other ones. -/
theorem Stack.resolve_of_inRange
    {stack : Stack δ} {first : Step} {rest : List Step}
    (inRange : reference.hops ≤ stack.frames.length) (steps : reference.steps = first :: rest) :
    stack.resolve reference =
      (Found.settle reference 0 first
          (findIn stack.root first.name (stack.frames.drop reference.hops))).bind
        fun found => Found.follow reference 1 found rest := by
  have depth : ¬ reference.hops > stack.frames.length := Nat.not_lt.mpr inRange
  simp only [resolve, depth, steps, if_false]
  cases Found.settle reference 0 first
    (findIn stack.root first.name (stack.frames.drop reference.hops)) <;> rfl

end Stencil
