import Stencil.Proofs.Paths

/-!
# Occurrences of paths

An occurrence is a path together with what it is used for and the loops around it.  Checking a
tree comes down to its occurrences: each has one error or none, and the errors of the tree are
those of its occurrences in the order of the text.
-/

namespace Stencil

/-- What a path is used for. -/
inductive Use where
  | output
  | iteration
  | decision

/-- A loop around a place, by the path of its list and the name of its elements. -/
structure Enclosing where
  path : Path
  binding : String

/-- A path at its place. -/
structure Occurrence where
  use : Use
  path : Path
  /-- The loops around the path, innermost first. -/
  loops : List Enclosing

/-- The path of a loop, which stands outside of that loop. -/
def Enclosing.occurrence (loop : Enclosing) (outer : List Enclosing) : Occurrence where
  use := .iteration
  path := loop.path
  loops := outer

/-- Every path an occurrence depends on has a segment. -/
structure Occurrence.Named (occurrence : Occurrence) : Prop where
  path : occurrence.path.segments ≠ []
  loops : ∀ loop ∈ occurrence.loops, loop.path.segments ≠ []

namespace Node

mutual

/-- The occurrences in a node, in the order of the text. -/
def occurrences (loops : List Enclosing) : Node Path → List Occurrence
  | .text _ => []
  | .variable path _ => [{ use := .output, path, loops }]
  | .loop path binding body =>
      { use := .iteration, path, loops } :: occurrencesAll ({ path, binding } :: loops) body
  | .conditional path thenBranch elseBranch =>
      { use := .decision, path, loops } :: (occurrencesAll loops thenBranch ++
        (match elseBranch with
        | none => []
        | some nodes => occurrencesAll loops nodes))

/-- The occurrences in a sequence of nodes, in the order of the text. -/
def occurrencesAll (loops : List Enclosing) : List (Node Path) → List Occurrence
  | [] => []
  | node :: rest => occurrences loops node ++ occurrencesAll loops rest

end

theorem occurrences_conditional
    (loops : List Enclosing) (path : Path) (thenBranch : List (Node Path))
    (elseBranch : Option (List (Node Path))) :
    occurrences loops (.conditional path thenBranch elseBranch) =
      { use := .decision, path, loops } ::
        (occurrencesAll loops thenBranch ++ occurrencesAll loops (elseBranch.getD [])) := by
  cases elseBranch <;> simp [occurrences, occurrencesAll]

theorem named_of_mem_occurrencesAll
    {loops : List Enclosing} {nodes : List (Node Path)}
    (around : ∀ loop ∈ loops, loop.path.segments ≠ [])
    (named : ∀ path ∈ pathsAll nodes, path.segments ≠ []) :
    ∀ occurrence ∈ occurrencesAll loops nodes, occurrence.Named := by
  induction nodes using sequence_induction generalizing loops with
  | nil =>
      intro occurrence member
      cases member
  | text content rest later => exact later around named
  | «variable» path raw rest later =>
      simp only [pathsAll, paths, List.cons_append, List.nil_append,
        List.forall_mem_cons] at named
      simp only [occurrencesAll, occurrences, List.cons_append, List.nil_append,
        List.forall_mem_cons]
      exact ⟨⟨named.1, around⟩, later around named.2⟩
  | loop path binding body rest inside later =>
      simp only [pathsAll, paths, List.cons_append, List.forall_mem_cons,
        List.forall_mem_append] at named
      simp only [occurrencesAll, occurrences, List.cons_append, List.forall_mem_cons,
        List.forall_mem_append]
      have aroundBody : ∀ loop ∈ { path, binding } :: loops, loop.path.segments ≠ [] :=
        List.forall_mem_cons.mpr ⟨named.1, around⟩
      exact ⟨⟨named.1, around⟩, inside aroundBody named.2.1, later around named.2.2⟩
  | conditional path thenBranch elseBranch rest first second later =>
      simp only [pathsAll, paths_conditional, List.cons_append, List.forall_mem_cons,
        List.forall_mem_append] at named
      simp only [occurrencesAll, occurrences_conditional, List.cons_append,
        List.forall_mem_cons, List.forall_mem_append]
      exact ⟨⟨named.1, around⟩, ⟨first around named.2.1.1, second around named.2.1.2⟩,
        later around named.2.2⟩

end Node

/-- The error of a path that resolves to a kind its use does not take. -/
def Use.mismatch? (path : Path) : Use → Kind → Option TypeError
  | .output, .scalar => none
  | .output, kind => some (.notInterpolable path.text kind.text)
  | .iteration, .list _ => none
  | .iteration, kind => some (.notIterable path.text "list" kind.text)
  | .decision, _ => none

namespace Scope

def error? (scope : Scope) (use : Use) (path : Path) : Option TypeError :=
  match scope.resolve path with
  | .found kind _ => use.mismatch? path kind
  | .unknown => none
  | .failed error => some error

theorem variableErrors_eq_error? (scope : Scope) (path : Path) :
    scope.variableErrors path = (scope.error? .output path).toList := by
  unfold variableErrors error?
  cases scope.resolve path with
  | found kind marks => cases kind <;> rfl
  | unknown => rfl
  | failed error => rfl

theorem loopErrors_eq_error? (scope : Scope) (path : Path) :
    scope.loopErrors path = (scope.error? .iteration path).toList := by
  unfold loopErrors error?
  cases scope.resolve path with
  | found kind marks => cases kind <;> rfl
  | unknown => rfl
  | failed error => rfl

theorem conditionErrors_eq_error? (scope : Scope) (path : Path) :
    scope.conditionErrors path = (scope.error? .decision path).toList := by
  unfold conditionErrors error?
  cases scope.resolve path <;> rfl

/-- The scope inside of loops. -/
def within (schema : Schema) : List Enclosing → Scope
  | [] => ofSchema schema
  | loop :: outer =>
      (within schema outer).enter loop.binding ((within schema outer).elementKind loop.path)

end Scope

def Occurrence.error? (schema : Schema) (occurrence : Occurrence) : Option TypeError :=
  (Scope.within schema occurrence.loops).error? occurrence.use occurrence.path

theorem Node.typeErrorsAll_within
    (schema : Schema) (loops : List Enclosing) (nodes : List (Node Path)) :
    typeErrorsAll (Scope.within schema loops) nodes =
      (occurrencesAll loops nodes).filterMap (Occurrence.error? schema) := by
  have single (occurrence : Occurrence) :
      [occurrence].filterMap (Occurrence.error? schema) =
        (occurrence.error? schema).toList := by
    cases error : occurrence.error? schema <;> simp [error]
  induction nodes using sequence_induction generalizing loops with
  | nil => rfl
  | text content rest later => exact later loops
  | «variable» path raw rest later =>
      simp only [typeErrorsAll, typeErrors, occurrencesAll, occurrences]
      rw [List.filterMap_append, single, later, Scope.variableErrors_eq_error?]
      rfl
  | loop path binding body rest inside later =>
      simp only [typeErrorsAll, typeErrors, occurrencesAll, occurrences]
      rw [← List.singleton_append, List.filterMap_append, List.filterMap_append, single,
        ← inside, later, Scope.loopErrors_eq_error?]
      rfl
  | conditional path thenBranch elseBranch rest first second later =>
      simp only [typeErrorsAll, typeErrors_conditional, occurrencesAll, occurrences_conditional]
      rw [← List.singleton_append, List.filterMap_append, List.filterMap_append,
        List.filterMap_append, single, first, second, later, Scope.conditionErrors_eq_error?,
        ← List.append_assoc]
      rfl

end Stencil
