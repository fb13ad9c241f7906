import Stencil.Check
import Stencil.Render

/-!
# The paths of a tree

A tree refers to data at its values, its loops and its conditionals.  Errors show the path of a
reference or its beginning.  The references of a tree are listed in the order of the text: that of
a block before those of its branches.  A conditional without a
second branch behaves like one whose second branch is empty, both when it is checked and when it
is rendered.
-/

namespace Stencil

namespace Path

/-- The beginning of a path. -/
def upTo (path : Path) (count : Nat) : Path :=
  { path with segments := path.segments.take count }

/-- How a path is shown.  Each of its segments has a dot before it; behind steps out of loops there
are dots between the segments only. -/
def shown (path : Path) : String :=
  match path.hops with
  | 0 => String.join (path.segments.map fun segment => "." ++ segment)
  | hops + 1 =>
      String.join (List.replicate (hops + 1) "../") ++ ".".intercalate path.segments

theorem writtenHops_eq_join (hops : Nat) :
    writtenHops hops = String.join (List.replicate hops "../") := by
  induction hops with
  | zero => rfl
  | succ hops induction =>
      rw [writtenHops, induction, List.replicate_succ, String.join_cons]

theorem dotted_eq_join (segments : List String) :
    dotted segments = String.join (segments.map fun segment => "." ++ segment) := by
  induction segments with
  | nil => rfl
  | cons segment rest induction =>
      rw [dotted, induction, List.map_cons, String.join_cons]

theorem append_dotted_eq_intercalate (segment : String) (rest : List String) :
    segment ++ dotted rest = ".".intercalate (segment :: rest) := by
  induction rest generalizing segment with
  | nil => simp [dotted]
  | cons next rest induction =>
      rw [String.intercalate_cons_cons, ← induction, dotted]
      simp only [String.append_assoc]

theorem text_eq_shown (path : Path) : path.text = path.shown := by
  obtain ⟨hops, segments⟩ := path
  unfold text shown
  cases hops with
  | zero => exact dotted_eq_join segments
  | succ hops =>
      cases segments with
      | nil => simp [write, writtenHops_eq_join]
      | cons segment rest =>
          simp only [write]
          rw [String.append_assoc, append_dotted_eq_intercalate, writtenHops_eq_join]

theorem textUpTo_eq_shown (path : Path) (count : Nat) :
    path.textUpTo count = (path.upTo count).shown :=
  text_eq_shown (path.upTo count)

end Path

namespace Node

variable {ρ : Type}

mutual

/-- The references of a node, in order. -/
def paths : Node ρ → List ρ
  | .text _ => []
  | .variable path _ => [path]
  | .loop path _ body => path :: pathsAll body
  | .conditional path thenBranch elseBranch =>
      path :: (pathsAll thenBranch ++
        (match elseBranch with
        | none => []
        | some nodes => pathsAll nodes))

/-- The references of a sequence of nodes, in order. -/
def pathsAll : List (Node ρ) → List ρ
  | [] => []
  | node :: rest => paths node ++ pathsAll rest

end

mutual

/-- The bindings of the loops in a node, in order. -/
def bindings : Node ρ → List String
  | .text _ => []
  | .variable _ _ => []
  | .loop _ binding body => binding :: bindingsAll body
  | .conditional _ thenBranch elseBranch =>
      bindingsAll thenBranch ++
        (match elseBranch with
        | none => []
        | some nodes => bindingsAll nodes)

/-- The bindings of the loops in a sequence of nodes, in order. -/
def bindingsAll : List (Node ρ) → List String
  | [] => []
  | node :: rest => bindings node ++ bindingsAll rest

end

def reference? : Node ρ → Option ρ
  | .text _ => none
  | .variable path _ => some path
  | .loop path _ _ => some path
  | .conditional path _ _ => some path

theorem paths_conditional
    (path : ρ) (thenBranch : List (Node ρ)) (elseBranch : Option (List (Node ρ))) :
    paths (.conditional path thenBranch elseBranch) =
      path :: (pathsAll thenBranch ++ pathsAll (elseBranch.getD [])) := by
  cases elseBranch <;> simp [paths, pathsAll]

theorem bindings_conditional
    (path : ρ) (thenBranch : List (Node ρ)) (elseBranch : Option (List (Node ρ))) :
    bindings (.conditional path thenBranch elseBranch) =
      bindingsAll thenBranch ++ bindingsAll (elseBranch.getD []) := by
  cases elseBranch <;> simp [bindings, bindingsAll]

theorem typeErrors_conditional
    (scope : Scope) (path : Path) (thenBranch : List (Node Path))
    (elseBranch : Option (List (Node Path))) :
    typeErrors scope (.conditional path thenBranch elseBranch) =
      scope.conditionErrors path ++ typeErrorsAll scope thenBranch ++
        typeErrorsAll scope (elseBranch.getD []) := by
  cases elseBranch <;> simp [typeErrors, typeErrorsAll]

theorem mark_conditional
    (scope : Scope) (path : Path) (thenBranch : List (Node Path))
    (elseBranch : Option (List (Node Path))) :
    mark scope (.conditional path thenBranch elseBranch) =
      .conditional (scope.mark path) (markAll scope thenBranch)
        (elseBranch.map (markAll scope)) := by
  cases elseBranch <;> simp [mark]

theorem getD_map_markAll
    (scope : Scope) (elseBranch : Option (List (Node Path))) :
    (elseBranch.map (markAll scope)).getD [] =
      markAll scope (elseBranch.getD []) := by
  cases elseBranch <;> simp [markAll]

theorem typeErrorsAll_append (scope : Scope) (first second : List (Node Path)) :
    typeErrorsAll scope (first ++ second) =
      typeErrorsAll scope first ++ typeErrorsAll scope second := by
  induction first with
  | nil => rw [typeErrorsAll, List.nil_append, List.nil_append]
  | cons node rest induction =>
      rw [List.cons_append, typeErrorsAll, typeErrorsAll, induction, List.append_assoc]

theorem markAll_append (scope : Scope) (first second : List (Node Path)) :
    markAll scope (first ++ second) = markAll scope first ++ markAll scope second := by
  induction first with
  | nil => rw [markAll, List.nil_append, List.nil_append]
  | cons node rest induction =>
      rw [List.cons_append, markAll, markAll, induction, List.cons_append]

/-- Induction over sequences of nodes: the branches of a block come before the nodes behind it. -/
@[elab_as_elim]
theorem sequence_induction {motive : List (Node ρ) → Prop}
    (nil : motive [])
    (text : ∀ content rest, motive rest → motive (.text content :: rest))
    («variable» : ∀ path raw rest, motive rest → motive (.variable path raw :: rest))
    (loop : ∀ path binding body rest,
      motive body → motive rest → motive (.loop path binding body :: rest))
    (conditional : ∀ path thenBranch elseBranch rest,
      motive thenBranch → motive (elseBranch.getD []) → motive rest →
        motive (.conditional path thenBranch elseBranch :: rest)) :
    ∀ nodes, motive nodes
  | [] => nil
  | .text content :: rest =>
      text content rest (sequence_induction nil text «variable» loop conditional rest)
  | .variable path raw :: rest =>
      «variable» path raw rest (sequence_induction nil text «variable» loop conditional rest)
  | .loop path binding body :: rest =>
      loop path binding body rest
        (sequence_induction nil text «variable» loop conditional body)
        (sequence_induction nil text «variable» loop conditional rest)
  | .conditional path thenBranch none :: rest =>
      conditional path thenBranch none rest
        (sequence_induction nil text «variable» loop conditional thenBranch) nil
        (sequence_induction nil text «variable» loop conditional rest)
  | .conditional path thenBranch (some nodes) :: rest =>
      conditional path thenBranch (some nodes) rest
        (sequence_induction nil text «variable» loop conditional thenBranch)
        (sequence_induction nil text «variable» loop conditional nodes)
        (sequence_induction nil text «variable» loop conditional rest)

section

variable {ρ σ τ : Type}

theorem map_conditional
    (change : ρ → σ) (path : ρ) (thenBranch : List (Node ρ))
    (elseBranch : Option (List (Node ρ))) :
    map change (.conditional path thenBranch elseBranch) =
      .conditional (change path) (mapAll change thenBranch)
        (elseBranch.map (mapAll change)) := by
  cases elseBranch <;> simp [map]

theorem getD_map_mapAll (change : ρ → σ) (elseBranch : Option (List (Node ρ))) :
    (elseBranch.map (mapAll change)).getD [] = mapAll change (elseBranch.getD []) := by
  cases elseBranch <;> rfl

theorem mapAll_mapAll (second : σ → τ) (first : ρ → σ) (nodes : List (Node ρ)) :
    mapAll second (mapAll first nodes) = mapAll (fun path => second (first path)) nodes := by
  induction nodes using sequence_induction with
  | nil => rfl
  | text content rest later => simp only [mapAll, map, later]
  | «variable» path raw rest later => simp only [mapAll, map, later]
  | loop path binding body rest inside later => simp only [mapAll, map, inside, later]
  | conditional path thenBranch elseBranch rest inThen inElse later =>
      cases elseBranch with
      | none => simp only [mapAll, map, inThen, later]
      | some nodes =>
          rw [Option.getD_some] at inElse
          simp only [mapAll, map, inThen, inElse, later]

theorem mapAll_self (nodes : List (Node ρ)) : mapAll (fun path => path) nodes = nodes := by
  induction nodes using sequence_induction with
  | nil => rfl
  | text content rest later => simp only [mapAll, map, later]
  | «variable» path raw rest later => simp only [mapAll, map, later]
  | loop path binding body rest inside later => simp only [mapAll, map, inside, later]
  | conditional path thenBranch elseBranch rest inThen inElse later =>
      cases elseBranch with
      | none => simp only [mapAll, map, inThen, later]
      | some nodes =>
          rw [Option.getD_some] at inElse
          simp only [mapAll, map, inThen, inElse, later]

end

end Node

end Stencil
