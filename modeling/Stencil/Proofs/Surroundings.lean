import Stencil.Proofs.Paths

/-!
# Places in a tree

A tree with one place left open surrounds whatever is put there.  What surrounds a place decides
which scope it has, and contributes errors and marks that are the same for everything that may
stand there.
-/

namespace Stencil

/-- A sequence of nodes with a place left open, either between its nodes or in a branch of one of
them. -/
inductive Surroundings (ρ : Type) where
  | between (before after : List (Node ρ))
  | inBody (before : List (Node ρ)) (path : ρ) (binding : String) (inside : Surroundings ρ)
      (after : List (Node ρ))
  | inThen (before : List (Node ρ)) (path : ρ) (inside : Surroundings ρ)
      (elseBranch : Option (List (Node ρ))) (after : List (Node ρ))
  | inElse (before : List (Node ρ)) (path : ρ) (thenBranch : List (Node ρ))
      (inside : Surroundings ρ) (after : List (Node ρ))

namespace Surroundings

/-- The tree with nodes put in the open place. -/
def fill {ρ : Type} : Surroundings ρ → List (Node ρ) → List (Node ρ)
  | .between before after, nodes => before ++ nodes ++ after
  | .inBody before path binding inside after, nodes =>
      before ++ .loop path binding (inside.fill nodes) :: after
  | .inThen before path inside elseBranch after, nodes =>
      before ++ .conditional path (inside.fill nodes) elseBranch :: after
  | .inElse before path thenBranch inside after, nodes =>
      before ++ .conditional path thenBranch (some (inside.fill nodes)) :: after

/-- The scope of the open place in a tree that has a scope of its own. -/
def scope : Surroundings Path → Scope → Scope
  | .between _ _, outer => outer
  | .inBody _ path binding inside _, outer =>
      inside.scope (outer.enter binding (outer.elementKind path))
  | .inThen _ _ inside _ _, outer => inside.scope outer
  | .inElse _ _ _ inside _, outer => inside.scope outer

/-- What surrounds the open place, with its paths marked. -/
def mark : Surroundings Path → Scope → Surroundings Reference
  | .between before after, outer =>
      .between (Node.markAll outer before) (Node.markAll outer after)
  | .inBody before path binding inside after, outer =>
      .inBody (Node.markAll outer before) (outer.mark path) binding
        (inside.mark (outer.enter binding (outer.elementKind path))) (Node.markAll outer after)
  | .inThen before path inside elseBranch after, outer =>
      .inThen (Node.markAll outer before) (outer.mark path) (inside.mark outer)
        (elseBranch.map (Node.markAll outer)) (Node.markAll outer after)
  | .inElse before path thenBranch inside after, outer =>
      .inElse (Node.markAll outer before) (outer.mark path) (Node.markAll outer thenBranch)
        (inside.mark outer) (Node.markAll outer after)

theorem markAll_fill (surroundings : Surroundings Path) (outer : Scope) (nodes : List (Node Path)) :
    Node.markAll outer (surroundings.fill nodes) =
      (surroundings.mark outer).fill (Node.markAll (surroundings.scope outer) nodes) := by
  induction surroundings generalizing outer with
  | between before after =>
      rw [fill, Node.markAll_append, Node.markAll_append]
      rfl
  | inBody before path binding inside after induction =>
      rw [fill, Node.markAll_append, Node.markAll, Node.mark, induction]
      rfl
  | inThen before path inside elseBranch after induction =>
      rw [fill, Node.markAll_append, Node.markAll, Node.mark_conditional, induction]
      rfl
  | inElse before path thenBranch inside after induction =>
      rw [fill, Node.markAll_append, Node.markAll, Node.mark_conditional, Option.map_some,
        induction]
      rfl

/-- The errors of a tree are those of what stands in the open place, between others that do not
depend on it. -/
theorem exists_typeErrorsAll_fill (surroundings : Surroundings Path) (outer : Scope) :
    ∃ before after, ∀ nodes,
      Node.typeErrorsAll outer (surroundings.fill nodes) =
        before ++ Node.typeErrorsAll (surroundings.scope outer) nodes ++ after := by
  induction surroundings generalizing outer with
  | between before after =>
      refine ⟨Node.typeErrorsAll outer before, Node.typeErrorsAll outer after, ?_⟩
      intro nodes
      rw [fill, Node.typeErrorsAll_append, Node.typeErrorsAll_append, scope]
  | inBody before path binding inside after induction =>
      obtain ⟨first, last, errors⟩ :=
        induction (outer.enter binding (outer.elementKind path))
      refine ⟨Node.typeErrorsAll outer before ++ outer.loopErrors path ++ first,
        last ++ Node.typeErrorsAll outer after, ?_⟩
      intro nodes
      rw [fill, Node.typeErrorsAll_append, Node.typeErrorsAll, Node.typeErrors, errors, scope]
      simp only [List.append_assoc]
  | inThen before path inside elseBranch after induction =>
      obtain ⟨first, last, errors⟩ := induction outer
      refine ⟨Node.typeErrorsAll outer before ++ outer.conditionErrors path ++ first,
        last ++ Node.typeErrorsAll outer (elseBranch.getD []) ++ Node.typeErrorsAll outer after, ?_⟩
      intro nodes
      rw [fill, Node.typeErrorsAll_append, Node.typeErrorsAll, Node.typeErrors_conditional, errors,
        scope]
      simp only [List.append_assoc]
  | inElse before path thenBranch inside after induction =>
      obtain ⟨first, last, errors⟩ := induction outer
      refine ⟨Node.typeErrorsAll outer before ++ outer.conditionErrors path ++
          Node.typeErrorsAll outer thenBranch ++ first,
        last ++ Node.typeErrorsAll outer after, ?_⟩
      intro nodes
      rw [fill, Node.typeErrorsAll_append, Node.typeErrorsAll, Node.typeErrors_conditional,
        Option.getD_some, errors, scope]
      simp only [List.append_assoc]

/-- What stands in the open place of an accepted tree may be replaced by anything that has no more
errors there. -/
theorem typeErrorsAll_fill_eq_nil
    {surroundings : Surroundings Path} {outer : Scope} {nodes others : List (Node Path)}
    (correct : Node.typeErrorsAll outer (surroundings.fill nodes) = [])
    (replaces : Node.typeErrorsAll (surroundings.scope outer) nodes = [] →
      Node.typeErrorsAll (surroundings.scope outer) others = []) :
    Node.typeErrorsAll outer (surroundings.fill others) = [] := by
  obtain ⟨before, after, errors⟩ := surroundings.exists_typeErrorsAll_fill outer
  rw [errors, List.append_eq_nil_iff, List.append_eq_nil_iff] at correct ⊢
  exact ⟨⟨correct.1.1, replaces correct.1.2⟩, correct.2⟩

end Surroundings

end Stencil
