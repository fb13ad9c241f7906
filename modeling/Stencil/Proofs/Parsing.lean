import Stencil.Proofs.Paths
import Stencil.Proofs.Spelling
import Stencil.Template

/-!
# The paths of parsed trees

Every path of a tree that is built from tokens is the path of one of the tokens.  What holds of the
paths that directives can have therefore holds of all paths of a template text: in particular they
have at least one segment.
-/

namespace Stencil

/-- A token whose path, if it has one, is as it should be. -/
def Token.Holds (holds : Path → Prop) : Token → Prop
  | .variable path _ _ => holds path
  | .opening _ path _ _ => holds path
  | _ => True

namespace Node

variable {ρ : Type}

@[simp] theorem pathsAll_append (first second : List (Node ρ)) :
    pathsAll (first ++ second) = pathsAll first ++ pathsAll second := by
  induction first with
  | nil => simp [pathsAll]
  | cons node rest induction => simp [pathsAll, induction]

/-- A sequence of nodes whose paths are all as they should be. -/
def AllHold (holds : ρ → Prop) (nodes : List (Node ρ)) : Prop :=
  ∀ path ∈ pathsAll nodes, holds path

theorem AllHold.append
    {holds : ρ → Prop} {first second : List (Node ρ)} (firstHold : AllHold holds first)
    (secondHold : AllHold holds second) :
    AllHold holds (first ++ second) := by
  intro path member
  rw [pathsAll_append] at member
  rcases List.mem_append.mp member with inFirst | inSecond
  · exact firstHold path inFirst
  · exact secondHold path inSecond

theorem allHold_singleton
    {holds : ρ → Prop} {node : Node ρ} (each : ∀ path ∈ paths node, holds path) :
    AllHold holds [node] := by
  simpa [AllHold, pathsAll] using each

end Node

/-- An open block whose paths so far are all as they should be. -/
structure OpenBlock.Holds (holds : Path → Prop) (block : OpenBlock) : Prop where
  path : holds block.path
  nodes : Node.AllHold holds block.nodes
  thenBranch : Node.AllHold holds (block.thenBranch.getD [])

theorem OpenBlock.Holds.close
    {holds : Path → Prop} {block : OpenBlock} (held : block.Holds holds) :
    Node.AllHold holds [block.close] := by
  obtain ⟨kind, path, binding, place, nodes, thenBranch⟩ := block
  apply Node.allHold_singleton
  cases kind with
  | loop =>
      simp only [OpenBlock.close, Node.paths, List.forall_mem_cons]
      exact ⟨held.path, held.nodes⟩
  | conditional =>
      cases thenBranch with
      | none =>
          simp only [OpenBlock.close, Node.paths, List.append_nil, List.forall_mem_cons]
          exact ⟨held.path, held.nodes⟩
      | some first =>
          simp only [OpenBlock.close, Node.paths, List.forall_mem_cons, List.forall_mem_append]
          exact ⟨held.path, held.thenBranch, held.nodes⟩

namespace Builder

/-- A builder whose paths so far are all as they should be. -/
structure Holds (holds : Path → Prop) (builder : Builder) : Prop where
  root : Node.AllHold holds builder.root
  blocks : ∀ block ∈ builder.blocks, block.Holds holds

variable {holds : Path → Prop} {builder after : Builder}

theorem holds_empty : Builder.empty.Holds holds where
  root := by simp [Builder.empty, Node.AllHold, Node.pathsAll]
  blocks := by simp [Builder.empty]

theorem Holds.append
    (held : builder.Holds holds) {node : Node Path} (added : Node.AllHold holds [node]) :
    (builder.append node).Holds holds := by
  unfold Builder.append
  split
  · exact { root := held.root.append added, blocks := by simp }
  · rename_i block outer blocks
    obtain ⟨root, all⟩ := held
    rw [blocks] at all
    obtain ⟨innermost, others⟩ := List.forall_mem_cons.mp all
    refine { root, blocks := List.forall_mem_cons.mpr ⟨?_, others⟩ }
    exact { innermost with nodes := innermost.nodes.append added }

theorem Holds.step
    (held : builder.Holds holds) {token : Token} (read : token.Holds holds)
    (taken : builder.step token = .ok after) :
    after.Holds holds := by
  cases token with
  | text content =>
      cases taken
      exact held.append (Node.allHold_singleton (by simp [Node.paths]))
  | «variable» path raw place =>
      cases taken
      exact held.append (Node.allHold_singleton (by simpa [Node.paths, Token.Holds] using read))
  | opening kind path binding place =>
      cases taken
      refine { root := held.root, blocks := List.forall_mem_cons.mpr ⟨?_, held.blocks⟩ }
      exact { path := read, nodes := by simp [Node.AllHold, Node.pathsAll],
              thenBranch := by simp [Node.AllHold, Node.pathsAll] }
  | otherwise place =>
      simp only [Builder.step] at taken
      split at taken
      · cases taken
      · rename_i block outer blocks
        obtain ⟨innermost, others⟩ := List.forall_mem_cons.mp (blocks ▸ held.blocks)
        split at taken
        · cases taken
        · cases taken
        · cases taken
          refine { root := held.root, blocks := List.forall_mem_cons.mpr ⟨?_, others⟩ }
          exact { path := innermost.path, nodes := by simp [Node.AllHold, Node.pathsAll],
                  thenBranch := innermost.nodes }
  | closing kind place =>
      simp only [Builder.step] at taken
      split at taken
      · cases taken
      · rename_i block outer blocks
        obtain ⟨innermost, others⟩ := List.forall_mem_cons.mp (blocks ▸ held.blocks)
        split at taken
        · cases taken
          have outside : Builder.Holds holds { builder with blocks := outer } :=
            { root := held.root, blocks := others }
          exact outside.append innermost.close
        · cases taken

theorem Holds.steps
    {tokens : List Token} (held : builder.Holds holds)
    (read : ∀ token ∈ tokens, token.Holds holds) (taken : builder.steps tokens = .ok after) :
    after.Holds holds := by
  induction tokens generalizing builder with
  | nil =>
      cases taken
      exact held
  | cons token rest induction =>
      obtain ⟨tokenRead, restRead⟩ := List.forall_mem_cons.mp read
      rw [Builder.steps] at taken
      cases next : builder.step token with
      | error error => simp [next] at taken
      | ok middle =>
          rw [next] at taken
          exact induction (held.step tokenRead next) restRead taken

end Builder

/-- What holds of the paths of all tokens holds of all paths of the tree. -/
theorem Node.allHold_of_tokens
    {holds : Path → Prop} {tokens : List Token} {nodes : List (Node Path)}
    (read : ∀ token ∈ tokens, token.Holds holds) (built : Node.ofTokens tokens = .ok nodes) :
    Node.AllHold holds nodes := by
  rw [Node.ofTokens] at built
  cases taken : Builder.empty.steps tokens with
  | error error => simp [taken] at built
  | ok builder =>
      have held := Builder.holds_empty.steps read taken
      simp only [taken, Builder.finish] at built
      split at built
      · cases built
        exact held.root
      · cases built

theorem Directive.token_named
    {marker : Marker} {inner : List Char} {found : Directive} (place : Position)
    (read : marker.read inner = .ok found) :
    (found.token place).Holds fun path => path.segments ≠ [] := by
  have canonical := isCanonical_of_read read
  cases found with
  | «variable» path raw => exact canonical.1
  | loop path binding => exact canonical.1.1
  | conditional path => exact canonical.1
  | otherwise => trivial
  | close kind => trivial

namespace Token

theorem named_of_piece
    {place : Position} {piece : Piece} {token : Token} (read : piece.token place = .ok token) :
    token.Holds fun path => path.segments ≠ [] := by
  cases piece with
  | text characters =>
      cases read
      trivial
  | unclosed marker inner => cases read
  | directive marker inner =>
      cases found : marker.read inner with
      | error fault => simp [Piece.token, found] at read
      | ok directive =>
          simp only [Piece.token, found, Except.ok.injEq] at read
          subst read
          exact Directive.token_named place found

theorem named_of_pieces
    {place : Position} {pieces : List Piece} {tokens : List Token}
    (read : ofPieces place pieces = .ok tokens) :
    ∀ token ∈ tokens, token.Holds fun path => path.segments ≠ [] := by
  induction pieces generalizing place tokens with
  | nil =>
      cases read
      simp
  | cons piece rest induction =>
      rw [ofPieces] at read
      split at read
      · cases read
      · rename_i first firstRead
        split at read
        · cases read
        · rename_i later laterRead
          cases read
          exact List.forall_mem_cons.mpr ⟨named_of_piece firstRead, induction laterRead⟩

end Token

theorem Node.named_of_source
    {source : String} {tokens : List Token} {nodes : List (Node Path)}
    (read : Token.read source = .ok tokens) (built : Node.ofTokens tokens = .ok nodes) :
    ∀ path ∈ Node.pathsAll nodes, path.segments ≠ [] :=
  Node.allHold_of_tokens (Token.named_of_pieces read) built

/-- A compiled template is the accepted tree of a text, all of whose paths have a segment.  Only
the check of the tree depends on the schema. -/
theorem Template.exists_compile_eq
    {source : String} {schema : Schema} {template : Template}
    (compiled : Template.compile source schema = .ok template) :
    ∃ nodes, Template.check nodes schema = .ok template ∧
      (∀ path ∈ Node.pathsAll nodes, path.segments ≠ []) ∧
        ∀ other, Template.compile source other =
          (Template.check nodes other).mapError CompileError.check := by
  unfold Template.compile at compiled
  split at compiled
  · cases compiled
  · rename_i tokens read
    split at compiled
    · cases compiled
    · rename_i nodes built
      have checks : ∀ other, Template.compile source other =
          (Template.check nodes other).mapError CompileError.check := by
        intro other
        simp only [Template.compile, read, built]
        cases Template.check nodes other <;> rfl
      split at compiled
      · cases compiled
      · rename_i accepted checked
        cases compiled
        exact ⟨nodes, checked, Node.named_of_source read built, checks⟩

theorem Template.exists_nodes_of_compile
    {source : String} {schema : Schema} {template : Template}
    (compiled : Template.compile source schema = .ok template) :
    ∃ nodes, Template.check nodes schema = .ok template ∧
      ∀ path ∈ Node.pathsAll nodes, path.segments ≠ [] := by
  obtain ⟨nodes, accepted, named, _⟩ := exists_compile_eq compiled
  exact ⟨nodes, accepted, named⟩

end Stencil
