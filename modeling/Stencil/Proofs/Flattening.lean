import Stencil.Node
import Stencil.Proofs.Paths

/-!
# Trees as sequences of tokens

A tree is flattened to the tokens it is built from, all of them at the start of a text.  Building
is the inverse: wherever the tokens stand, they give the tree back, and no other sequence of
tokens that directives can have gives that tree.
-/

namespace Stencil

/-- The token as it would be at the start of a text. -/
def Token.unplaced : Token → Token
  | .text content => .text content
  | .variable path raw _ => .variable path raw .start
  | .opening kind path binding _ => .opening kind path binding .start
  | .otherwise _ => .otherwise .start
  | .closing kind _ => .closing kind .start

/-- A token that can be that of a directive: only a loop has a binding. -/
def Token.Bound : Token → Prop
  | .opening .loop _ binding _ => binding.isSome
  | .opening .conditional _ binding _ => binding = none
  | _ => True

namespace Node

mutual

def tokens : Node Path → List Token
  | .text content => [.text content]
  | .variable path raw => [.variable path raw .start]
  | .loop path binding body =>
      .opening .loop path (some binding) .start :: (tokensAll body ++ [.closing .loop .start])
  | .conditional path thenBranch elseBranch =>
      .opening .conditional path none .start :: (tokensAll thenBranch ++
        ((match elseBranch with
        | none => []
        | some nodes => .otherwise .start :: tokensAll nodes) ++ [.closing .conditional .start]))

def tokensAll : List (Node Path) → List Token
  | [] => []
  | node :: rest => tokens node ++ tokensAll rest

end

/-- The tokens of a second branch, with the one it begins with. -/
def elseTokens : Option (List (Node Path)) → List Token
  | none => []
  | some nodes => .otherwise .start :: tokensAll nodes

theorem tokens_conditional
    (path : Path) (thenBranch : List (Node Path)) (elseBranch : Option (List (Node Path))) :
    tokens (.conditional path thenBranch elseBranch) =
      .opening .conditional path none .start ::
        (tokensAll thenBranch ++ (elseTokens elseBranch ++ [.closing .conditional .start])) := by
  cases elseBranch <;> simp [tokens, elseTokens]

@[simp] theorem tokensAll_append (first second : List (Node Path)) :
    tokensAll (first ++ second) = tokensAll first ++ tokensAll second := by
  induction first with
  | nil => simp [tokensAll]
  | cons node rest induction => simp [tokensAll, induction]

theorem tokensAll_singleton (node : Node Path) : tokensAll [node] = tokens node := by
  simp [tokensAll]

theorem map_unplaced_tokensAll (nodes : List (Node Path)) :
    (tokensAll nodes).map Token.unplaced = tokensAll nodes := by
  induction nodes using sequence_induction with
  | nil => rfl
  | text content rest induction => simp [tokensAll, tokens, Token.unplaced, induction]
  | «variable» path raw rest induction => simp [tokensAll, tokens, Token.unplaced, induction]
  | loop path binding body rest inside induction =>
      simp [tokensAll, tokens, Token.unplaced, inside, induction]
  | conditional path thenBranch elseBranch rest first second induction =>
      cases elseBranch <;> simp_all [tokensAll, tokens, Token.unplaced]

end Node

namespace Token

variable {token : Token} {path : Path} {place : Position}

theorem eq_text_of_unplaced {content : String} (same : token.unplaced = .text content) :
    token = .text content := by
  cases token <;> simp_all [unplaced]

theorem eq_variable_of_unplaced {raw : Bool} (same : token.unplaced = .variable path raw place) :
    ∃ actual, token = .variable path raw actual := by
  cases token <;> simp_all [unplaced]

theorem eq_opening_of_unplaced
    {kind : BlockKind} {binding : Option String}
    (same : token.unplaced = .opening kind path binding place) :
    ∃ actual, token = .opening kind path binding actual := by
  cases token <;> simp_all [unplaced]

theorem eq_otherwise_of_unplaced (same : token.unplaced = .otherwise place) :
    ∃ actual, token = .otherwise actual := by
  cases token <;> simp_all [unplaced]

theorem eq_closing_of_unplaced {kind : BlockKind} (same : token.unplaced = .closing kind place) :
    ∃ actual, token = .closing kind actual := by
  cases token <;> simp_all [unplaced]

end Token

namespace Builder

def appendAll (builder : Builder) (nodes : List (Node Path)) : Builder :=
  nodes.foldl append builder

theorem appendAll_block
    (root : List (Node Path)) (block : OpenBlock) (outer : List OpenBlock)
    (nodes : List (Node Path)) :
    appendAll { root, blocks := block :: outer } nodes =
      { root, blocks := { block with nodes := block.nodes ++ nodes } :: outer } := by
  induction nodes generalizing block with
  | nil => simp [appendAll]
  | cons node rest induction =>
      have later := induction { block with nodes := block.nodes ++ [node] }
      simpa [appendAll, append] using later

theorem appendAll_root (root nodes : List (Node Path)) :
    appendAll { root, blocks := [] } nodes = { root := root ++ nodes, blocks := [] } := by
  induction nodes generalizing root with
  | nil => simp [appendAll]
  | cons node rest induction =>
      have later := induction (root ++ [node])
      simpa [appendAll, append] using later

theorem steps_append
    {builder middle : Builder} {first : List Token} (taken : builder.steps first = .ok middle)
    (second : List Token) :
    builder.steps (first ++ second) = middle.steps second := by
  induction first generalizing builder with
  | nil =>
      cases taken
      rfl
  | cons token rest induction =>
      rw [steps] at taken
      rw [List.cons_append, steps]
      cases next : builder.step token with
      | error error => simp [next] at taken
      | ok after =>
          rw [next] at taken
          exact induction taken

theorem steps_cons
    {builder next : Builder} {token : Token} (taken : builder.step token = .ok next)
    (rest : List Token) :
    builder.steps (token :: rest) = next.steps rest := by
  rw [steps, taken]

/-- The tokens of nodes add these nodes, whatever is open around them. -/
theorem steps_tokensAll
    (nodes : List (Node Path)) (builder : Builder) (tokens : List Token)
    (flat : tokens.map Token.unplaced = Node.tokensAll nodes) :
    builder.steps tokens = .ok (builder.appendAll nodes) := by
  induction nodes using Node.sequence_induction generalizing builder tokens with
  | nil =>
      have none : tokens = [] := by simpa [Node.tokensAll] using flat
      subst none
      rfl
  | text content rest induction =>
      simp only [Node.tokensAll, Node.tokens, List.cons_append, List.nil_append] at flat
      obtain ⟨token, later, rfl, same, restFlat⟩ := List.map_eq_cons_iff.mp flat
      obtain rfl := Token.eq_text_of_unplaced same
      rw [steps_cons rfl, induction _ _ restFlat]
      rfl
  | «variable» path raw rest induction =>
      simp only [Node.tokensAll, Node.tokens, List.cons_append, List.nil_append] at flat
      obtain ⟨token, later, rfl, same, restFlat⟩ := List.map_eq_cons_iff.mp flat
      obtain ⟨place, rfl⟩ := Token.eq_variable_of_unplaced same
      rw [steps_cons rfl, induction _ _ restFlat]
      rfl
  | loop path binding body rest inside induction =>
      simp only [Node.tokensAll, Node.tokens, List.cons_append, List.append_assoc,
        List.nil_append] at flat
      obtain ⟨opening, _, rfl, opens, fromBody⟩ := List.map_eq_cons_iff.mp flat
      obtain ⟨bodyTokens, _, rfl, bodyFlat, fromClosing⟩ := List.map_eq_append_iff.mp fromBody
      obtain ⟨closing, later, rfl, closes, restFlat⟩ := List.map_eq_cons_iff.mp fromClosing
      obtain ⟨opened, rfl⟩ := Token.eq_opening_of_unplaced opens
      obtain ⟨closed, rfl⟩ := Token.eq_closing_of_unplaced closes
      rw [steps_cons rfl, steps_append (inside _ _ bodyFlat), appendAll_block, steps_cons rfl,
        induction _ _ restFlat]
      rfl
  | conditional path thenBranch elseBranch rest first second induction =>
      cases elseBranch with
      | none =>
          simp only [Node.tokensAll, Node.tokens, List.cons_append, List.append_assoc,
            List.nil_append] at flat
          obtain ⟨opening, _, rfl, opens, fromThen⟩ := List.map_eq_cons_iff.mp flat
          obtain ⟨thenTokens, _, rfl, thenFlat, fromClosing⟩ := List.map_eq_append_iff.mp fromThen
          obtain ⟨closing, later, rfl, closes, restFlat⟩ := List.map_eq_cons_iff.mp fromClosing
          obtain ⟨opened, rfl⟩ := Token.eq_opening_of_unplaced opens
          obtain ⟨closed, rfl⟩ := Token.eq_closing_of_unplaced closes
          rw [steps_cons rfl, steps_append (first _ _ thenFlat), appendAll_block, steps_cons rfl,
            induction _ _ restFlat]
          rfl
      | some nodes =>
          simp only [Node.tokensAll, Node.tokens, List.cons_append, List.append_assoc,
            List.nil_append] at flat
          obtain ⟨opening, _, rfl, opens, fromThen⟩ := List.map_eq_cons_iff.mp flat
          obtain ⟨thenTokens, _, rfl, thenFlat, fromDivider⟩ := List.map_eq_append_iff.mp fromThen
          obtain ⟨divider, _, rfl, divides, fromElse⟩ := List.map_eq_cons_iff.mp fromDivider
          obtain ⟨elseTokens, _, rfl, elseFlat, fromClosing⟩ :=
            List.map_eq_append_iff.mp fromElse
          obtain ⟨closing, later, rfl, closes, restFlat⟩ := List.map_eq_cons_iff.mp fromClosing
          obtain ⟨opened, rfl⟩ := Token.eq_opening_of_unplaced opens
          obtain ⟨divided, rfl⟩ := Token.eq_otherwise_of_unplaced divides
          obtain ⟨closed, rfl⟩ := Token.eq_closing_of_unplaced closes
          rw [steps_cons rfl, steps_append (first _ _ thenFlat), appendAll_block, steps_cons rfl,
            steps_append (second _ _ elseFlat), appendAll_block, steps_cons rfl,
            induction _ _ restFlat]
          rfl

end Builder

/-- The tokens of a tree give the tree back, wherever they stand. -/
theorem Node.ofTokens_of_unplaced
    {nodes : List (Node Path)} {tokens : List Token}
    (flat : tokens.map Token.unplaced = Node.tokensAll nodes) :
    Node.ofTokens tokens = .ok nodes := by
  rw [Node.ofTokens, Builder.steps_tokensAll nodes _ tokens flat, Builder.empty,
    Builder.appendAll_root]
  rfl

/-- An open block that directives can have opened. -/
structure OpenBlock.Bound (block : OpenBlock) : Prop where
  opening : (Token.opening block.kind block.path block.binding block.place).Bound
  single : block.kind = .loop → block.thenBranch = none

def OpenBlock.tokens (block : OpenBlock) : List Token :=
  .opening block.kind block.path block.binding .start ::
    ((match block.thenBranch with
    | none => []
    | some nodes => Node.tokensAll nodes ++ [.otherwise .start]) ++ Node.tokensAll block.nodes)

theorem OpenBlock.Bound.tokens_close {block : OpenBlock} (bound : block.Bound) :
    block.close.tokens = block.tokens ++ [.closing block.kind .start] := by
  obtain ⟨kind, path, binding, place, nodes, thenBranch⟩ := block
  obtain ⟨opening, single⟩ := bound
  cases kind with
  | loop =>
      obtain rfl := single rfl
      cases binding with
      | none => simp [Token.Bound] at opening
      | some name => simp [OpenBlock.close, OpenBlock.tokens, Node.tokens]
  | conditional =>
      obtain rfl : binding = none := opening
      cases thenBranch <;> simp [OpenBlock.close, OpenBlock.tokens, Node.tokens]

namespace Builder

def tokens (builder : Builder) : List Token :=
  Node.tokensAll builder.root ++ builder.blocks.reverse.flatMap OpenBlock.tokens

variable {builder next : Builder}

theorem tokens_append (builder : Builder) (node : Node Path) :
    (builder.append node).tokens = builder.tokens ++ node.tokens := by
  unfold append
  split
  · rename_i closed
    simp [tokens, closed, Node.tokensAll_singleton]
  · rename_i block outer isOpen
    simp [tokens, isOpen, OpenBlock.tokens, Node.tokensAll_singleton]

theorem bound_append
    (bound : ∀ block ∈ builder.blocks, block.Bound) (node : Node Path) :
    ∀ block ∈ (builder.append node).blocks, block.Bound := by
  unfold append
  split
  · simp
  · rename_i block outer isOpen
    rw [isOpen] at bound
    obtain ⟨innermost, others⟩ := List.forall_mem_cons.mp bound
    exact List.forall_mem_cons.mpr ⟨⟨innermost.opening, innermost.single⟩, others⟩

/-- A token that is taken is put behind those taken before. -/
theorem step_tokens
    {token : Token} (bound : ∀ block ∈ builder.blocks, block.Bound) (boundToken : token.Bound)
    (taken : builder.step token = .ok next) :
    (∀ block ∈ next.blocks, block.Bound) ∧
      next.tokens = builder.tokens ++ [token.unplaced] := by
  cases token with
  | text content =>
      cases taken
      exact ⟨bound_append bound _, tokens_append _ _⟩
  | «variable» path raw place =>
      cases taken
      exact ⟨bound_append bound _, tokens_append _ _⟩
  | opening kind path binding place =>
      cases taken
      refine ⟨List.forall_mem_cons.mpr ⟨⟨boundToken, fun _ => rfl⟩, bound⟩, ?_⟩
      simp [tokens, OpenBlock.tokens, Token.unplaced, Node.tokensAll]
  | otherwise place =>
      simp only [step] at taken
      split at taken
      · cases taken
      · rename_i block outer isOpen
        obtain ⟨innermost, others⟩ := List.forall_mem_cons.mp (isOpen ▸ bound)
        split at taken
        · cases taken
        · cases taken
        · rename_i isConditional first
          cases taken
          constructor
          · refine List.forall_mem_cons.mpr ⟨⟨innermost.opening, ?_⟩, others⟩
            intro isLoop
            cases isConditional.symm.trans isLoop
          · simp [tokens, isOpen, OpenBlock.tokens, Token.unplaced, first, Node.tokensAll]
  | closing kind place =>
      simp only [step] at taken
      split at taken
      · cases taken
      · rename_i block outer isOpen
        obtain ⟨innermost, others⟩ := List.forall_mem_cons.mp (isOpen ▸ bound)
        split at taken
        · rename_i sameKind
          cases taken
          refine ⟨bound_append others _, ?_⟩
          rw [tokens_append, innermost.tokens_close, sameKind]
          simp [tokens, isOpen, Token.unplaced]
        · cases taken

theorem steps_tokens
    {tokens : List Token} (bound : ∀ block ∈ builder.blocks, block.Bound)
    (boundTokens : ∀ token ∈ tokens, token.Bound) (taken : builder.steps tokens = .ok next) :
    next.tokens = builder.tokens ++ tokens.map Token.unplaced := by
  induction tokens generalizing builder with
  | nil =>
      cases taken
      simp
  | cons token rest induction =>
      obtain ⟨first, later⟩ := List.forall_mem_cons.mp boundTokens
      rw [steps] at taken
      cases step : builder.step token with
      | error error => simp [step] at taken
      | ok middle =>
          rw [step] at taken
          obtain ⟨stillBound, added⟩ := step_tokens bound first step
          rw [induction stillBound later taken, added]
          simp

end Builder

/-- Tokens of directives that give a tree are the tokens of that tree. -/
theorem Node.unplaced_of_ofTokens
    {nodes : List (Node Path)} {tokens : List Token} (bound : ∀ token ∈ tokens, token.Bound)
    (built : Node.ofTokens tokens = .ok nodes) :
    tokens.map Token.unplaced = Node.tokensAll nodes := by
  rw [Node.ofTokens] at built
  cases taken : Builder.empty.steps tokens with
  | error error => simp [taken] at built
  | ok builder =>
      have flat := Builder.steps_tokens (by simp [Builder.empty]) bound taken
      simp only [taken, Builder.finish] at built
      split at built
      · rename_i closed
        cases built
        simpa [Builder.tokens, Builder.empty, closed, Node.tokensAll] using flat.symm
      · cases built

end Stencil
