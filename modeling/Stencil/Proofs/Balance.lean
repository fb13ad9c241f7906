import Stencil.Proofs.Printing

/-!
# Balanced tokens

In a balanced sequence of tokens every block is closed by a token of its own kind, a conditional
has at most one second branch and a loop has none.  These are the sequences that trees are built
from.  While tokens are taken one after the other, each open block stands for the token that opens
it and what has followed inside of it; all that stands between them is balanced.
-/

namespace Stencil

namespace Token

/-- A sequence of tokens whose blocks are all closed. -/
inductive Balanced : List Token → Prop where
  | nil : Balanced []
  | text {content : String} {rest : List Token} (later : Balanced rest) :
      Balanced (.text content :: rest)
  | variable {path : Path} {raw : Bool} {place : Position} {rest : List Token}
      (later : Balanced rest) :
      Balanced (.variable path raw place :: rest)
  /-- A loop, or a conditional without a second branch. -/
  | block {kind : BlockKind} {path : Path} {binding : Option String} {opened closed : Position}
      {body rest : List Token} (inside : Balanced body) (later : Balanced rest) :
      Balanced (.opening kind path binding opened :: (body ++ .closing kind closed :: rest))
  /-- A conditional with two branches. -/
  | branches {path : Path} {binding : Option String} {opened divided closed : Position}
      {first second rest : List Token} (before : Balanced first) (behind : Balanced second)
      (later : Balanced rest) :
      Balanced (.opening .conditional path binding opened ::
        (first ++ .otherwise divided :: (second ++ .closing .conditional closed :: rest)))

theorem Balanced.append
    {first second : List Token} (before : Balanced first) (behind : Balanced second) :
    Balanced (first ++ second) := by
  induction before with
  | nil => exact behind
  | text _ induction => exact .text induction
  | «variable» _ induction => exact .variable induction
  | block inside _ _ induction =>
      rw [List.cons_append, List.append_assoc, List.cons_append]
      exact .block inside induction
  | branches first second _ _ _ induction =>
      rw [List.cons_append, List.append_assoc, List.cons_append, List.append_assoc,
        List.cons_append]
      exact .branches first second induction

/-- What stands in a block up to now, in its only branch or in the second one. -/
inductive Fills (kind : BlockKind) : Bool → List Token → Prop where
  | only {body : List Token} (balanced : Balanced body) : Fills kind false body
  | second {first second : List Token} {divided : Position} (conditional : kind = .conditional)
      (before : Balanced first) (behind : Balanced second) :
      Fills kind true (first ++ .otherwise divided :: second)

namespace Fills

variable {kind : BlockKind} {divided : Bool} {body : List Token}

theorem append (fills : Fills kind divided body) {more : List Token} (balanced : Balanced more) :
    Fills kind divided (body ++ more) := by
  cases fills with
  | only before => exact .only (before.append balanced)
  | second conditional before behind =>
      rw [List.append_assoc, List.cons_append]
      exact .second conditional before (behind.append balanced)

/-- A block that is closed is balanced. -/
theorem closed
    (fills : Fills kind divided body) (path : Path) (binding : Option String)
    (opened closed : Position) :
    Balanced (.opening kind path binding opened :: (body ++ [.closing kind closed])) := by
  cases fills with
  | only inside => exact .block inside .nil
  | second conditional before behind =>
      subst conditional
      rw [List.append_assoc, List.cons_append]
      exact .branches before behind .nil

end Fills

end Token

def OpenBlock.opening (block : OpenBlock) : Token :=
  .opening block.kind block.path block.binding block.place

/-- The tokens that have been taken while blocks are open, innermost first: those in front of a
block, the one that opens it and those inside of it. -/
inductive Builder.Took : List OpenBlock → List Token → Prop where
  | outside {tokens : List Token} (balanced : Token.Balanced tokens) : Took [] tokens
  | inside {block : OpenBlock} {outer : List OpenBlock} {before body : List Token}
      (outside : Took outer before)
      (fills : Token.Fills block.kind block.thenBranch.isSome body) :
      Took (block :: outer) (before ++ block.opening :: body)

namespace Builder

variable {builder next : Builder} {tokens : List Token}

theorem Took.append
    (took : Took builder.blocks tokens) (node : Node Path) {more : List Token}
    (balanced : Token.Balanced more) :
    Took (builder.append node).blocks (tokens ++ more) := by
  obtain ⟨root, blocks⟩ := builder
  cases took with
  | outside before => exact .outside (before.append balanced)
  | @inside block outer before body outside fills =>
      rw [List.append_assoc, List.cons_append]
      exact @Took.inside { block with nodes := block.nodes ++ [node] } outer before _ outside
        (fills.append balanced)

theorem Took.step
    (took : Took builder.blocks tokens) {token : Token} (taken : builder.step token = .ok next) :
    Took next.blocks (tokens ++ [token]) := by
  obtain ⟨root, blocks⟩ := builder
  cases token with
  | text content =>
      cases taken
      exact took.append (.text content) (.text .nil)
  | «variable» path raw place =>
      cases taken
      exact took.append (.variable path raw) (.variable .nil)
  | opening kind path binding place =>
      cases taken
      exact @Took.inside { kind, path, binding, place, nodes := [], thenBranch := none } _ _ _
        took (.only .nil)
  | otherwise place =>
      cases took with
      | outside _ => cases taken
      | @inside block outer before body outside fills =>
          obtain ⟨kind, path, binding, opened, nodes, thenBranch⟩ := block
          cases kind with
          | loop => cases taken
          | conditional =>
              cases thenBranch with
              | some first => cases taken
              | none =>
                  cases taken
                  cases fills with
                  | only balanced =>
                      rw [List.append_assoc, List.cons_append]
                      exact @Took.inside
                        { kind := .conditional, path, binding, place := opened, nodes := [],
                          thenBranch := some nodes } _ _ _
                        outside (.second rfl balanced .nil)
  | closing kind place =>
      cases took with
      | outside _ => cases taken
      | @inside block outer before body outside fills =>
          simp only [step] at taken
          split at taken
          · rename_i same
            cases taken
            have closed := fills.closed block.path block.binding block.place place
            rw [List.append_assoc, List.cons_append, ← same]
            exact @Took.append { root, blocks := outer } _ outside block.close _ closed
          · cases taken

theorem Took.steps
    {builder : Builder} {before tokens : List Token} (took : Took builder.blocks before)
    (taken : builder.steps tokens = .ok next) :
    Took next.blocks (before ++ tokens) := by
  induction tokens generalizing builder before with
  | nil =>
      cases taken
      rwa [List.append_nil]
  | cons token rest induction =>
      rw [Builder.steps] at taken
      cases first : builder.step token with
      | error error => simp [first] at taken
      | ok middle =>
          rw [first] at taken
          have later := induction (took.step first) taken
          rwa [List.append_assoc] at later

theorem took_of_steps (taken : Builder.empty.steps tokens = .ok next) :
    Took next.blocks tokens := by
  have start : Took Builder.empty.blocks [] := .outside .nil
  exact start.steps taken

/-- Balanced tokens are taken wherever they stand, and only add nodes. -/
theorem exists_steps_of_balanced (balanced : Token.Balanced tokens) :
    ∃ nodes, ∀ builder : Builder, builder.steps tokens = .ok (builder.appendAll nodes) := by
  induction balanced with
  | nil => exact ⟨[], fun builder => rfl⟩
  | @text content rest _ induction =>
      obtain ⟨nodes, later⟩ := induction
      refine ⟨.text content :: nodes, fun builder => ?_⟩
      rw [steps_cons rfl, later]
      rfl
  | @«variable» path raw place rest _ induction =>
      obtain ⟨nodes, later⟩ := induction
      refine ⟨.variable path raw :: nodes, fun builder => ?_⟩
      rw [steps_cons rfl, later]
      rfl
  | @block kind path binding opened closed body rest _ _ bodyInduction induction =>
      obtain ⟨bodyNodes, inside⟩ := bodyInduction
      obtain ⟨nodes, later⟩ := induction
      let block : OpenBlock :=
        { kind, path, binding, place := opened, nodes := bodyNodes, thenBranch := none }
      refine ⟨block.close :: nodes, fun builder => ?_⟩
      rw [steps_cons rfl, steps_append (inside _), appendAll_block]
      have closes : Builder.step { builder with blocks := block :: builder.blocks }
          (.closing kind closed) = .ok (builder.append block.close) := by
        simp [step, block]
      rw [List.nil_append, steps_cons closes, later]
      rfl
  | @branches path binding opened divided closed first second rest _ _ _ firstInduction
      secondInduction induction =>
      obtain ⟨firstNodes, before⟩ := firstInduction
      obtain ⟨secondNodes, behind⟩ := secondInduction
      obtain ⟨nodes, later⟩ := induction
      refine ⟨.conditional path firstNodes (some secondNodes) :: nodes, fun builder => ?_⟩
      rw [steps_cons rfl, steps_append (before _), appendAll_block, steps_cons rfl,
        steps_append (behind _), appendAll_block, steps_cons rfl, later]
      rfl

end Builder

/-- Trees are built from the balanced sequences of tokens, and from no others. -/
theorem Node.exists_ofTokens_iff {tokens : List Token} :
    (∃ nodes, Node.ofTokens tokens = .ok nodes) ↔ Token.Balanced tokens := by
  constructor
  · rintro ⟨nodes, built⟩
    rw [Node.ofTokens] at built
    cases taken : Builder.empty.steps tokens with
    | error error => simp [taken] at built
    | ok builder =>
        have took := Builder.took_of_steps taken
        simp only [taken, Builder.finish] at built
        split at built
        · rename_i closed
          rw [closed] at took
          cases took with
          | outside balanced => exact balanced
        · cases built
  · intro balanced
    obtain ⟨nodes, taken⟩ := Builder.exists_steps_of_balanced balanced
    refine ⟨nodes, ?_⟩
    rw [Node.ofTokens, taken, Builder.empty, Builder.appendAll_root]
    rfl

/-- The token at another place.  A text has none. -/
def Token.movedTo (place : Position) : Token → Token
  | .text content => .text content
  | .variable path raw _ => .variable path raw place
  | .opening kind path binding _ => .opening kind path binding place
  | .otherwise _ => .otherwise place
  | .closing kind _ => .closing kind place

@[simp] theorem Token.unplaced_movedTo (place : Position) (token : Token) :
    (token.movedTo place).unplaced = token.unplaced := by
  cases token <;> rfl

namespace Node

/-- The tokens of a tree, each at a place of its own. -/
def tokensAt (places : Nat → Position) (nodes : List (Node Path)) : List Token :=
  (tokensAll nodes).mapIdx fun index token => token.movedTo (places index)

theorem map_unplaced_tokensAt (places : Nat → Position) (nodes : List (Node Path)) :
    (tokensAt places nodes).map Token.unplaced = tokensAll nodes := by
  have same : (tokensAt places nodes).map Token.unplaced =
      (tokensAll nodes).map Token.unplaced := by
    apply List.ext_getElem?
    intro index
    simp [tokensAt, Function.comp_def]
  rw [same, map_unplaced_tokensAll]

end Node

theorem Token.bound_of_read
    {source : String} {tokens : List Token} (read : Token.read source = .ok tokens) :
    ∀ token ∈ tokens, token.Bound :=
  (allCanonical_of_ofPieces (Piece.wellCut_cut source.toList) read).bound

/-- Building a tree is the inverse of flattening one.  The tokens of a tree give the tree back,
whatever their places; tokens that give a tree are its tokens up to places, if loops and only loops
have a binding, as in all tokens that are read; and there is a tree for just the tokens that are
balanced. -/
theorem Node.building_undoes_flattening :
    (∀ nodes places, ofTokens (tokensAt places nodes) = .ok nodes) ∧
      (∀ tokens nodes, (∀ token ∈ tokens, token.Bound) → ofTokens tokens = .ok nodes →
        tokens.map Token.unplaced = tokensAll nodes) ∧
      (∀ source tokens, Token.read source = .ok tokens → ∀ token ∈ tokens, token.Bound) ∧
      ∀ tokens, (∃ nodes, ofTokens tokens = .ok nodes) ↔ Token.Balanced tokens := by
  refine ⟨?_, ?_, ?_, ?_⟩
  · intro nodes places
    exact ofTokens_of_unplaced (map_unplaced_tokensAt places nodes)
  · intro tokens nodes bound built
    exact unplaced_of_ofTokens bound built
  · intro source tokens read
    exact Token.bound_of_read read
  · intro tokens
    exact exists_ofTokens_iff

def shelfSource : String :=
  "\x7b% for .shelves |shelf| %\x7d\x7b% if .shelf.books %\x7d" ++
    "\x7b% for .shelf.books |book| %\x7d\x7b% endfor %\x7d\x7b% else %\x7d\x7b% endif %\x7d" ++
    "\x7b% if .shelf.free %\x7dfree\x7b% endif %\x7d\x7b% endfor %\x7d"

/-- A tree with a loop that writes nothing, an empty second branch and one that is not there. -/
def shelfNodes : List (Node Path) :=
  [.loop { hops := 0, segments := ["shelves"] } "shelf"
    [.conditional { hops := 0, segments := ["shelf", "books"] }
        [.loop { hops := 0, segments := ["shelf", "books"] } "book" []] (some []),
      .conditional { hops := 0, segments := ["shelf", "free"] } [.text "free"] none]]

theorem shelf_flattened :
    ∃ tokens, Token.read shelfSource = .ok tokens ∧ (∀ token ∈ tokens, token.Bound) ∧
      Node.ofTokens tokens = .ok shelfNodes ∧
      tokens.map Token.unplaced = Node.tokensAll shelfNodes ∧ Token.Balanced tokens ∧
      ∀ places, Node.ofTokens (Node.tokensAt places shelfNodes) = .ok shelfNodes := by
  obtain ⟨builds, flat, bound, balanced⟩ := Node.building_undoes_flattening
  obtain ⟨tokens, read, built⟩ : Node.Reads shelfSource shelfNodes := ⟨_, by cbv, rfl⟩
  exact ⟨tokens, read, bound _ _ read, built, flat _ _ (bound _ _ read) built,
    (balanced _).mp ⟨_, built⟩, builds shelfNodes⟩

end Stencil
