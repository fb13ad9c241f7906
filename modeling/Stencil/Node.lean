import Stencil.Path
import Stencil.Token

/-!
# Template trees

A template is a sequence of nodes.  Loops and conditionals hold sequences of their own.  What a
node uses to refer to data is left open: trees as they are read refer by paths, checked trees by
paths whose segments are marked.

A tree is built from tokens.  They are taken one after the other while the blocks that are still
open are kept, innermost first.  Building fails at the first token that fits no open block, or at
the end if a block is still open.
-/

namespace Stencil

/-- A node of a template that refers to data by `ρ`. -/
inductive Node (ρ : Type) where
  /-- Text that is written as it stands. -/
  | text (content : String)
  /-- A value; `raw` leaves its special characters as they are. -/
  | variable (path : ρ) (raw : Bool)
  /-- A body that is written once for each element of a list. -/
  | loop (path : ρ) (binding : String) (body : List (Node ρ))
  /-- Two branches, of which a value chooses one; no second branch is not the same as an
  empty one. -/
  | conditional (path : ρ) (thenBranch : List (Node ρ)) (elseBranch : Option (List (Node ρ)))
  deriving BEq, Repr

namespace Node

variable {ρ σ : Type}

mutual

def map (change : ρ → σ) : Node ρ → Node σ
  | .text content => .text content
  | .variable path raw => .variable (change path) raw
  | .loop path binding body => .loop (change path) binding (mapAll change body)
  | .conditional path thenBranch elseBranch =>
      .conditional (change path) (mapAll change thenBranch)
        (match elseBranch with
        | none => none
        | some nodes => some (mapAll change nodes))

def mapAll (change : ρ → σ) : List (Node ρ) → List (Node σ)
  | [] => []
  | node :: rest => map change node :: mapAll change rest

end

end Node

/-- How blocks are out of balance. -/
inductive Imbalance where
  /-- A conditional has a second branch already. -/
  | secondElse (path : Path) (opened : Position)
  | elseInLoop (path : Path) (opened : Position)
  | elseOutside
  /-- The innermost open block is of the other kind. -/
  | mismatched (closed : BlockKind) (kind : BlockKind) (path : Path) (opened : Position)
  | unopened (closed : BlockKind)
  | unclosed (kind : BlockKind) (path : Path)
  deriving DecidableEq, Repr

def BlockKind.describe (kind : BlockKind) (path : Path) : String :=
  kind.keyword ++ " " ++ path.text

def Imbalance.construct : Imbalance → String
  | .secondElse path opened =>
      "second `else` in `" ++ BlockKind.conditional.describe path ++ "` opened at " ++ opened.text
  | .elseInLoop path opened =>
      "`else` inside `" ++ BlockKind.loop.describe path ++ "` opened at " ++ opened.text
  | .elseOutside => "`else` outside of `if`"
  | .mismatched closed kind path opened =>
      "`end" ++ closed.keyword ++ "` does not close `" ++ kind.describe path ++ "` opened at " ++
        opened.text
  | .unopened closed => "`end" ++ closed.keyword ++ "` without `" ++ closed.keyword ++ "`"
  | .unclosed kind path => "`" ++ kind.describe path ++ "` is never closed"

/-- Blocks out of balance at a place. -/
structure ParseError where
  imbalance : Imbalance
  place : Position
  deriving DecidableEq, Repr

namespace ParseError

def unbalancedText (place : Position) (construct : String) : String :=
  "unbalanced block at " ++ place.text ++ ": " ++ construct

def message (error : ParseError) : String :=
  unbalancedText error.place error.imbalance.construct

end ParseError

/-- A block that is still open. -/
structure OpenBlock where
  kind : BlockKind
  path : Path
  binding : Option String
  place : Position
  /-- The nodes of the branch that is being built. -/
  nodes : List (Node Path)
  /-- The first branch, once the second one has begun. -/
  thenBranch : Option (List (Node Path))

def OpenBlock.close (block : OpenBlock) : Node Path :=
  match block.kind, block.thenBranch with
  | .loop, _ => .loop block.path (block.binding.getD "") block.nodes
  | .conditional, none => .conditional block.path block.nodes none
  | .conditional, some thenBranch => .conditional block.path thenBranch (some block.nodes)

/-- What has been built so far. -/
structure Builder where
  /-- The nodes outside of every block. -/
  root : List (Node Path)
  /-- The open blocks, innermost first. -/
  blocks : List OpenBlock

namespace Builder

def empty : Builder :=
  { root := [], blocks := [] }

def append (builder : Builder) (node : Node Path) : Builder :=
  match builder.blocks with
  | [] => { root := builder.root ++ [node], blocks := [] }
  | block :: outer =>
      { root := builder.root, blocks := { block with nodes := block.nodes ++ [node] } :: outer }

def step (builder : Builder) : Token → Except ParseError Builder
  | .text content => .ok (builder.append (.text content))
  | .variable path raw _ => .ok (builder.append (.variable path raw))
  | .opening kind path binding place =>
      let block := { kind, path, binding, place, nodes := [], thenBranch := none }
      .ok { builder with blocks := block :: builder.blocks }
  | .otherwise place =>
      match builder.blocks with
      | [] => .error { imbalance := .elseOutside, place }
      | block :: outer =>
          match block.kind, block.thenBranch with
          | .loop, _ => .error { imbalance := .elseInLoop block.path block.place, place }
          | .conditional, some _ =>
              .error { imbalance := .secondElse block.path block.place, place }
          | .conditional, none =>
              let second := { block with nodes := [], thenBranch := some block.nodes }
              .ok { builder with blocks := second :: outer }
  | .closing kind place =>
      match builder.blocks with
      | [] => .error { imbalance := .unopened kind, place }
      | block :: outer =>
          if block.kind = kind then
            .ok ({ builder with blocks := outer }.append block.close)
          else
            .error { imbalance := .mismatched kind block.kind block.path block.place, place }

def steps (builder : Builder) : List Token → Except ParseError Builder
  | [] => .ok builder
  | token :: rest =>
      match builder.step token with
      | .error error => .error error
      | .ok next => next.steps rest

/-- The nodes, if every block is closed. -/
def finish (builder : Builder) : Except ParseError (List (Node Path)) :=
  match builder.blocks with
  | [] => .ok builder.root
  | block :: _ =>
      .error { imbalance := .unclosed block.kind block.path, place := block.place }

end Builder

def Node.ofTokens (tokens : List Token) : Except ParseError (List (Node Path)) :=
  match Builder.empty.steps tokens with
  | .error error => .error error
  | .ok builder => builder.finish

end Stencil
