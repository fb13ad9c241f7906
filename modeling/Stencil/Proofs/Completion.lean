import Stencil.Proofs.Balance
import Stencil.Proofs.Places

/-!
# Completing tokens to a tree

Whatever blocks are open, further tokens can close them.  Building therefore fails for one of two
reasons.  Either it comes to a token that fits no open block, up to which everything could have been
completed and behind which nothing helps any more; or all tokens are taken and the innermost open
block is never closed.
-/

namespace Stencil

namespace Token

/-- Further tokens complete the tokens to those of a tree. -/
def Completable (tokens : List Token) : Prop :=
  ∃ more nodes, Node.ofTokens (tokens ++ more) = .ok nodes

/-- The token goes over to the second branch of a block or closes one. -/
def NeedsBlock : Token → Prop
  | .otherwise _ => True
  | .closing _ _ => True
  | _ => False

end Token

namespace Builder

variable {builder middle : Builder} {tokens : List Token} {token : Token} {error : ParseError}

theorem kinds_append (builder : Builder) (node : Node Path) :
    (builder.append node).blocks.map OpenBlock.kind = builder.blocks.map OpenBlock.kind := by
  obtain ⟨root, blocks⟩ := builder
  cases blocks <;> rfl

/-- All open blocks can be closed, the innermost one first. -/
theorem exists_steps_closing
    {kinds : List BlockKind} (areOpen : builder.blocks.map OpenBlock.kind = kinds) :
    ∃ root, builder.steps (kinds.map (.closing · .start)) = .ok { root, blocks := [] } := by
  obtain ⟨root, blocks⟩ := builder
  induction kinds generalizing root blocks with
  | nil =>
      obtain rfl := List.map_eq_nil_iff.mp areOpen
      exact ⟨root, rfl⟩
  | cons kind rest induction =>
      obtain ⟨block, outer, rfl, rfl, others⟩ := List.map_eq_cons_iff.mp areOpen
      have closes : step { root, blocks := block :: outer } (.closing block.kind .start) =
          .ok (append { root, blocks := outer } block.close) := by
        simp [step]
      rw [List.map_cons, steps_cons closes]
      apply induction
      rw [← others]
      exact kinds_append { root, blocks := outer } block.close

theorem completable_of_steps (taken : Builder.empty.steps tokens = .ok builder) :
    Token.Completable tokens := by
  obtain ⟨root, closed⟩ := @exists_steps_closing builder _ rfl
  refine ⟨(builder.blocks.map OpenBlock.kind).map (.closing · .start), root, ?_⟩
  rw [Node.ofTokens, steps_append taken, closed]
  rfl

/-- Where the tokens cannot all be taken, one of them is the first that cannot. -/
theorem exists_of_steps_error (stopped : builder.steps tokens = .error error) :
    ∃ before token later middle, tokens = before ++ token :: later ∧
      builder.steps before = .ok middle ∧ middle.step token = .error error := by
  induction tokens generalizing builder with
  | nil => cases stopped
  | cons first rest induction =>
      rw [steps] at stopped
      cases taken : builder.step first with
      | error refused =>
          rw [taken] at stopped
          cases stopped
          exact ⟨[], first, rest, builder, rfl, rfl, taken⟩
      | ok next =>
          rw [taken] at stopped
          obtain ⟨before, token, later, middle, rfl, accepted, refused⟩ := induction stopped
          refine ⟨first :: before, token, later, middle, rfl, ?_, refused⟩
          rwa [steps_cons taken]

/-- A token that is refused ends the building, whatever follows it. -/
theorem ofTokens_of_step_error
    (taken : Builder.empty.steps tokens = .ok middle) (refused : middle.step token = .error error)
    (more : List Token) :
    Node.ofTokens (tokens ++ token :: more) = .error error := by
  rw [Node.ofTokens, steps_append taken, steps, refused]

theorem needsBlock_of_step_error (refused : builder.step token = .error error) :
    token.NeedsBlock ∧ token.place? = some error.place := by
  cases token with
  | text content => cases refused
  | «variable» path raw place => cases refused
  | opening kind path binding place => cases refused
  | otherwise place =>
      refine ⟨trivial, ?_⟩
      simp only [step] at refused
      split at refused
      · cases refused
        rfl
      · split at refused <;> cases refused <;> rfl
  | closing kind place =>
      refine ⟨trivial, ?_⟩
      simp only [step] at refused
      split at refused
      · cases refused
        rfl
      · split at refused <;> cases refused
        rfl

end Builder

/-- Where no tree can be built, either a token is at fault that cannot be repaired: what stands in
front of it can be completed, but with it nothing can, and whatever follows it the error is the
same.  Or no token is at fault: all of them can be completed, and the error is about the innermost
open block, the one behind whose opening all blocks are closed. -/
theorem ParseError.at_first_beyond_repair
    {tokens : List Token} {error : ParseError} (unbalanced : Node.ofTokens tokens = .error error) :
    (∃ before token later, tokens = before ++ token :: later ∧
        token.NeedsBlock ∧ token.place? = some error.place ∧
        Token.Completable before ∧ ¬ Token.Completable (before ++ [token]) ∧
        ∀ more, Node.ofTokens (before ++ token :: more) = .error error) ∨
      Token.Completable tokens ∧
        ∃ before kind path binding place divided body,
          tokens = before ++ .opening kind path binding place :: body ∧
          Token.Fills kind divided body ∧ error = { imbalance := .unclosed kind path, place } := by
  cases taken : Builder.empty.steps tokens with
  | error refusal =>
      left
      rw [Node.ofTokens, taken] at unbalanced
      cases unbalanced
      obtain ⟨before, token, later, middle, rfl, accepted, refused⟩ :=
        Builder.exists_of_steps_error taken
      obtain ⟨needsBlock, placed⟩ := Builder.needsBlock_of_step_error refused
      have same := Builder.ofTokens_of_step_error accepted refused
      refine ⟨before, token, later, rfl, needsBlock, placed,
        Builder.completable_of_steps accepted, ?_, same⟩
      rintro ⟨more, nodes, built⟩
      rw [List.append_assoc, List.singleton_append, same more] at built
      cases built
  | ok builder =>
      right
      refine ⟨Builder.completable_of_steps taken, ?_⟩
      have took := Builder.took_of_steps taken
      rw [Node.ofTokens, taken] at unbalanced
      simp only [Builder.finish] at unbalanced
      split at unbalanced
      · cases unbalanced
      · rename_i block outer blocks
        cases unbalanced
        rw [blocks] at took
        cases took with
        | @inside _ _ before body outside fills =>
            exact ⟨before, _, _, _, _, _, body, rfl, fills, rfl⟩

/-- Tokens that were not read: a conditional with one branch too many, in front of a loop. -/
def threeBranches : List Token :=
  [.opening .conditional { hops := 0, segments := ["member"] } none
      { offset := 0, line := 1, column := 1 },
    .otherwise { offset := 20, line := 2, column := 1 },
    .text "guest",
    .otherwise { offset := 40, line := 3, column := 1 },
    .opening .loop { hops := 0, segments := ["names"] } none
      { offset := 60, line := 4, column := 1 }]

theorem threeBranches_beyond_repair :
    Node.ofTokens threeBranches =
        .error
          { imbalance := .secondElse { hops := 0, segments := ["member"] }
              { offset := 0, line := 1, column := 1 }
            place := { offset := 40, line := 3, column := 1 } } ∧
      ∃ before token later, threeBranches = before ++ token :: later ∧
        token.place? = some { offset := 40, line := 3, column := 1 } ∧
        Token.Completable before ∧ ¬ Token.Completable (before ++ [token]) := by
  refine ⟨rfl, ?_⟩
  rcases @ParseError.at_first_beyond_repair threeBranches _ rfl with fault | unclosed
  · obtain ⟨before, token, later, split, -, placed, completable, hopeless, -⟩ := fault
    exact ⟨before, token, later, split, placed, completable, hopeless⟩
  · obtain ⟨-, before, kind, path, binding, place, divided, body, -, -, other⟩ := unclosed
    cases other

end Stencil
