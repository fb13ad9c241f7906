import Stencil.Proofs.Spans

/-!
# Where directives stand

Tokens, faults of directives and blocks out of balance come with places.  Each of these places is
that of an opening marker of the template, with the bytes, the line feeds and the characters in
front of it counted over the template as a whole.
-/

namespace Stencil

/-- The place of an opening marker of a template. -/
def Position.Opens (source : String) (place : Position) : Prop :=
  ∃ (before later : List Char) (marker : Marker),
    source.toList = before ++ (marker.opener ++ later) ∧ place = .behind before

theorem Position.offset_behind_append (first second : List Char) :
    (behind (first ++ second)).offset =
      (behind first).offset + (String.ofList second).utf8ByteSize := by
  simp [behind, String.ofList_append, String.utf8ByteSize_append]

namespace Token

/-- The place of a token of a directive. -/
def place? : Token → Option Position
  | .text _ => none
  | .variable _ _ place => some place
  | .opening _ _ _ place => some place
  | .otherwise place => some place
  | .closing _ place => some place

theorem place?_directive (found : Directive) (place : Position) :
    (found.token place).place? = some place := by
  cases found <;> rfl

/-- The places of tokens are those of opening markers in the text that the tokens cover. -/
theorem Cover.exists_opener
    {before later : List Char} {tokens : List Token} (cover : Cover before tokens later)
    {place : Position} (placed : place ∈ tokens.filterMap place?) :
    ∃ (skipped behind : List Char) (marker : Marker),
      later = skipped ++ (marker.opener ++ behind) ∧ place = .behind (before ++ skipped) := by
  induction cover with
  | nil => simp at placed
  | @text before later content rest _ _ _ _ induction =>
      obtain ⟨skipped, behind, marker, rfl, rfl⟩ := induction placed
      exact ⟨content.toList ++ skipped, behind, marker, by simp, by simp⟩
  | @directive before inner later found rest _ _ _ induction =>
      rw [List.filterMap_cons_some (place?_directive found _)] at placed
      rcases List.mem_cons.mp placed with rfl | further
      · exact ⟨[], inner ++ found.marker.closer ++ later, found.marker, by simp, by simp⟩
      · obtain ⟨skipped, behind, marker, rfl, rfl⟩ := induction further
        exact ⟨found.marker.opener ++ inner ++ found.marker.closer ++ skipped, behind, marker,
          by simp, by simp⟩

theorem Cover.offset_le
    {before later : List Char} {tokens : List Token} (cover : Cover before tokens later)
    {place : Position} (placed : place ∈ tokens.filterMap place?) :
    (Position.behind before).offset ≤ place.offset := by
  obtain ⟨skipped, _, _, _, rfl⟩ := cover.exists_opener placed
  rw [Position.offset_behind_append]
  exact Nat.le_add_right _ _

theorem Cover.offsets_increase
    {before later : List Char} {tokens : List Token} (cover : Cover before tokens later) :
    (tokens.filterMap place?).Pairwise fun earlier later => earlier.offset < later.offset := by
  induction cover with
  | nil => exact .nil
  | text _ _ _ _ induction => exact induction
  | @directive before inner later found rest _ _ cover induction =>
      rw [List.filterMap_cons_some (place?_directive found _)]
      refine .cons ?_ induction
      intro place further
      have start := cover.offset_le further
      rw [Position.offset_behind_append] at start
      have width : 0 <
          (String.ofList (found.marker.opener ++ inner ++ found.marker.closer)).utf8ByteSize := by
        rw [Nat.pos_iff_ne_zero, ne_eq, String.utf8ByteSize_eq_zero_iff]
        cases found.marker <;> simp [Marker.opener]
      omega

end Token

/-- Where the block was opened that a token does not fit. -/
def Imbalance.opened? : Imbalance → Option Position
  | .secondElse _ opened => some opened
  | .elseInLoop _ opened => some opened
  | .mismatched _ _ _ opened => some opened
  | .elseOutside => none
  | .unopened _ => none
  | .unclosed _ _ => none

/-- The place of the error, and the other one that its wording names. -/
def ParseError.places (error : ParseError) : List Position :=
  error.place :: error.imbalance.opened?.toList

namespace Builder

/-- The places of the open blocks are as they should be. -/
def Placed (holds : Position → Prop) (builder : Builder) : Prop :=
  ∀ block ∈ builder.blocks, holds block.place

variable {holds : Position → Prop} {builder : Builder}

theorem Placed.append (placed : builder.Placed holds) (node : Node Path) :
    (builder.append node).Placed holds := by
  unfold Builder.append
  split
  · simp [Placed]
  · rename_i block outer blocks
    rw [Placed, blocks] at placed
    obtain ⟨innermost, others⟩ := List.forall_mem_cons.mp placed
    exact List.forall_mem_cons.mpr ⟨innermost, others⟩

theorem Placed.step
    (placed : builder.Placed holds) {token : Token}
    (tokenPlaced : ∀ place ∈ token.place?, holds place) :
    (∀ next, builder.step token = .ok next → next.Placed holds) ∧
      ∀ error, builder.step token = .error error → ∀ place ∈ error.places, holds place := by
  cases token with
  | text content =>
      constructor
      · rintro _ ⟨⟩
        exact placed.append _
      · rintro _ ⟨⟩
  | «variable» path raw place =>
      constructor
      · rintro _ ⟨⟩
        exact placed.append _
      · rintro _ ⟨⟩
  | opening kind path binding place =>
      constructor
      · rintro _ ⟨⟩
        exact List.forall_mem_cons.mpr ⟨tokenPlaced place rfl, placed⟩
      · rintro _ ⟨⟩
  | otherwise place =>
      have here : holds place := tokenPlaced place rfl
      cases blocks : builder.blocks with
      | nil => simp [Builder.step, blocks, ParseError.places, Imbalance.opened?, here]
      | cons block outer =>
          obtain ⟨kind, path, binding, opened, nodes, thenBranch⟩ := block
          rw [Placed, blocks] at placed
          obtain ⟨innermost, others⟩ := List.forall_mem_cons.mp placed
          cases kind <;> cases thenBranch <;>
            simp_all [Builder.step, ParseError.places, Imbalance.opened?, Placed]
  | closing kind place =>
      have here : holds place := tokenPlaced place rfl
      cases blocks : builder.blocks with
      | nil => simp [Builder.step, blocks, ParseError.places, Imbalance.opened?, here]
      | cons block outer =>
          rw [Placed, blocks] at placed
          obtain ⟨innermost, others⟩ := List.forall_mem_cons.mp placed
          have outside : Builder.Placed holds { builder with blocks := outer } := others
          simp only [Builder.step, blocks]
          split
          · constructor
            · rintro _ ⟨⟩
              exact outside.append _
            · rintro _ ⟨⟩
          · constructor
            · rintro _ ⟨⟩
            · rintro _ ⟨⟩
              simp [ParseError.places, Imbalance.opened?, here, innermost]

theorem Placed.steps
    (placed : builder.Placed holds) {tokens : List Token}
    (tokensPlaced : ∀ place ∈ tokens.filterMap Token.place?, holds place) :
    (∀ after, builder.steps tokens = .ok after → after.Placed holds) ∧
      ∀ error, builder.steps tokens = .error error → ∀ place ∈ error.places, holds place := by
  induction tokens generalizing builder with
  | nil =>
      constructor
      · rintro _ ⟨⟩
        exact placed
      · rintro _ ⟨⟩
  | cons token rest induction =>
      have first : ∀ place ∈ token.place?, holds place := by
        intro place here
        exact tokensPlaced place (List.mem_filterMap.mpr ⟨token, List.mem_cons_self, here⟩)
      have others : ∀ place ∈ rest.filterMap Token.place?, holds place := by
        intro place further
        obtain ⟨other, member, there⟩ := List.mem_filterMap.mp further
        exact tokensPlaced place
          (List.mem_filterMap.mpr ⟨other, List.mem_cons_of_mem _ member, there⟩)
      obtain ⟨taken, refused⟩ := placed.step first
      rw [Builder.steps]
      cases step : builder.step token with
      | ok next => exact induction (taken next step) others
      | error error =>
          constructor
          · rintro _ ⟨⟩
          · rintro _ ⟨⟩
            exact refused error step

theorem Placed.finish (placed : builder.Placed holds) :
    ∀ error, builder.finish = .error error → ∀ place ∈ error.places, holds place := by
  intro error unfinished
  unfold Builder.finish at unfinished
  split at unfinished
  · cases unfinished
  · rename_i block outer blocks
    cases unfinished
    have innermost : holds block.place := placed block (by simp [blocks])
    simpa [ParseError.places, Imbalance.opened?] using innermost

end Builder

/-- An error in building tells no places but those of tokens. -/
theorem ParseError.placed_of_ofTokens
    {holds : Position → Prop} {tokens : List Token} {error : ParseError}
    (tokensPlaced : ∀ place ∈ tokens.filterMap Token.place?, holds place)
    (unbalanced : Node.ofTokens tokens = .error error) :
    ∀ place ∈ error.places, holds place := by
  have start : Builder.empty.Placed holds := by simp [Builder.Placed, Builder.empty]
  obtain ⟨taken, refused⟩ := start.steps tokensPlaced
  rw [Node.ofTokens] at unbalanced
  cases steps : Builder.empty.steps tokens with
  | error other =>
      simp only [steps, Except.error.injEq] at unbalanced
      subst unbalanced
      exact refused other steps
  | ok builder =>
      simp only [steps] at unbalanced
      exact (taken builder steps).finish error unbalanced

theorem LexError.Faults.exists_opener
    {error : LexError} {characters : List Char} (faults : error.Faults characters) :
    ∃ (marker : Marker) (later : List Char), characters = marker.opener ++ later := by
  cases faults with
  | unterminated _ => exact ⟨_, _, rfl⟩
  | invalid _ _ => exact ⟨_, _, by rw [List.append_assoc, List.append_assoc]⟩

/-- Directives, faults of directives and blocks out of balance are where opening markers stand,
and directives come in the order of the text. -/
theorem Token.places_of_read (source : String) :
    match Token.read source with
    | .error error => error.place.Opens source
    | .ok tokens =>
        (∀ place ∈ tokens.filterMap place?, place.Opens source) ∧
          ((tokens.filterMap place?).Pairwise fun earlier later =>
            earlier.offset < later.offset) ∧
          ∀ error, Node.ofTokens tokens = .error error →
            ∀ place ∈ error.places, place.Opens source := by
  cases read : Token.read source with
  | error error =>
      obtain ⟨before, behind, rfl, placed, -, faults, -⟩ := exists_of_read_error read
      obtain ⟨marker, later, opened⟩ := faults.exists_opener
      exact ⟨before.toList, later, marker, by rw [String.toList_append, opened], placed⟩
  | ok tokens =>
      have cover := cover_of_read read
      have opens : ∀ place ∈ tokens.filterMap place?, place.Opens source := by
        intro place placed
        obtain ⟨skipped, behind, marker, covered, rfl⟩ := cover.exists_opener placed
        exact ⟨skipped, behind, marker, covered, rfl⟩
      exact ⟨opens, cover.offsets_increase, fun error unbalanced =>
        ParseError.placed_of_ofTokens opens unbalanced⟩

-- The first directive stands behind a letter of two bytes and contains a line feed.
example :
    (Token.read "é\x7b\x7b\n.x\x7d\x7d\x7b\x7b .y \x7d\x7d").map (·.filterMap Token.place?) =
      .ok [{ offset := 2, line := 1, column := 2 }, { offset := 9, line := 2, column := 5 }] := by
  cbv

end Stencil
