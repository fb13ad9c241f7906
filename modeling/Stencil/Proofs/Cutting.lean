import Stencil.Token.Piece

/-!
# Where a template is cut

A template is cut into runs without opening markers and into directives that end at the first
closing marker.  This pins the pieces down: a sequence of pieces that are cut well is the one that
the text they cover is cut into.
-/

namespace Stencil

namespace Marker

/-- No directive starts in the text. -/
def Plain (characters : List Char) : Prop :=
  ∀ marker : Marker, ¬ marker.opener <:+: characters

/-- The closing marker behind a text is the first one. -/
def ClosesAfter (marker : Marker) (inner : List Char) : Prop :=
  ¬ marker.closer <:+: inner ++ marker.closer.dropLast

theorem closer_prefix_iff {marker : Marker} {first second : Char} {rest : List Char} :
    marker.closer <+: first :: second :: rest ↔ [first, second] = marker.closer := by
  cases marker <;> simp [closer, eq_comm]

@[simp] theorem strip?_opener (marker : Marker) (rest : List Char) :
    strip? (marker.opener ++ rest) = some (marker, rest) := by
  cases marker <;> rfl

theorem opener_prefix_of_isSome
    {characters : List Char} (starts : (strip? characters).isSome) :
    ∃ marker : Marker, marker.opener <+: characters := by
  obtain ⟨⟨marker, rest⟩, found⟩ := Option.isSome_iff_exists.mp starts
  exact ⟨marker, rest, (eq_of_strip? found).symm⟩

theorem strip?_eq_none
    {characters : List Char} (none : ∀ marker : Marker, ¬ marker.opener <+: characters) :
    strip? characters = .none := by
  cases found : strip? characters with
  | none => rfl
  | some start =>
      obtain ⟨marker, starts⟩ := opener_prefix_of_isSome (Option.isSome_of_eq_some found)
      exact absurd starts (none marker)

theorem plain_nil : Plain [] := by
  intro marker inside
  cases marker <;> simp [opener] at inside

theorem Plain.tail {character : Char} {rest : List Char} (plain : Plain (character :: rest)) :
    Plain rest :=
  fun marker inside => plain marker (List.infix_cons inside)

theorem Plain.cons
    {character : Char} {rest : List Char}
    (here : ∀ marker : Marker, ¬ marker.opener <+: character :: rest) (plain : Plain rest) :
    Plain (character :: rest) := by
  intro marker inside
  rcases List.infix_cons_iff.mp inside with starts | later
  · exact here marker starts
  · exact plain marker later

/-- No directive starts in a run, not even with its last character, if what follows the run is
nothing or does not complete a marker. -/
theorem strip?_append_eq_none
    {character : Char} {run rest : List Char} (plain : Plain (character :: run))
    (seam : rest ≠ [] → (character :: run).getLast? ≠ some '\x7b') :
    strip? (character :: run ++ rest) = none := by
  apply strip?_eq_none
  intro marker starts
  cases run with
  | cons second run =>
      have inside : marker.opener <+: character :: second :: run := by
        apply List.prefix_of_prefix_length_le starts (List.prefix_append _ rest)
        cases marker <;> simp [opener]
      exact plain marker inside.isInfix
  | nil =>
      cases rest with
      | nil => cases marker <;> simp [opener] at starts
      | cons next rest =>
          have last := seam (by simp)
          cases marker <;> simp [opener] at starts last <;> exact last starts.1.symm

theorem splitAtOpener_append_of_plain
    {run rest : List Char} (plain : Plain run)
    (seam : rest ≠ [] → run.getLast? ≠ some '\x7b')
    (starts : rest = [] ∨ (strip? rest).isSome) :
    splitAtOpener (run ++ rest) = (run, rest) := by
  induction run with
  | nil =>
      cases rest with
      | nil => rfl
      | cons character rest =>
          have opens : (strip? (character :: rest)).isSome := by simpa using starts
          rw [List.nil_append, splitAtOpener, if_pos opens]
  | cons character run induction =>
      have inside := strip?_append_eq_none plain seam
      have later : rest ≠ [] → run.getLast? ≠ some '\x7b' := by
        intro more
        have last := seam more
        cases run with
        | nil => simp
        | cons second run => simpa using last
      rw [List.cons_append] at inside ⊢
      rw [splitAtOpener, inside, induction plain.tail later]
      simp

theorem plain_splitAtOpener (characters : List Char) :
    Plain (splitAtOpener characters).1 := by
  induction characters with
  | nil => exact plain_nil
  | cons character rest induction =>
      unfold splitAtOpener
      split
      · exact plain_nil
      · rename_i stays
        refine Plain.cons ?_ induction
        intro marker starts
        have whole := splitAtOpener_append rest
        obtain ⟨behind, same⟩ := starts
        apply stays
        have opened : character :: rest =
            marker.opener ++ (behind ++ (splitAtOpener rest).2) := by
          rw [← List.append_assoc, same, List.cons_append, whole]
        rw [opened, strip?_opener]
        rfl

theorem strip?_splitAtOpener (characters : List Char) :
    (splitAtOpener characters).2 = [] ∨ (strip? (splitAtOpener characters).2).isSome := by
  induction characters with
  | nil => exact .inl rfl
  | cons character rest induction =>
      unfold splitAtOpener
      split
      · rename_i starts
        exact .inr starts
      · exact induction

/-- An opening marker that follows a brace would start with that brace. -/
theorem strip?_brace_append
    {rest : List Char} (starts : (strip? rest).isSome) :
    (strip? ('\x7b' :: rest)).isSome := by
  obtain ⟨marker, behind, rfl⟩ := opener_prefix_of_isSome starts
  cases marker <;> rfl

theorem getLast?_splitAtOpener
    (characters : List Char) (more : (splitAtOpener characters).2 ≠ []) :
    (splitAtOpener characters).1.getLast? ≠ some '\x7b' := by
  induction characters with
  | nil => simp [splitAtOpener]
  | cons character rest induction =>
      unfold splitAtOpener at more ⊢
      split
      · simp
      · rename_i stays
        rw [if_neg stays] at more
        have later := induction more
        have whole := splitAtOpener_append rest
        have starts := (strip?_splitAtOpener rest).resolve_left more
        show (character :: (splitAtOpener rest).1).getLast? ≠ some '\x7b'
        cases before : (splitAtOpener rest).1 with
        | nil =>
            rw [before, List.nil_append] at whole
            rw [whole] at starts
            intro brace
            simp only [List.getLast?_singleton, Option.some.injEq] at brace
            exact stays (brace ▸ strip?_brace_append starts)
        | cons second run =>
            rw [before] at later
            simpa using later

theorem splitAtCloser_append
    {marker : Marker} {inner : List Char} (closes : marker.ClosesAfter inner)
    (rest : List Char) :
    marker.splitAtCloser (inner ++ marker.closer ++ rest) = some (inner, rest) := by
  induction inner with
  | nil => cases marker <;> rfl
  | cons character inner induction =>
      have later : marker.ClosesAfter inner :=
        fun inside => closes (List.infix_cons inside)
      have further := induction later
      cases behind : inner ++ marker.closer ++ rest with
      | nil => cases marker <;> simp [closer] at behind
      | cons second remaining =>
          have differs : [character, second] ≠ marker.closer := by
            intro closed
            apply closes
            show marker.closer <:+: character :: inner ++ marker.closer.dropLast
            apply List.IsPrefix.isInfix
            rw [← closed]
            cases inner with
            | nil => cases marker <;> simp_all [closer]
            | cons third inner =>
                simp only [List.cons_append, List.cons.injEq] at behind
                simp [behind.1]
          rw [behind] at further
          rw [List.cons_append, List.cons_append, behind, splitAtCloser, if_neg differs, further]

theorem closesAfter_of_splitAtCloser
    {marker : Marker} {characters inner remaining : List Char}
    (found : marker.splitAtCloser characters = some (inner, remaining)) :
    marker.ClosesAfter inner := by
  fun_induction splitAtCloser marker characters generalizing inner remaining with
  | case1 => simp at found
  | case2 => simp at found
  | case3 first second rest closes =>
      simp only [Option.some.injEq, Prod.mk.injEq] at found
      obtain ⟨rfl, rfl⟩ := found
      intro inside
      have length := inside.length_le
      cases marker <;> simp [closer] at length
  | case4 => simp at found
  | case5 first second rest stays tailInner tailRemaining split induction =>
      simp only [Option.some.injEq, Prod.mk.injEq] at found
      obtain ⟨rfl, rfl⟩ := found
      have whole := eq_of_splitAtCloser split
      intro inside
      rcases List.infix_cons_iff.mp inside with starts | later
      · apply stays
        have covered : first :: (tailInner ++ marker.closer.dropLast) <+:
            first :: second :: rest := by
          rw [whole, List.append_assoc, List.cons_prefix_cons, List.prefix_append_right_inj]
          exact ⟨rfl, (List.dropLast_prefix _).trans (List.prefix_append _ _)⟩
        exact closer_prefix_iff.mp (starts.trans covered)
      · exact induction split later

theorem splitAtCloser_eq_none_iff {marker : Marker} {characters : List Char} :
    marker.splitAtCloser characters = none ↔ ¬ marker.closer <:+: characters := by
  constructor
  · intro none inside
    fun_induction splitAtCloser marker characters with
    | case1 => cases marker <;> simp [closer] at inside
    | case2 => cases marker <;> simp [closer, List.infix_cons_iff] at inside
    | case3 => cases none
    | case4 first second rest stays split induction =>
        rcases List.infix_cons_iff.mp inside with starts | later
        · exact stays (closer_prefix_iff.mp starts)
        · exact induction split later
    | case5 => cases none
  · intro absent
    cases found : marker.splitAtCloser characters with
    | none => rfl
    | some split =>
        obtain ⟨inner, remaining⟩ := split
        exact absurd ⟨inner, remaining, (eq_of_splitAtCloser found).symm⟩ absent

end Marker

namespace Piece

def IsText : Piece → Prop
  | .text _ => True
  | _ => False

/-- Pieces that a text is cut into. -/
inductive WellCut : List Piece → Prop where
  | nil : WellCut []
  | text {run : List Char} {rest : List Piece} (nonempty : run ≠ []) (plain : Marker.Plain run)
      (seam : ∀ next ∈ rest.head?, run.getLast? ≠ some '\x7b' ∧ ¬ next.IsText)
      (later : WellCut rest) :
      WellCut (.text run :: rest)
  | directive {marker : Marker} {inner : List Char} {rest : List Piece}
      (closes : marker.ClosesAfter inner) (later : WellCut rest) :
      WellCut (.directive marker inner :: rest)
  | unclosed {marker : Marker} {inner : List Char} (stays : ¬ marker.closer <:+: inner) :
      WellCut [.unclosed marker inner]

theorem cut_text_append
    {run rest : List Char} (nonempty : run ≠ []) (plain : Marker.Plain run)
    (seam : rest ≠ [] → run.getLast? ≠ some '\x7b')
    (starts : rest = [] ∨ (Marker.strip? rest).isSome) :
    cut (run ++ rest) = .text run :: cut rest := by
  cases run with
  | nil => exact absurd rfl nonempty
  | cons character run =>
      have here := Marker.strip?_append_eq_none plain seam
      have whole := Marker.splitAtOpener_append_of_plain plain seam starts
      rw [List.cons_append] at here whole ⊢
      rw [Marker.splitAtOpener, here] at whole
      have first_ : first character (run ++ rest) = (.text (character :: run), rest) := by
        simp only [first, here]
        simpa using whole
      rw [cut, first_]

theorem first_opener (marker : Marker) (inside : List Char) :
    ∃ character behind, marker.opener ++ inside = character :: behind ∧
      first character behind =
        match marker.splitAtCloser inside with
        | none => (.unclosed marker inside, [])
        | some (inner, remaining) => (.directive marker inner, remaining) := by
  cases marker <;> exact ⟨_, _, rfl, rfl⟩

theorem cut_directive_append
    {marker : Marker} {inner : List Char} (closes : marker.ClosesAfter inner)
    (rest : List Char) :
    cut ((directive marker inner).source ++ rest) = .directive marker inner :: cut rest := by
  obtain ⟨character, behind, opened, first_⟩ :=
    first_opener marker (inner ++ marker.closer ++ rest)
  rw [Marker.splitAtCloser_append closes] at first_
  have whole : (directive marker inner).source ++ rest = character :: behind := by
    simp [source, ← opened]
  rw [whole, cut, first_]

theorem cut_unclosed
    {marker : Marker} {inner : List Char} (stays : ¬ marker.closer <:+: inner) :
    cut (unclosed marker inner).source = [.unclosed marker inner] := by
  obtain ⟨character, behind, opened, first_⟩ := first_opener marker inner
  rw [Marker.splitAtCloser_eq_none_iff.mpr stays] at first_
  rw [source, opened, cut, first_, cut]

theorem starts_of_not_isText
    {pieces : List Piece} (directive : ∀ next ∈ pieces.head?, ¬ next.IsText) :
    pieces.flatMap source = [] ∨ (Marker.strip? (pieces.flatMap source)).isSome := by
  cases pieces with
  | nil => exact .inl rfl
  | cons piece rest =>
      right
      have notText := directive piece rfl
      cases piece with
      | text run => exact absurd trivial notText
      | directive marker inner => simp [source]
      | unclosed marker inner => simp [source]

/-- Pieces that are cut well are found again in the text they cover. -/
theorem WellCut.cut_eq {pieces : List Piece} (wellCut : WellCut pieces) :
    cut (pieces.flatMap source) = pieces := by
  induction wellCut with
  | nil => simp [cut]
  | @text run rest nonempty plain seam _ induction =>
      have starts := starts_of_not_isText fun next head => (seam next head).2
      have noBrace : rest.flatMap source ≠ [] → run.getLast? ≠ some '\x7b' := by
        intro more
        cases rest with
        | nil => exact absurd rfl more
        | cons next rest => exact (seam next rfl).1
      rw [List.flatMap_cons, source, cut_text_append nonempty plain noBrace starts, induction]
  | directive closes _ induction =>
      rw [List.flatMap_cons, cut_directive_append closes, induction]
  | unclosed stays =>
      rw [List.flatMap_singleton, cut_unclosed stays]

theorem not_isText_of_starts
    {characters : List Char} (starts : (Marker.strip? characters).isSome) :
    ∀ next ∈ (cut characters).head?, ¬ next.IsText := by
  intro next head
  cases characters with
  | nil => simp [Marker.strip?] at starts
  | cons character rest =>
      rw [cut, List.head?_cons, Option.mem_some_iff] at head
      subst head
      obtain ⟨⟨marker, inside⟩, found⟩ := Option.isSome_iff_exists.mp starts
      simp only [first, found]
      cases marker.splitAtCloser inside <;> simp [IsText]

theorem wellCut_cut (characters : List Char) : WellCut (cut characters) := by
  fun_induction cut characters with
  | case1 => exact .nil
  | case2 character rest induction =>
      unfold first at induction ⊢
      cases found : Marker.strip? (character :: rest) with
      | none =>
          rw [found] at induction
          have split : Marker.splitAtOpener (character :: rest) =
              (character :: (Marker.splitAtOpener rest).1, (Marker.splitAtOpener rest).2) := by
            rw [Marker.splitAtOpener, found]
            rfl
          have plain := Marker.plain_splitAtOpener (character :: rest)
          have noBrace := Marker.getLast?_splitAtOpener (character :: rest)
          have starts := Marker.strip?_splitAtOpener rest
          rw [split] at plain noBrace
          refine .text (List.cons_ne_nil _ _) plain ?_ induction
          intro next head
          have more : (Marker.splitAtOpener rest).2 ≠ [] := by
            intro none
            rw [none, cut] at head
            cases head
          exact ⟨noBrace more, not_isText_of_starts (starts.resolve_left more) next head⟩
      | some start =>
          obtain ⟨marker, inside⟩ := start
          simp only [found] at induction ⊢
          cases closed : marker.splitAtCloser inside with
          | none =>
              simp only [cut]
              exact .unclosed (Marker.splitAtCloser_eq_none_iff.mp closed)
          | some split =>
              rw [closed] at induction
              exact .directive (Marker.closesAfter_of_splitAtCloser closed) induction

/-- A text is cut into the pieces that cover it and are cut well. -/
theorem cut_eq_iff {characters : List Char} {pieces : List Piece} :
    cut characters = pieces ↔ WellCut pieces ∧ pieces.flatMap source = characters := by
  constructor
  · rintro rfl
    exact ⟨wellCut_cut characters, cut_source characters⟩
  · rintro ⟨wellCut, rfl⟩
    exact wellCut.cut_eq

def IsClosed : Piece → Prop
  | .unclosed _ _ => False
  | _ => True

/-- The first pieces can stand in front of the second ones: a run at their end is complete. -/
def Meets (first second : List Piece) : Prop :=
  ∀ run, first.getLast? = some (.text run) →
    ∀ next ∈ second.head?, run.getLast? ≠ some '\x7b' ∧ ¬ next.IsText

theorem meets_cons_cons_iff {piece next : Piece} {first second : List Piece} :
    Meets (piece :: next :: first) second ↔ Meets (next :: first) second := by
  simp [Meets, List.getLast?_cons_cons]

theorem Meets.tail
    {piece : Piece} {first second : List Piece} (meets : Meets (piece :: first) second) :
    Meets first second := by
  cases first with
  | nil =>
      intro run last
      cases last
  | cons next rest => exact meets_cons_cons_iff.mp meets

theorem Meets.behind_directive
    {first second : List Piece} (meets : Meets first second) (marker : Marker)
    (inner : List Char) :
    Meets (directive marker inner :: first) second := by
  cases first with
  | nil =>
      intro run last
      cases last
  | cons next rest => exact meets_cons_cons_iff.mpr meets

/-- Only the seam between two sequences of pieces has to be looked at. -/
theorem WellCut.append
    {first second : List Piece} (firstCut : WellCut first)
    (closed : ∀ piece ∈ first, piece.IsClosed) (meets : Meets first second)
    (secondCut : WellCut second) :
    WellCut (first ++ second) := by
  induction firstCut with
  | nil => exact secondCut
  | @text run rest nonempty plain seam _ induction =>
      have others := (List.forall_mem_cons.mp closed).2
      refine .text nonempty plain ?_ (induction others meets.tail)
      cases rest with
      | nil => exact meets run rfl
      | cons next rest => exact seam
  | directive closes _ induction =>
      have others := (List.forall_mem_cons.mp closed).2
      exact .directive closes (induction others meets.tail)
  | unclosed _ => exact (List.forall_mem_cons.mp closed).1.elim

theorem WellCut.of_append
    {first second : List Piece} (wellCut : WellCut (first ++ second)) (more : second ≠ []) :
    WellCut first ∧ (∀ piece ∈ first, piece.IsClosed) ∧ Meets first second ∧ WellCut second := by
  induction first with
  | nil => exact ⟨.nil, by simp, by simp [Meets], wellCut⟩
  | cons piece rest induction =>
      rw [List.cons_append] at wellCut
      generalize behind : rest ++ second = tail at wellCut
      cases wellCut with
      | text nonempty plain seam later =>
          subst behind
          obtain ⟨restCut, closed, meets, secondCut⟩ := induction later
          cases rest with
          | nil =>
              refine ⟨.text nonempty plain (by simp) .nil, by simp [IsClosed], ?_, secondCut⟩
              intro run last
              cases last
              exact seam
          | cons next rest =>
              exact ⟨.text nonempty plain seam restCut,
                List.forall_mem_cons.mpr ⟨trivial, closed⟩, meets_cons_cons_iff.mpr meets,
                secondCut⟩
      | directive closes later =>
          subst behind
          obtain ⟨restCut, closed, meets, secondCut⟩ := induction later
          exact ⟨.directive closes restCut, List.forall_mem_cons.mpr ⟨trivial, closed⟩,
            meets.behind_directive _ _, secondCut⟩
      | unclosed stays => exact absurd (List.append_eq_nil_iff.mp behind).2 more

end Piece

end Stencil
