import Mathlib.Data.List.Basic
import Mathlib.Data.List.TakeWhile
import Stencil.Text.Basic
import Stencil.Text.Identifier

/-!
# Trimming

Trimming takes off the blanks at both ends of a text and nothing else.  What is added there is
taken off again, and a visible character keeps all that stands on its other side.  No character of
an identifier is blank.
-/

namespace Stencil.Text

theorem Ranges.holds_of_contains {ranges : Ranges} {code : Nat} (found : ranges.contains code) :
    ranges.Holds code := by
  induction ranges with
  | nil => simp [contains] at found
  | cons range rest induction =>
      obtain ⟨low, high⟩ := range
      rw [contains] at found
      split at found
      · cases found
      · rename_i above
        split at found
        · rename_i below
          exact ⟨(low, high), List.mem_cons_self, Nat.le_of_not_lt above, below⟩
        · obtain ⟨range, member, bounds⟩ := induction found
          exact ⟨range, List.mem_cons_of_mem _ member, bounds⟩

/-- No blank character is a letter or a number. -/
theorem contains_alphanumericRanges_of_blank :
    ∀ range ∈ blankRanges, ∀ offset < 11, range.1 + offset ≤ range.2 →
      alphanumericRanges.contains (range.1 + offset) = false := by
  decide +kernel

theorem isBlank_of_isIdentifierChar {character : Char} (identifier : isIdentifierChar character) :
    isBlank character = false := by
  rw [Bool.eq_false_iff]
  intro blank
  obtain ⟨range, member, low, high⟩ := Ranges.holds_of_contains blank
  have narrow : ∀ range ∈ blankRanges, range.2 < range.1 + 11 := by decide
  have absent := contains_alphanumericRanges_of_blank range member (character.toNat - range.1)
    (by have := narrow range member; omega) (by omega)
  rw [Nat.add_sub_cancel' low] at absent
  have special : character = '_' ∨ character = '-' := by
    simpa [isIdentifierChar, isAlphanumeric, absent] using identifier
  rcases special with rfl | rfl <;> exact absurd blank (by decide)

theorem ne_of_isIdentifierChar
    {character : Char} (identifier : isIdentifierChar character) (other : Char)
    (different : isIdentifierChar other = false) :
    character ≠ other := by
  rintro rfl
  rw [identifier] at different
  cases different

theorem isIdentifier_iff {text : List Char} :
    isIdentifier text ↔ text ≠ [] ∧ ∀ character ∈ text, isIdentifierChar character := by
  simp [isIdentifier]

theorem not_mem_of_isIdentifier
    {text : List Char} (identifier : isIdentifier text) (other : Char)
    (different : isIdentifierChar other = false) :
    other ∉ text := by
  obtain ⟨-, each⟩ := isIdentifier_iff.mp identifier
  intro member
  rw [each other member] at different
  cases different

/-- A run of blanks, which may be empty. -/
def Blanks (characters : List Char) : Prop :=
  ∀ character ∈ characters, isBlank character

theorem blanks_nil : Blanks [] := by
  simp [Blanks]

theorem Blanks.append
    {first second : List Char} (before : Blanks first) (behind : Blanks second) :
    Blanks (first ++ second) :=
  List.forall_mem_append.mpr ⟨before, behind⟩

theorem Blanks.reverse {characters : List Char} (blank : Blanks characters) :
    Blanks characters.reverse := by
  intro character member
  exact blank character (List.mem_reverse.mp member)

theorem Blanks.not_mem
    {characters : List Char} (blank : Blanks characters) {character : Char}
    (visible : isBlank character = false) :
    character ∉ characters := by
  intro member
  rw [blank character member] at visible
  cases visible

theorem trimStart_append
    {before : List Char} (blank : Blanks before) (text : List Char) :
    trimStart (before ++ text) = trimStart text :=
  List.dropWhile_append_of_pos blank

theorem trimStart_of_head
    {text : List Char} (head : ∀ character ∈ text.head?, isBlank character = false) :
    trimStart text = text := by
  cases text with
  | nil => rfl
  | cons character rest =>
      rw [trimStart, List.dropWhile_cons_of_neg]
      simpa using head character rfl

theorem exists_blanks_trimStart (text : List Char) :
    ∃ before, Blanks before ∧ text = before ++ trimStart text :=
  ⟨text.takeWhile isBlank, fun _ => List.mem_takeWhile_imp,
    List.takeWhile_append_dropWhile.symm⟩

theorem head_trimStart (text : List Char) :
    ∀ character ∈ (trimStart text).head?, isBlank character = false := by
  intro character head
  have found := List.head?_dropWhile_not isBlank text
  rw [trimStart] at head
  rw [Option.mem_def.mp head] at found
  simpa using found

theorem trimEnd_eq_reverse (text : List Char) :
    trimEnd text = (trimStart text.reverse).reverse := rfl

theorem trimEnd_append
    (text : List Char) {after : List Char} (blank : Blanks after) :
    trimEnd (text ++ after) = trimEnd text := by
  rw [trimEnd_eq_reverse, List.reverse_append, trimStart_append blank.reverse, trimEnd_eq_reverse]

theorem trimEnd_of_blanks {text : List Char} (blank : Blanks text) : trimEnd text = [] :=
  trimEnd_append [] blank

theorem trimEnd_of_last
    {text : List Char} (last : ∀ character ∈ text.getLast?, isBlank character = false) :
    trimEnd text = text := by
  have kept : trimStart text.reverse = text.reverse := by
    apply trimStart_of_head
    rwa [List.head?_reverse]
  rw [trimEnd_eq_reverse, kept, List.reverse_reverse]

theorem exists_blanks_trimEnd (text : List Char) :
    ∃ after, Blanks after ∧ text = trimEnd text ++ after := by
  obtain ⟨before, blank, split⟩ := exists_blanks_trimStart text.reverse
  refine ⟨before.reverse, blank.reverse, ?_⟩
  apply List.reverse_injective
  rw [List.reverse_append, List.reverse_reverse, trimEnd_eq_reverse, List.reverse_reverse]
  exact split

theorem last_trimEnd (text : List Char) :
    ∀ character ∈ (trimEnd text).getLast?, isBlank character = false := by
  rw [trimEnd_eq_reverse, List.getLast?_reverse]
  exact head_trimStart text.reverse

/-- A text that neither starts nor ends with a blank. -/
structure Tight (text : List Char) : Prop where
  head : ∀ character ∈ text.head?, isBlank character = false
  last : ∀ character ∈ text.getLast?, isBlank character = false

theorem tight_of_forall {text : List Char} (each : ∀ character ∈ text, isBlank character = false) :
    Tight text where
  head := fun character head => each character (List.mem_of_mem_head? head)
  last := fun character last => each character (List.mem_of_mem_getLast? last)

theorem tight_of_isIdentifier {text : List Char} (identifier : isIdentifier text) :
    Tight text := by
  obtain ⟨-, each⟩ := isIdentifier_iff.mp identifier
  exact tight_of_forall fun character member => isBlank_of_isIdentifierChar (each character member)

theorem trim_surrounded
    {before after core : List Char} (blankBefore : Blanks before) (blankAfter : Blanks after)
    (tight : Tight core) :
    trim (before ++ core ++ after) = core := by
  rw [trim, List.append_assoc, trimStart_append blankBefore]
  cases core with
  | nil =>
      have none := trimStart_append blankAfter []
      rw [List.append_nil] at none
      rw [List.nil_append, none]
      rfl
  | cons character rest =>
      have kept : trimStart (character :: rest ++ after) = character :: rest ++ after :=
        trimStart_of_head tight.head
      rw [kept, trimEnd_append _ blankAfter, trimEnd_of_last tight.last]

theorem trim_of_tight {text : List Char} (tight : Tight text) : trim text = text := by
  have trimmed := trim_surrounded blanks_nil blanks_nil tight
  rwa [List.nil_append, List.append_nil] at trimmed

theorem tight_trim (text : List Char) : Tight (trim text) where
  head := by
    obtain ⟨after, -, split⟩ := exists_blanks_trimEnd (trimStart text)
    intro character head
    apply head_trimStart text character
    rw [split]
    exact List.mem_head?_append_of_mem_head? head
  last := last_trimEnd (trimStart text)

theorem exists_trim (text : List Char) :
    ∃ before after, Blanks before ∧ Blanks after ∧ text = before ++ trim text ++ after := by
  obtain ⟨before, blankBefore, start⟩ := exists_blanks_trimStart text
  obtain ⟨after, blankAfter, rest⟩ := exists_blanks_trimEnd (trimStart text)
  refine ⟨before, after, blankBefore, blankAfter, ?_⟩
  rw [List.append_assoc, trim, ← rest]
  exact start

theorem trim_padded
    {before after : List Char} (blankBefore : Blanks before) (blankAfter : Blanks after)
    (text : List Char) :
    trim (before ++ text ++ after) = trim text := by
  obtain ⟨first, last, blankFirst, blankLast, split⟩ := exists_trim text
  have whole : before ++ text ++ after = (before ++ first) ++ trim text ++ (last ++ after) := by
    have inside : before ++ text ++ after = before ++ (first ++ trim text ++ last) ++ after := by
      rw [← split]
    rw [inside]
    simp only [List.append_assoc]
  rw [whole]
  exact trim_surrounded (blankBefore.append blankFirst) (blankLast.append blankAfter)
    (tight_trim text)

@[simp] theorem trim_trim (text : List Char) : trim (trim text) = trim text :=
  trim_of_tight (tight_trim text)

@[simp] theorem trim_trimStart (text : List Char) : trim (trimStart text) = trim text := by
  obtain ⟨before, blank, split⟩ := exists_blanks_trimStart text
  have padded := trim_padded blank blanks_nil (trimStart text)
  rwa [List.append_nil, ← split, eq_comm] at padded

@[simp] theorem trim_trimEnd (text : List Char) : trim (trimEnd text) = trim text := by
  obtain ⟨after, blank, split⟩ := exists_blanks_trimEnd text
  have padded := trim_padded blanks_nil blank (trimEnd text)
  rwa [List.nil_append, ← split, eq_comm] at padded

theorem trim_eq_nil_iff {text : List Char} : trim text = [] ↔ Blanks text := by
  constructor
  · intro empty
    obtain ⟨before, after, blankBefore, blankAfter, split⟩ := exists_trim text
    rw [empty, List.append_nil] at split
    rw [split]
    exact blankBefore.append blankAfter
  · intro blank
    have trimmed := trim_padded blank blanks_nil []
    rwa [List.append_nil, List.append_nil] at trimmed

theorem trimStart_visible
    (first rest : List Char) {character : Char} (visible : isBlank character = false) :
    trimStart (first ++ character :: rest) = trimStart first ++ character :: rest := by
  have kept : (character :: rest).dropWhile isBlank = character :: rest := by
    apply trimStart_of_head
    simpa using visible
  rw [trimStart, List.dropWhile_append, kept, trimStart]
  split
  · rename_i empty
    rw [List.isEmpty_iff.mp empty, List.nil_append]
  · rfl

theorem trimEnd_visible
    (first rest : List Char) {character : Char} (visible : isBlank character = false) :
    trimEnd (first ++ character :: rest) = first ++ character :: trimEnd rest := by
  have reversed : (first ++ character :: rest).reverse =
      rest.reverse ++ character :: first.reverse := by simp
  rw [trimEnd_eq_reverse, reversed, trimStart_visible _ _ visible, List.reverse_append,
    List.reverse_cons, List.reverse_reverse, List.append_assoc, trimEnd_eq_reverse]
  rfl

/-- A visible character keeps the blanks around it. -/
theorem trim_visible
    (first rest : List Char) {character : Char} (visible : isBlank character = false) :
    trim (first ++ character :: rest) = trimStart first ++ character :: trimEnd rest := by
  rw [trim, trimStart_visible _ _ visible, trimEnd_visible _ _ visible]

theorem trimEnd_append_visible
    (first : List Char) {second : List Char}
    (visible : ∃ character ∈ second, isBlank character = false) :
    trimEnd (first ++ second) = first ++ trimEnd second := by
  obtain ⟨character, member, notBlank⟩ := visible
  obtain ⟨front, behind, rfl⟩ := List.append_of_mem member
  rw [← List.append_assoc, trimEnd_visible _ _ notBlank, trimEnd_visible _ _ notBlank,
    List.append_assoc]

theorem exists_visible_of_isIdentifier {text : List Char} (identifier : isIdentifier text) :
    ∃ character ∈ text, isBlank character = false := by
  obtain ⟨nonempty, each⟩ := isIdentifier_iff.mp identifier
  obtain ⟨character, member⟩ := List.exists_mem_of_ne_nil _ nonempty
  exact ⟨character, member, isBlank_of_isIdentifierChar (each character member)⟩

theorem head_append_of_isIdentifier
    {text : List Char} (identifier : isIdentifier text) (rest : List Char) :
    ∀ character ∈ (text ++ rest).head?, isIdentifierChar character := by
  obtain ⟨nonempty, each⟩ := isIdentifier_iff.mp identifier
  obtain ⟨first, behind, rfl⟩ := List.exists_cons_of_ne_nil nonempty
  intro character head
  obtain rfl : first = character := by simpa using head
  exact each first List.mem_cons_self

/-- Blanks in front of an identifier are taken off. -/
theorem trimStart_identifier
    {before text : List Char} (blank : Blanks before) (identifier : isIdentifier text)
    (rest : List Char) :
    trimStart (before ++ (text ++ rest)) = text ++ rest := by
  rw [trimStart_append blank]
  apply trimStart_of_head
  intro character head
  exact isBlank_of_isIdentifierChar (head_append_of_isIdentifier identifier rest character head)

/-- An identifier keeps all that stands in front of it. -/
theorem trimEnd_identifier
    (before : List Char) {text : List Char} (identifier : isIdentifier text) (rest : List Char) :
    trimEnd (before ++ (text ++ rest)) = before ++ (text ++ trimEnd rest) := by
  obtain ⟨nonempty, each⟩ := isIdentifier_iff.mp identifier
  obtain ⟨front, last, rfl⟩ : ∃ front last, text = front ++ [last] :=
    ⟨text.dropLast, text.getLast nonempty, (List.dropLast_append_getLast nonempty).symm⟩
  have visible := isBlank_of_isIdentifierChar (each last (by simp))
  have kept := trimEnd_visible (before ++ front) rest visible
  simpa using kept

theorem trim_identifier
    {before text after : List Char} (blankBefore : Blanks before) (identifier : isIdentifier text)
    (blankAfter : Blanks after) :
    trim (before ++ (text ++ after)) = text := by
  rw [← List.append_assoc]
  exact trim_surrounded blankBefore blankAfter (tight_of_isIdentifier identifier)

theorem splitAt_of_not_mem {separator : Char} {piece : List Char} (absent : separator ∉ piece) :
    splitAt separator piece = [piece] := by
  induction piece with
  | nil => rfl
  | cons character rest induction =>
      simp only [List.mem_cons, not_or] at absent
      rw [splitAt, if_neg (Ne.symm absent.1), induction absent.2]

theorem splitAt_append
    {separator : Char} {piece : List Char} (absent : separator ∉ piece) (rest : List Char) :
    splitAt separator (piece ++ separator :: rest) = piece :: splitAt separator rest := by
  induction piece with
  | nil => simp [splitAt]
  | cons character piece induction =>
      simp only [List.mem_cons, not_or] at absent
      rw [List.cons_append, splitAt, if_neg (Ne.symm absent.1), induction absent.2]

theorem splitAt_ne_nil (separator : Char) (characters : List Char) :
    splitAt separator characters ≠ [] := by
  cases characters with
  | nil => simp [splitAt]
  | cons character rest =>
      rw [splitAt]
      split
      · simp
      · split <;> simp

/-- A text is one piece, or it has a first piece. -/
theorem splitAt_cases (separator : Char) (characters : List Char) :
    (separator ∉ characters ∧ splitAt separator characters = [characters]) ∨
      ∃ piece later, separator ∉ piece ∧ characters = piece ++ separator :: later ∧
        splitAt separator characters = piece :: splitAt separator later := by
  by_cases member : separator ∈ characters
  · right
    obtain ⟨piece, later, rfl, absent⟩ := List.eq_append_cons_of_mem member
    exact ⟨piece, later, absent, rfl, splitAt_append absent later⟩
  · exact .inl ⟨member, splitAt_of_not_mem member⟩

end Stencil.Text
