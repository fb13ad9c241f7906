import Stencil.Directive

/-!
# Cutting a template into pieces

A template is cut at its markers.  A directive runs from an opening marker to the first closing
marker of its kind behind it; what is between two directives is text.  The pieces cover the
template: written one after the other they give it back.
-/

namespace Stencil

/-- The two kinds of markers. -/
inductive Marker where
  /-- Surrounds a path whose value is written. -/
  | value
  /-- Surrounds a block directive. -/
  | block
  deriving DecidableEq, Repr

namespace Marker

def opener : Marker → List Char
  | .value => ['\x7b', '\x7b']
  | .block => ['\x7b', '%']

def closer : Marker → List Char
  | .value => ['\x7d', '\x7d']
  | .block => ['%', '\x7d']

/-- The marker a text starts with, and what follows it. -/
def strip? : List Char → Option (Marker × List Char)
  | '\x7b' :: '\x7b' :: rest => some (.value, rest)
  | '\x7b' :: '%' :: rest => some (.block, rest)
  | _ => none

def splitAtCloser (marker : Marker) : List Char → Option (List Char × List Char)
  | [] => none
  | [_] => none
  | first :: second :: rest =>
      if [first, second] = marker.closer then some ([], rest)
      else
        match splitAtCloser marker (second :: rest) with
        | none => none
        | some (inner, remaining) => some (first :: inner, remaining)

def splitAtOpener : List Char → List Char × List Char
  | [] => ([], [])
  | character :: rest =>
      if (strip? (character :: rest)).isSome then ([], character :: rest)
      else
        let (before, remaining) := splitAtOpener rest
        (character :: before, remaining)

end Marker

/-- A part of a template. -/
inductive Piece where
  /-- A run without opening markers. -/
  | text (characters : List Char)
  /-- What stands between an opening marker and the closing marker that belongs to it. -/
  | directive (marker : Marker) (inner : List Char)
  /-- What follows an opening marker that no closing marker belongs to. -/
  | unclosed (marker : Marker) (inner : List Char)
  deriving DecidableEq, Repr

namespace Piece

def source : Piece → List Char
  | .text characters => characters
  | .directive marker inner => marker.opener ++ inner ++ marker.closer
  | .unclosed marker inner => marker.opener ++ inner

/-- Cuts off the first piece of a text that is not empty. -/
def first (character : Char) (rest : List Char) : Piece × List Char :=
  match Marker.strip? (character :: rest) with
  | none =>
      let (before, remaining) := Marker.splitAtOpener rest
      (.text (character :: before), remaining)
  | some (marker, inside) =>
      match marker.splitAtCloser inside with
      | none => (.unclosed marker inside, [])
      | some (inner, remaining) => (.directive marker inner, remaining)

end Piece

theorem Marker.eq_of_strip? {characters rest : List Char} {marker : Marker}
    (found : Marker.strip? characters = some (marker, rest)) :
    characters = marker.opener ++ rest := by
  unfold Marker.strip? at found
  split at found <;> simp_all [Marker.opener]
  all_goals
    obtain ⟨rfl, rfl⟩ := found
    simp

theorem Marker.eq_of_splitAtCloser {marker : Marker} {characters inner remaining : List Char}
    (found : marker.splitAtCloser characters = some (inner, remaining)) :
    characters = inner ++ marker.closer ++ remaining := by
  fun_induction Marker.splitAtCloser marker characters generalizing inner remaining with
  | case1 => simp at found
  | case2 => simp at found
  | case3 first second rest closes =>
      simp only [Option.some.injEq, Prod.mk.injEq] at found
      obtain ⟨rfl, rfl⟩ := found
      simp [← closes]
  | case4 => simp at found
  | case5 first second rest _ tailInner tailRemaining split ih =>
      simp only [Option.some.injEq, Prod.mk.injEq] at found
      obtain ⟨rfl, rfl⟩ := found
      simp [ih split]

theorem Marker.splitAtOpener_append (characters : List Char) :
    (Marker.splitAtOpener characters).1 ++ (Marker.splitAtOpener characters).2 = characters := by
  induction characters with
  | nil => rfl
  | cons character rest ih =>
      unfold Marker.splitAtOpener
      split
      · rfl
      · simpa using ih

/-- The first piece and what remains make up the text. -/
theorem Piece.first_source (character : Char) (rest : List Char) :
    (Piece.first character rest).1.source ++ (Piece.first character rest).2 =
      character :: rest := by
  unfold Piece.first
  split
  · simpa [Piece.source] using Marker.splitAtOpener_append rest
  · rename_i marker inside found
    have whole := Marker.eq_of_strip? found
    split
    · simp [Piece.source, whole]
    · rename_i inner remaining closed
      simp [Piece.source, whole, Marker.eq_of_splitAtCloser closed]

theorem Piece.source_first_ne_nil (character : Char) (rest : List Char) :
    (Piece.first character rest).1.source ≠ [] := by
  unfold Piece.first
  split
  · simp [Piece.source]
  · rename_i marker inside found
    split <;> cases marker <;> simp [Piece.source, Marker.opener]

theorem Piece.length_first_lt (character : Char) (rest : List Char) :
    (Piece.first character rest).2.length < (character :: rest).length := by
  have whole := congrArg List.length (Piece.first_source character rest)
  have nonempty := List.length_pos_iff.mpr (Piece.source_first_ne_nil character rest)
  simp only [List.length_append] at whole
  omega

def Piece.cut (characters : List Char) : List Piece :=
  match characters with
  | [] => []
  | character :: rest =>
      (Piece.first character rest).1 :: Piece.cut (Piece.first character rest).2
termination_by characters.length
decreasing_by exact Piece.length_first_lt character rest

theorem Piece.cut_source (characters : List Char) :
    (Piece.cut characters).flatMap Piece.source = characters := by
  fun_induction Piece.cut characters with
  | case1 => rfl
  | case2 character rest ih =>
      rw [List.flatMap_cons, ih]
      exact Piece.first_source character rest

end Stencil
