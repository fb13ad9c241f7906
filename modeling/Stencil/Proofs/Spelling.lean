import Stencil.Proofs.Cutting
import Stencil.Proofs.Grammar

/-!
# How directives are written

Each directive has a canonical written form: one blank behind the opening marker and before the
closing one, and one between its parts.  That form is one of those that spell the directive, so
reading it gives the directive back, and what is read is always a directive that has such a form.
-/

namespace Stencil

/-- A path that can be written: it has segments, and each of them is an identifier. -/
def Path.IsCanonical (path : Path) : Prop :=
  path.segments ≠ [] ∧ ∀ segment ∈ path.segments, Text.isIdentifier segment.toList

namespace Path

theorem hops_writtenHops (hops : Nat) : Hops hops (writtenHops hops).toList := by
  induction hops with
  | zero => exact .none
  | succ hops induction =>
      have spelled := Hops.hop Text.blanks_nil induction
      simpa [writtenHops] using spelled

theorem names_dotted
    {first : String} {rest : List String}
    (identifiers : ∀ segment ∈ first :: rest, Text.isIdentifier segment.toList) :
    Names (first :: rest) (first.toList ++ (dotted rest).toList) := by
  induction rest generalizing first with
  | nil =>
      have spelled := Names.last Text.blanks_nil (identifiers first List.mem_cons_self)
        Text.blanks_nil
      simpa [dotted] using spelled
  | cons second rest induction =>
      obtain ⟨identifier, others⟩ := List.forall_mem_cons.mp identifiers
      have spelled := Names.more Text.blanks_nil identifier Text.blanks_nil (induction others)
      simpa [dotted] using spelled

/-- A path is spelled by its written form. -/
theorem IsCanonical.spelled {path : Path} (canonical : path.IsCanonical) :
    path.Spelled path.text.toList := by
  obtain ⟨hops, segments⟩ := path
  obtain ⟨nonempty, identifiers⟩ := canonical
  obtain ⟨first, rest, rfl⟩ := List.exists_cons_of_ne_nil nonempty
  cases hops with
  | zero =>
      have spelled := @Spelled.intro { hops := 0, segments := first :: rest } _ _ _ _
        Text.blanks_nil .none (.inr rfl) (names_dotted identifiers)
      simpa [text, write, dotted] using spelled
  | succ hops =>
      have spelled := @Spelled.intro { hops := hops + 1, segments := first :: rest } _ _ _ _
        Text.blanks_nil (hops_writtenHops (hops + 1)) (.inl rfl) (names_dotted identifiers)
      simpa [text, write] using spelled

theorem Names.ne_nil {names : List String} {characters : List Char}
    (spelled : Names names characters) : names ≠ [] := by
  cases spelled <;> simp

theorem Spelled.isCanonical
    {path : Path} {characters : List Char} (spelled : path.Spelled characters) :
    path.IsCanonical := by
  cases spelled with
  | intro _ _ _ namesSpelled => exact ⟨namesSpelled.ne_nil, namesSpelled.isIdentifier⟩

theorem Spelled.padded
    {path : Path} {characters before after : List Char} (spelled : path.Spelled characters)
    (blankBefore : Text.Blanks before) (blankAfter : Text.Blanks after) :
    path.Spelled (before ++ characters ++ after) := by
  rw [← Directive.readPath_eq_ok_iff,
    Directive.readPath_congr (Text.trim_padded blankBefore blankAfter characters)]
  exact Directive.readPath_of_spelled spelled

end Path

namespace Directive

/-- A directive that can be written. -/
def IsCanonical : Directive → Prop
  | .variable path _ => path.IsCanonical
  | .loop path binding => path.IsCanonical ∧ IsBinding binding
  | .conditional path => path.IsCanonical
  | .otherwise => True
  | .close _ => True

def marker : Directive → Marker
  | .variable _ _ => .value
  | _ => .block

def inner : Directive → String
  | .variable path false => " " ++ path.text ++ " "
  | .variable path true => "! " ++ path.text ++ " "
  | .loop path binding => " for " ++ path.text ++ " |" ++ binding ++ "| "
  | .conditional path => " if " ++ path.text ++ " "
  | .otherwise => " else "
  | .close kind => " end" ++ kind.keyword ++ " "

theorem blanks_space : Text.Blanks [' '] := by
  intro character member
  obtain rfl := List.mem_singleton.mp member
  decide

/-- A path between two blanks. -/
theorem behind_spaced {path : Path} (canonical : path.IsCanonical) :
    Behind path (' ' :: (path.text.toList ++ [' '])) where
  spelled := canonical.spelled.padded blanks_space blanks_space
  apart := ⟨' ', _, rfl, .inl (by decide)⟩

/-- A directive is spelled by its written form. -/
theorem IsCanonical.spelled {directive : Directive} (canonical : directive.IsCanonical) :
    directive.Spelled directive.marker directive.inner.toList := by
  cases directive with
  | «variable» path raw =>
      have spaced := (behind_spaced canonical).spelled
      cases raw with
      | true => simpa [inner, marker] using Spelled.raw Text.blanks_nil spaced
      | false => simpa [inner, marker] using Spelled.escaped spaced
  | loop path binding =>
      obtain ⟨written, named⟩ := canonical
      have barred := Barred.intro Text.blanks_nil named Text.blanks_nil blanks_space
      have spelled := Spelled.loop blanks_space (behind_spaced written) barred
      simpa [inner, marker] using spelled
  | conditional path =>
      have spelled := Spelled.conditional blanks_space (behind_spaced canonical)
      simpa [inner, marker] using spelled
  | otherwise => simpa [inner, marker] using Spelled.otherwise blanks_space blanks_space
  | close kind =>
      cases kind with
      | loop =>
          simpa [inner, marker, BlockKind.keyword] using
            Spelled.closeLoop blanks_space blanks_space
      | conditional =>
          simpa [inner, marker, BlockKind.keyword] using
            Spelled.closeConditional blanks_space blanks_space

theorem read_inner {directive : Directive} (canonical : directive.IsCanonical) :
    directive.marker.read directive.inner.toList = .ok directive :=
  read_eq_ok_iff.mpr canonical.spelled

theorem brace_not_mem_inner {directive : Directive} (canonical : directive.IsCanonical) :
    '\x7d' ∉ directive.inner.toList := by
  have foreign : ¬ Path.MayHold '\x7d' := by
    unfold Path.MayHold Path.IsCharacter
    decide
  have pathFree {path : Path} (written : path.IsCanonical) : '\x7d' ∉ path.text.toList :=
    not_mem_of_spelled written.spelled foreign
  cases directive with
  | «variable» path raw => cases raw <;> simp [inner, pathFree canonical]
  | loop path binding =>
      have bindingFree := Text.not_mem_of_isIdentifier canonical.2.1 '\x7d' (by decide)
      simp [inner, pathFree canonical.1, bindingFree]
  | conditional path => simp [inner, pathFree canonical]
  | otherwise => decide
  | close kind => cases kind <;> decide

end Directive

/-- A text without a closing brace ends before the first closing marker. -/
theorem Marker.closesAfter_of_not_mem
    {inner : List Char} (absent : '\x7d' ∉ inner) (marker : Marker) :
    marker.ClosesAfter inner := by
  intro inside
  have count := inside.sublist.count_le '\x7d'
  rw [List.count_append, List.count_eq_zero_of_not_mem absent] at count
  cases marker <;> simp [closer] at count

namespace Directive

theorem Spelled.marker_eq
    {marker : Marker} {inner : List Char} {found : Directive}
    (spelled : found.Spelled marker inner) :
    found.marker = marker := by
  cases spelled <;> rfl

theorem Spelled.isCanonical
    {marker : Marker} {inner : List Char} {found : Directive}
    (spelled : found.Spelled marker inner) :
    found.IsCanonical := by
  cases spelled with
  | escaped path => exact path.isCanonical
  | raw _ path => exact path.isCanonical
  | loop _ behind barred =>
      cases barred with
      | intro _ binding _ _ => exact ⟨behind.spelled.isCanonical, binding⟩
  | conditional _ behind => exact behind.spelled.isCanonical
  | otherwise | closeLoop | closeConditional => trivial

/-- Whatever a directive was written like, it has a canonical form. -/
theorem isCanonical_of_read
    {marker : Marker} {inner : List Char} {found : Directive}
    (read : marker.read inner = .ok found) :
    found.IsCanonical :=
  (read_eq_ok_iff.mp read).isCanonical

end Directive

end Stencil
