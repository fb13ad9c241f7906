import Mathlib.Order.Bounds.Defs
import Stencil.TypeError

/-!
# Edits of texts

A text becomes another one by edits of single characters.  The rows of the distance are compared
with alignments, which go through both texts at once, and these with sequences of edits at any
places: the distance is the least number of edits.
-/

namespace Stencil.Text

/-- One character is inserted, deleted or replaced, at any place of a text. -/
inductive Edit : List Char → List Char → Prop where
  | insert (character : Char) (rest : List Char) : Edit rest (character :: rest)
  | delete (character : Char) (rest : List Char) : Edit (character :: rest) rest
  | replace (old new : Char) (rest : List Char) : Edit (old :: rest) (new :: rest)
  | behind (character : Char) {rest changed : List Char} (edit : Edit rest changed) :
      Edit (character :: rest) (character :: changed)

/-- A text becomes another one by a number of edits, one after the other. -/
inductive Edits : Nat → List Char → List Char → Prop where
  | none (text : List Char) : Edits 0 text text
  | more {count : Nat} {first middle last : List Char} (edits : Edits count first middle)
      (edit : Edit middle last) : Edits (count + 1) first last

theorem Edit.prepend {first last : List Char} (edit : Edit first last) (before : List Char) :
    Edit (before ++ first) (before ++ last) := by
  induction before with
  | nil => exact edit
  | cons character rest induction => exact .behind character induction

theorem Edit.append {first last : List Char} (edit : Edit first last) (after : List Char) :
    Edit (first ++ after) (last ++ after) := by
  induction edit with
  | insert character rest => exact .insert character (rest ++ after)
  | delete character rest => exact .delete character (rest ++ after)
  | replace old new rest => exact .replace old new (rest ++ after)
  | behind character _ induction => exact .behind character induction

theorem Edit.reverse {first last : List Char} (edit : Edit first last) :
    Edit first.reverse last.reverse := by
  induction edit with
  | insert character rest =>
      simpa using (Edit.insert character []).prepend rest.reverse
  | delete character rest =>
      simpa using (Edit.delete character []).prepend rest.reverse
  | replace old new rest =>
      simpa using (Edit.replace old new []).prepend rest.reverse
  | behind character _ induction =>
      simpa using induction.append [character]

namespace Edits

theorem behind {count : Nat} {first last : List Char} (edits : Edits count first last)
    (character : Char) : Edits count (character :: first) (character :: last) := by
  induction edits with
  | none text => exact .none _
  | more _ edit induction => exact .more induction (.behind character edit)

theorem reverse {count : Nat} {first last : List Char} (edits : Edits count first last) :
    Edits count first.reverse last.reverse := by
  induction edits with
  | none text => exact .none _
  | more _ edit induction => exact .more induction edit.reverse

end Edits

theorem edits_reverse_iff {count : Nat} {first last : List Char} :
    Edits count first.reverse last.reverse ↔ Edits count first last := by
  constructor
  · intro edits
    simpa using edits.reverse
  · exact Edits.reverse

/-- Two texts are gone through from their beginnings, with a number of differences on the way. -/
inductive Aligned : List Char → List Char → Nat → Prop where
  | nil : Aligned [] [] 0
  | keep (character : Char) {first last : List Char} {count : Nat}
      (later : Aligned first last count) :
      Aligned (character :: first) (character :: last) count
  | replace (old new : Char) {first last : List Char} {count : Nat}
      (later : Aligned first last count) :
      Aligned (old :: first) (new :: last) (count + 1)
  | delete (character : Char) {first last : List Char} {count : Nat}
      (later : Aligned first last count) :
      Aligned (character :: first) last (count + 1)
  | insert (character : Char) {first last : List Char} {count : Nat}
      (later : Aligned first last count) :
      Aligned first (character :: last) (count + 1)

namespace Aligned

theorem refl (text : List Char) : Aligned text text 0 := by
  induction text with
  | nil => exact .nil
  | cons character rest induction => exact .keep character induction

theorem edits {first last : List Char} {count : Nat} (aligned : Aligned first last count) :
    Edits count first last := by
  induction aligned with
  | nil => exact .none []
  | keep character _ induction => exact induction.behind character
  | @replace old new first last count _ induction =>
      exact .more (induction.behind old) (.replace old new last)
  | @delete character first last count _ induction =>
      exact .more (induction.behind character) (.delete character last)
  | @insert character first last count _ induction =>
      exact .more induction (.insert character last)

theorem min {first last : List Char} {left right : Nat} (one : Aligned first last left)
    (other : Aligned first last right) : Aligned first last (min left right) := by
  rcases Nat.le_total left right with fewer | fewer
  · rwa [Nat.min_eq_left fewer]
  · rwa [Nat.min_eq_right fewer]

/-- An edit of the second text adds at most one difference. -/
theorem exists_of_edit {first middle last : List Char} {count : Nat}
    (aligned : Aligned first middle count) (edit : Edit middle last) :
    ∃ total, total ≤ count + 1 ∧ Aligned first last total := by
  induction aligned generalizing last with
  | nil =>
      cases edit with
      | insert character => exact ⟨1, by omega, .insert character .nil⟩
  | @keep character first middle count later induction =>
      cases edit with
      | insert other => exact ⟨count + 1, by omega, .insert other (.keep character later)⟩
      | delete => exact ⟨count + 1, by omega, .delete character later⟩
      | replace _ new => exact ⟨count + 1, by omega, .replace character new later⟩
      | behind _ edit =>
          obtain ⟨total, bound, aligned⟩ := induction edit
          exact ⟨total, bound, .keep character aligned⟩
  | @replace old new first middle count later induction =>
      cases edit with
      | insert other => exact ⟨count + 2, by omega, .insert other (.replace old new later)⟩
      | delete => exact ⟨count + 1, by omega, .delete old later⟩
      | replace _ newer => exact ⟨count + 1, by omega, .replace old newer later⟩
      | behind _ edit =>
          obtain ⟨total, bound, aligned⟩ := induction edit
          exact ⟨total + 1, by omega, .replace old new aligned⟩
  | @delete character first middle count later induction =>
      obtain ⟨total, bound, aligned⟩ := induction edit
      exact ⟨total + 1, by omega, .delete character aligned⟩
  | @insert character first middle count later induction =>
      cases edit with
      | insert other => exact ⟨count + 2, by omega, .insert other (.insert character later)⟩
      | delete => exact ⟨count, by omega, later⟩
      | replace _ new => exact ⟨count + 1, by omega, .insert new later⟩
      | behind _ edit =>
          obtain ⟨total, bound, aligned⟩ := induction edit
          exact ⟨total + 1, by omega, .insert character aligned⟩

end Aligned

theorem Edits.exists_aligned {count : Nat} {first last : List Char}
    (edits : Edits count first last) : ∃ total, total ≤ count ∧ Aligned first last total := by
  induction edits with
  | none text => exact ⟨0, Nat.le_refl 0, .refl text⟩
  | more _ edit induction =>
      obtain ⟨fewer, fewerBound, aligned⟩ := induction
      obtain ⟨total, bound, further⟩ := aligned.exists_of_edit edit
      exact ⟨total, by omega, further⟩

/-- The least number of differences on the way through two texts, from their beginnings. -/
def leastDifferences : List Char → List Char → Nat
  | [], target => target.length
  | source, [] => source.length
  | character :: source, other :: target =>
      min (leastDifferences source target + if character = other then 0 else 1)
        (min (leastDifferences (character :: source) target + 1)
          (leastDifferences source (other :: target) + 1))
termination_by source target => source.length + target.length

theorem leastDifferences_nil (target : List Char) : leastDifferences [] target = target.length := by
  rw [leastDifferences]

theorem leastDifferences_nil_right (source : List Char) :
    leastDifferences source [] = source.length := by
  cases source <;> simp [leastDifferences]

theorem leastDifferences_cons_cons (character other : Char) (source target : List Char) :
    leastDifferences (character :: source) (other :: target) =
      min (leastDifferences source target + if character = other then 0 else 1)
        (min (leastDifferences (character :: source) target + 1)
          (leastDifferences source (other :: target) + 1)) := by
  rw [leastDifferences]

theorem aligned_leastDifferences (source target : List Char) :
    Aligned source target (leastDifferences source target) := by
  fun_induction leastDifferences source target with
  | case1 target =>
      induction target with
      | nil => exact .nil
      | cons other target induction => exact .insert other induction
  | case2 source nonempty =>
      clear nonempty
      induction source with
      | nil => exact .nil
      | cons character source induction => exact .delete character induction
  | case3 character source other target both inserted deleted =>
      have kept : Aligned (character :: source) (other :: target)
          (leastDifferences source target + if character = other then 0 else 1) := by
        split
        · rename_i same
          subst same
          exact .keep character both
        · exact .replace character other both
      exact kept.min ((inserted.insert other).min (deleted.delete character))

theorem Aligned.leastDifferences_le {source target : List Char} {count : Nat}
    (aligned : Aligned source target count) : leastDifferences source target ≤ count := by
  induction aligned with
  | nil => simp [leastDifferences]
  | keep character _ induction =>
      rw [leastDifferences_cons_cons, if_pos rfl]
      exact Nat.le_trans (Nat.min_le_left _ _) induction
  | @replace old new source target count _ induction =>
      have cost : (if old = new then 0 else 1) ≤ 1 := by split <;> omega
      rw [leastDifferences_cons_cons]
      exact Nat.le_trans (Nat.min_le_left _ _) (Nat.add_le_add induction cost)
  | @delete character source target count _ induction =>
      cases target with
      | nil =>
          rw [leastDifferences_nil_right] at induction ⊢
          exact Nat.succ_le_succ induction
      | cons other target =>
          rw [leastDifferences_cons_cons]
          omega
  | @insert character source target count _ induction =>
      cases source with
      | nil =>
          rw [leastDifferences_nil] at induction ⊢
          exact Nat.succ_le_succ induction
      | cons head source =>
          rw [leastDifferences_cons_cons]
          omega

theorem isLeast_leastDifferences (source target : List Char) :
    IsLeast {count | Edits count source target} (leastDifferences source target) := by
  refine ⟨(aligned_leastDifferences source target).edits, ?_⟩
  intro count edits
  obtain ⟨total, bound, aligned⟩ := Edits.exists_aligned edits
  exact Nat.le_trans aligned.leastDifferences_le bound

/-- The row of a beginning of the first text, from the place on where a beginning of the second text
ends.  Both beginnings are given last character first. -/
def rowFrom (done behind : List Char) : List Char → List Nat
  | [] => [leastDifferences done behind]
  | next :: ahead => leastDifferences done behind :: rowFrom done (next :: behind) ahead

theorem rowFrom_eq_cons (done behind ahead : List Char) :
    ∃ later, rowFrom done behind ahead = leastDifferences done behind :: later := by
  cases ahead with
  | nil => exact ⟨[], rfl⟩
  | cons next ahead => exact ⟨_, rfl⟩

theorem nextEntries_rowFrom (character : Char) (done behind ahead : List Char) :
    leastDifferences (character :: done) behind ::
        nextEntries character (leastDifferences (character :: done) behind) ahead
          (rowFrom done behind ahead) =
      rowFrom (character :: done) behind ahead := by
  induction ahead generalizing behind with
  | nil => rfl
  | cons next ahead induction =>
      obtain ⟨later, above⟩ := rowFrom_eq_cons done (next :: behind) ahead
      rw [rowFrom, rowFrom, ← induction, above, nextEntries, leastDifferences_cons_cons]

theorem nextRow_rowFrom (character : Char) (done target : List Char) :
    nextRow character target (rowFrom done [] target) = rowFrom (character :: done) [] target := by
  obtain ⟨later, row⟩ := rowFrom_eq_cons done [] target
  have left : (rowFrom done [] target).headD 0 + 1 = leastDifferences (character :: done) [] := by
    rw [row, List.headD_cons, leastDifferences_nil_right, leastDifferences_nil_right]
    rfl
  rw [nextRow, left]
  exact nextEntries_rowFrom character done [] target

theorem rowFrom_nil (behind ahead : List Char) :
    rowFrom [] behind ahead = List.range' behind.length (ahead.length + 1) := by
  induction ahead generalizing behind with
  | nil => simp [rowFrom, leastDifferences_nil]
  | cons next ahead induction =>
      rw [rowFrom, induction, leastDifferences_nil, List.length_cons, List.length_cons,
        ← List.range'_succ]

theorem foldl_nextRow (source done target : List Char) :
    source.foldl (fun above character => nextRow character target above) (rowFrom done [] target) =
      rowFrom (source.reverse ++ done) [] target := by
  induction source generalizing done with
  | nil => rfl
  | cons character source induction =>
      rw [List.foldl_cons, nextRow_rowFrom, induction]
      simp

theorem getLastD_rowFrom (done behind ahead : List Char) :
    (rowFrom done behind ahead).getLastD 0 = leastDifferences done (ahead.reverse ++ behind) := by
  induction ahead generalizing behind with
  | nil => rfl
  | cons next ahead induction =>
      obtain ⟨later, row⟩ := rowFrom_eq_cons done (next :: behind) ahead
      rw [rowFrom, row, List.getLastD_cons, List.getLastD_cons, ← List.getLastD_cons (a := 0),
        ← row, induction]
      simp

theorem distance_eq_leastDifferences (source target : List Char) :
    distance source target = leastDifferences source.reverse target.reverse := by
  have firstRow : List.range (target.length + 1) = rowFrom [] [] target := by
    rw [rowFrom_nil, List.range_eq_range']
    rfl
  rw [distance, firstRow, foldl_nextRow, getLastD_rowFrom, List.append_nil, List.append_nil]

/-- The distance of two texts is the least number of edits from one to the other. -/
theorem isLeast_distance (source target : List Char) :
    IsLeast {count | Edits count source target} (distance source target) := by
  have least := isLeast_leastDifferences source.reverse target.reverse
  simp only [edits_reverse_iff] at least
  rwa [distance_eq_leastDifferences]

end Stencil.Text
