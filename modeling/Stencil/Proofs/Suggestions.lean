import Stencil.Proofs.Alternatives
import Stencil.Proofs.Edits

/-!
# Suggested names

For a name that is not declared the nearest of the listed names is suggested, unless all are out of
range.  Of several names that are equally near it is the first of the list.
-/

namespace Stencil.TypeError

/-- The least number of edits from one name to another one. -/
def edits (segment name : String) : Nat :=
  Text.distance segment.toList name.toList

/-- A name of a list which is as near to another name as any of the list, and nearer than those
before it. -/
inductive FirstNearest (segment name : String) : List String → Prop where
  | intro {before after : List String}
      (earlier : ∀ other ∈ before, edits segment name < edits segment other)
      (later : ∀ other ∈ after, edits segment name ≤ edits segment other) :
      FirstNearest segment name (before ++ name :: after)

namespace FirstNearest

variable {segment name : String} {names : List String}

theorem mem (nearest : FirstNearest segment name names) : name ∈ names := by
  cases nearest with
  | intro _ _ => simp

theorem le (nearest : FirstNearest segment name names) :
    ∀ other ∈ names, edits segment name ≤ edits segment other := by
  cases nearest with
  | intro earlier later =>
      intro other member
      rcases List.mem_append.mp member with before | behind
      · exact Nat.le_of_lt (earlier other before)
      · rcases List.mem_cons.mp behind with rfl | after
        · exact Nat.le_refl _
        · exact later other after

theorem here (later : ∀ other ∈ names, edits segment name ≤ edits segment other) :
    FirstNearest segment name (name :: names) :=
  @intro segment name [] names (by simp) later

theorem behind {head : String} (nearest : FirstNearest segment name names)
    (nearer : edits segment name < edits segment head) :
    FirstNearest segment name (head :: names) := by
  cases nearest with
  | @intro before after earlier later =>
      exact @intro segment name (head :: before) after
        (List.forall_mem_cons.mpr ⟨nearer, earlier⟩) later

theorem cons_cases {head : String} (nearest : FirstNearest segment name (head :: names)) :
    name = head ∨ (edits segment name < edits segment head ∧ FirstNearest segment name names) := by
  generalize whole : head :: names = list at nearest
  cases nearest with
  | @intro before after earlier later =>
      cases before with
      | nil => exact .inl (List.cons.inj whole).1.symm
      | cons first before =>
          obtain ⟨rfl, rfl⟩ := List.cons.inj whole
          obtain ⟨nearer, further⟩ := List.forall_mem_cons.mp earlier
          exact .inr ⟨nearer, .intro further later⟩

theorem unique {other : String} (left : FirstNearest segment name names)
    (right : FirstNearest segment other names) : name = other := by
  induction names with
  | nil => cases left.mem
  | cons head rest induction =>
      rcases left.cons_cases with rfl | ⟨leftNearer, leftLater⟩
      · rcases right.cons_cases with rfl | ⟨rightNearer, _⟩
        · rfl
        · exact absurd (left.le other right.mem) (Nat.not_le.mpr rightNearer)
      · rcases right.cons_cases with rfl | ⟨_, rightLater⟩
        · exact absurd (right.le name left.mem) (Nat.not_le.mpr leftNearer)
        · exact induction leftLater rightLater

end FirstNearest

theorem nearest?_eq_none_iff {segment : String} {names : List String} :
    nearest? segment names = none ↔ ∀ name ∈ names, suggestionRange < edits segment name := by
  induction names with
  | nil => simp [nearest?]
  | cons head rest induction =>
      rw [List.forall_mem_cons, ← induction, ← Nat.not_le, nearest?]
      by_cases inRange : edits segment head ≤ suggestionRange
      · simp only [inRange, not_true_eq_false, false_and, iff_false]
        rw [edits] at inRange
        cases nearest? segment rest with
        | none => simp [inRange]
        | some best =>
            simp only [inRange, if_true]
            split <;> simp
      · rw [edits] at inRange
        simp [edits, inRange]

theorem firstNearest_of_nearest? {segment name : String} {names : List String} {count : Nat}
    (found : nearest? segment names = some (count, name)) :
    count = edits segment name ∧ count ≤ suggestionRange ∧ FirstNearest segment name names := by
  induction names generalizing count name with
  | nil => cases found
  | cons head rest induction =>
      rw [nearest?] at found
      by_cases inRange : edits segment head ≤ suggestionRange
      · rw [← edits, if_pos inRange] at found
        cases later : nearest? segment rest with
        | none =>
            -- All other names are out of range.
            have beyond := nearest?_eq_none_iff.mp later
            rw [later] at found
            cases found
            refine ⟨rfl, inRange, .here ?_⟩
            intro other member
            exact Nat.le_trans inRange (Nat.le_of_lt (beyond other member))
        | some best =>
            obtain ⟨least, candidate⟩ := best
            obtain ⟨rfl, bestInRange, nearest⟩ := induction later
            rw [later] at found
            by_cases nearer : edits segment candidate < edits segment head
            · simp only [if_pos nearer] at found
              cases found
              exact ⟨rfl, bestInRange, nearest.behind nearer⟩
            · simp only [if_neg nearer] at found
              cases found
              refine ⟨rfl, inRange, .here ?_⟩
              intro other member
              exact Nat.le_trans (Nat.not_lt.mp nearer) (nearest.le other member)
      · rw [← edits, if_neg inRange] at found
        obtain ⟨same, foundInRange, nearest⟩ := induction found
        refine ⟨same, foundInRange, nearest.behind ?_⟩
        omega

theorem suggestion_eq_some_iff {segment text name : String} {available : List String} :
    suggestion (.fieldNotFound segment text available) = some name ↔
      edits segment name ≤ suggestionRange ∧ FirstNearest segment name available := by
  rw [suggestion, Option.map_eq_some_iff]
  constructor
  · rintro ⟨⟨count, found⟩, search, rfl⟩
    obtain ⟨rfl, inRange, nearest⟩ := firstNearest_of_nearest? search
    exact ⟨inRange, nearest⟩
  · rintro ⟨inRange, nearest⟩
    cases search : nearest? segment available with
    | none =>
        have beyond := nearest?_eq_none_iff.mp search name nearest.mem
        omega
    | some best =>
        obtain ⟨_, _, found⟩ := firstNearest_of_nearest? search
        exact ⟨best, rfl, found.unique nearest⟩

theorem suggestion_eq_none_iff {segment text : String} {available : List String} :
    suggestion (.fieldNotFound segment text available) = none ↔
      ∀ name ∈ available, suggestionRange < edits segment name := by
  rw [suggestion, Option.map_eq_none_iff, nearest?_eq_none_iff]

/-- In a list that is in strict order the first of the nearest names is the least of them. -/
theorem FirstNearest.before_equally_near {segment name : String} {available : List String}
    (nearest : FirstNearest segment name available)
    (ordered : available.Pairwise fun first second => Text.bytes first < Text.bytes second)
    {other : String} (member : other ∈ available)
    (same : edits segment other = edits segment name) :
    other = name ∨ Text.bytes name < Text.bytes other := by
  cases nearest with
  | @intro before after earlier later =>
      rcases List.mem_append.mp member with inFront | behind
      · exact absurd same (Nat.ne_of_gt (earlier other inFront))
      · obtain ⟨_, further, _⟩ := List.pairwise_append.mp ordered
        rcases List.mem_cons.mp behind with rfl | after
        · exact .inl rfl
        · exact .inr ((List.pairwise_cons.mp further).1 other after)

/-- The suggestion is the first of the listed names with the fewest edits, which are at most two.
In the errors of a check it is the least of these names in the order of bytes. -/
theorem suggestion_is_nearest (segment text : String) (available : List String) :
    (∀ name,
      IsLeast {count | Text.Edits count segment.toList name.toList} (edits segment name)) ∧
    (suggestion (.fieldNotFound segment text available) = none ↔
      ∀ name ∈ available, 2 < edits segment name) ∧
    (∀ name, suggestion (.fieldNotFound segment text available) = some name ↔
      edits segment name ≤ 2 ∧
        ∃ before after, available = before ++ name :: after ∧
          (∀ other ∈ before, edits segment name < edits segment other) ∧
          ∀ other ∈ after, edits segment name ≤ edits segment other) ∧
    ∀ nodes schema errors, Template.check nodes schema = .error errors →
      .fieldNotFound segment text available ∈ errors →
      ∀ name, suggestion (.fieldNotFound segment text available) = some name →
        ∀ other ∈ available, edits segment other = edits segment name →
          other = name ∨ Text.bytes name < Text.bytes other := by
  refine ⟨fun name => Text.isLeast_distance _ _, suggestion_eq_none_iff, ?_, ?_⟩
  · intro name
    rw [suggestion_eq_some_iff]
    constructor
    · rintro ⟨inRange, ⟨earlier, later⟩⟩
      exact ⟨inRange, _, _, rfl, earlier, later⟩
    · rintro ⟨inRange, before, after, rfl, earlier, later⟩
      exact ⟨inRange, .intro earlier later⟩
  · intro nodes schema errors rejected reported name suggested other member same
    obtain ⟨occurrence, _, breaks⟩ :=
      Template.exists_occurrence_of_check_error rejected reported
    cases breaks with
    | unresolved unresolved =>
        obtain ⟨index, fails⟩ := unresolved.exists_failsAt
        obtain ⟨_, nearest⟩ := suggestion_eq_some_iff.mp suggested
        exact nearest.before_equally_near fails.listed.ordered member same

/-- Of the names in the draft of the agenda only the title is near to the misspelled one. -/
theorem draftAgenda_suggests_title :
    let titles := ["chair", "days", "first", "index", "last", "line", "title", "word"]
    Template.check draftAgenda looseAgendaSchema = .error draftAgendaErrors ∧
      suggestion (.fieldNotFound "titel" ".titel" titles) = some "title" ∧
      (∀ other ∈ titles, edits "titel" other = edits "titel" "title" →
        other = "title" ∨ Text.bytes "title" < Text.bytes other) ∧
      suggestion (.fieldNotFound "room" ".days.room" []) = none := by
  have rejected : Template.check draftAgenda looseAgendaSchema = .error draftAgendaErrors := rfl
  obtain ⟨_, _, found, least⟩ := suggestion_is_nearest "titel" ".titel"
    ["chair", "days", "first", "index", "last", "line", "title", "word"]
  obtain ⟨_, missing, _, _⟩ := suggestion_is_nearest "room" ".days.room" []
  have suggested := (found "title").mpr
    ⟨by decide, ["chair", "days", "first", "index", "last", "line"], ["word"], rfl, by decide,
      by decide⟩
  refine ⟨rejected, suggested, ?_, missing.mpr (by simp)⟩
  exact least draftAgenda looseAgendaSchema draftAgendaErrors rejected (by decide) "title" suggested

end Stencil.TypeError
