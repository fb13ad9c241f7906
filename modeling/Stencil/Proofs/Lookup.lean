import Stencil.Data

/-!
# Entries under names

Putting an entry in place changes what is found under its name and nothing else, and keeps the
names in strict order, so that each stands there once.
-/

namespace Stencil.Entries

variable {α : Type}

theorem find?_insert (name other : String) (value : α) (entries : List (String × α)) :
    find? other (insert name value entries) =
      if other = name then some value else find? other entries := by
  induction entries with
  | nil => simp [insert, find?]
  | cons entry rest induction =>
      obtain ⟨head, old⟩ := entry
      unfold insert
      by_cases before : name < head
      · simp [before, find?]
      · by_cases same : name = head
        · subst head
          simp only [before, if_false, if_true, find?]
          split <;> rfl
        · simp only [before, same, if_false, find?, induction]
          -- Only a name other than the head is looked for behind it.
          by_cases found : other = head
          · subst head
            simp [Ne.symm same]
          · simp [found]

theorem mem_names_iff {name : String} {entries : List (String × α)} :
    name ∈ names entries ↔ (find? name entries).isSome := by
  induction entries with
  | nil => simp [names, find?]
  | cons entry rest induction =>
      obtain ⟨head, value⟩ := entry
      by_cases same : name = head
      · simp [names, find?, same]
      · simpa [names, find?, same] using induction

theorem mem_names_insert {name other : String} {value : α} {entries : List (String × α)} :
    other ∈ names (insert name value entries) ↔ other = name ∨ other ∈ names entries := by
  rw [mem_names_iff, mem_names_iff, find?_insert]
  by_cases same : other = name <;> simp [same]

theorem mem_insert {name : String} {value : α} {entries : List (String × α)} {entry : String × α}
    (member : entry ∈ insert name value entries) : entry = (name, value) ∨ entry ∈ entries := by
  induction entries with
  | nil => exact .inl (List.mem_singleton.mp member)
  | cons first rest induction =>
      obtain ⟨head, old⟩ := first
      unfold insert at member
      split at member
      · exact List.mem_cons.mp member
      · split at member
        · rcases List.mem_cons.mp member with same | later
          · exact .inl same
          · exact .inr (List.mem_cons_of_mem _ later)
        · rcases List.mem_cons.mp member with rfl | later
          · exact .inr List.mem_cons_self
          · exact (induction later).imp id (List.mem_cons_of_mem _)

/-- Each name is before all that follow it. -/
def Ordered (entries : List (String × α)) : Prop :=
  (names entries).Pairwise (· < ·)

instance (entries : List (String × α)) : Decidable (Ordered entries) :=
  inferInstanceAs (Decidable (List.Pairwise _ _))

theorem Ordered.insert {entries : List (String × α)} (ordered : Ordered entries) (name : String)
    (value : α) : Ordered (insert name value entries) := by
  induction entries with
  | nil => simp [Ordered, Entries.insert, names]
  | cons entry rest induction =>
      obtain ⟨head, old⟩ := entry
      obtain ⟨first, further⟩ := List.pairwise_cons.mp ordered
      unfold Entries.insert
      by_cases before : name < head
      · rw [if_pos before]
        refine List.pairwise_cons.mpr ⟨?_, ordered⟩
        intro other member
        cases member with
        | head => exact before
        | tail _ later => exact String.lt_trans before (first other later)
      · by_cases same : name = head
        · rw [if_neg before, if_pos same, same]
          exact List.pairwise_cons.mpr ⟨first, further⟩
        · rw [if_neg before, if_neg same]
          have after : head < name :=
            Std.lt_of_le_of_ne (String.not_lt.mp before) (Ne.symm same)
          refine List.pairwise_cons.mpr ⟨?_, induction further⟩
          intro other member
          obtain rfl | later := mem_names_insert.mp member
          · exact after
          · exact first other later

theorem Ordered.foldl_insert (pairs : List (String × α)) {entries : List (String × α)}
    (ordered : Ordered entries) :
    Ordered (pairs.foldl (fun entries pair => Entries.insert pair.1 pair.2 entries) entries) := by
  induction pairs generalizing entries with
  | nil => exact ordered
  | cons pair rest induction => exact induction (ordered.insert pair.1 pair.2)

theorem ordered_ofList (pairs : List (String × α)) : Ordered (ofList pairs) :=
  Ordered.foldl_insert pairs List.Pairwise.nil

theorem mem_names_foldl_insert {name : String} {pairs entries : List (String × α)} :
    name ∈ names (pairs.foldl (fun entries pair => insert pair.1 pair.2 entries) entries) ↔
      name ∈ names pairs ∨ name ∈ names entries := by
  induction pairs generalizing entries with
  | nil => simp [names]
  | cons pair rest induction =>
      rw [List.foldl_cons, induction, mem_names_insert]
      simp only [names, List.map_cons, List.mem_cons]
      constructor
      · rintro (later | same | old)
        · exact .inl (.inr later)
        · exact .inl (.inl same)
        · exact .inr old
      · rintro ((same | later) | old)
        · exact .inr (.inl same)
        · exact .inl later
        · exact .inr (.inr old)

theorem mem_names_ofList {name : String} {pairs : List (String × α)} :
    name ∈ names (ofList pairs) ↔ name ∈ names pairs := by
  rw [ofList, mem_names_foldl_insert]
  simp [names]

theorem Ordered.nodup {entries : List (String × α)} (ordered : Ordered entries) :
    (names entries).Nodup := by
  refine List.Pairwise.imp ?_ ordered
  intro first second before same
  subst same
  exact String.lt_irrefl first before

theorem perm_insert {name : String} {entries : List (String × α)} (value : α)
    (free : name ∉ names entries) :
    (insert name value entries).Perm ((name, value) :: entries) := by
  induction entries with
  | nil => exact .refl _
  | cons entry rest induction =>
      obtain ⟨head, old⟩ := entry
      rw [names, List.map_cons, List.mem_cons, not_or] at free
      obtain ⟨other, absent⟩ := free
      unfold insert
      by_cases before : name < head
      · rw [if_pos before]
      · rw [if_neg before, if_neg other]
        exact ((induction absent).cons _).trans (.swap _ _ _)

theorem perm_foldl_insert {pairs entries : List (String × α)}
    (distinct : (names (pairs ++ entries)).Nodup) :
    (pairs.foldl (fun entries pair => insert pair.1 pair.2 entries) entries).Perm
      (pairs ++ entries) := by
  induction pairs generalizing entries with
  | nil => exact .refl _
  | cons pair rest induction =>
      obtain ⟨absent, further⟩ := List.nodup_cons.mp distinct
      have free : pair.1 ∉ names entries := fun member =>
        absent (List.map_subset _ (List.subset_append_right rest entries) member)
      have inserted : (rest ++ insert pair.1 pair.2 entries).Perm (pair :: (rest ++ entries)) :=
        ((perm_insert pair.2 free).append_left rest).trans List.perm_middle
      rw [List.foldl_cons]
      apply (induction _).trans inserted
      exact (inserted.map Prod.fst).nodup_iff.mpr distinct

theorem perm_ofList {pairs : List (String × α)} (distinct : (names pairs).Nodup) :
    (ofList pairs).Perm pairs := by
  rw [← List.append_nil pairs] at distinct
  have same := perm_foldl_insert distinct
  rwa [List.append_nil] at same

/-- The order leaves no choice. -/
theorem Ordered.eq_of_perm {first second : List (String × α)} (firstOrdered : Ordered first)
    (secondOrdered : Ordered second) (same : first.Perm second) :
    first = second := by
  apply same.eq_of_pairwise _ (List.pairwise_map.mp firstOrdered)
    (List.pairwise_map.mp secondOrdered)
  intro entry other _ _ before after
  exact absurd (String.lt_trans before after) (String.lt_irrefl _)

theorem mem_of_find? {name : String} {value : α} {entries : List (String × α)}
    (found : find? name entries = some value) : (name, value) ∈ entries := by
  induction entries with
  | nil => cases found
  | cons entry rest induction =>
      unfold find? at found
      split at found
      · rename_i same
        cases found
        rw [same]
        exact List.mem_cons_self
      · exact List.mem_cons_of_mem _ (induction found)

theorem find?_of_mem {entries : List (String × α)} (distinct : (names entries).Nodup)
    {entry : String × α} (member : entry ∈ entries) : find? entry.1 entries = some entry.2 := by
  induction entries with
  | nil => cases member
  | cons first rest induction =>
      obtain ⟨absent, further⟩ := List.nodup_cons.mp distinct
      cases member with
      | head => simp [find?]
      | tail _ later =>
          have different : entry.1 ≠ first.1 := by
            intro same
            exact absent (same ▸ List.mem_map_of_mem later)
          simpa [find?, different] using induction further later

/-- The entries of a kind are counted by their names. -/
theorem countP_names {entries : List (String × α)} (distinct : (names entries).Nodup)
    (test : α → Bool) :
    (names entries).countP (fun name => (find? name entries).any test) =
      entries.countP fun entry => test entry.2 := by
  unfold names
  rw [List.countP_map]
  refine List.countP_congr ?_
  intro entry member
  simp [find?_of_mem distinct member]

end Stencil.Entries
