import Stencil.Proofs.ByteOrder
import Stencil.Proofs.Verdicts

/-!
# Names that would have been found

An error for a name that is not declared lists other names.  These are the ones that are found at
the same segment of the same path, no more and no less: what is collected for the list and what a
look-up goes through agree.
-/

namespace Stencil

namespace Path

/-- The path that ends at a segment, with a name in place of this segment. -/
def withNameAt (path : Path) (index : Nat) (name : String) : Path :=
  { path with segments := path.segments.take index ++ [name] }

end Path

/-- A path is looked up without an error.  It may start at the binding of a loop whose list is in
error. -/
def Scope.Finds (scope : Scope) (path : Path) : Prop :=
  ∀ error, scope.resolve path ≠ .failed error

/-- A name stands for something at a segment of a path.  At the first one this is a binding of the
loops that the path does not leave, their metadata if there are any, or a field of the schema, and
at a later one a field of the object that the segments before it refer to. -/
def Schema.Offers (schema : Schema) (loops : List Enclosing) (path : Path) (name : String) :
    Nat → Prop
  | 0 =>
      name ∈ (loops.drop path.hops).map Enclosing.binding ∨
        (loops.drop path.hops ≠ [] ∧ name ∈ ["index", "first", "last"]) ∨
        name ∈ Entries.names schema.fields
  | index + 1 =>
      ∃ parent fields, schema.Resolves loops (path.upTo (index + 1)) parent ∧
        parent.HasCore (.object fields) ∧ name ∈ Entries.names fields

namespace Kind

theorem below?_append (kind : Kind) (before after : List String) :
    kind.below? (before ++ after) =
      (kind.below? before).bind fun parent => parent.below? after := by
  induction before generalizing kind with
  | nil => rfl
  | cons name rest induction =>
      rw [List.cons_append, below?, below?]
      cases kind.field? name with
      | none => rfl
      | some field => exact induction field

theorem exists_below?_take {kind last : Kind} {names : List String}
    (below : kind.below? names = some last) (count : Nat) :
    ∃ parent, kind.below? (names.take count) = some parent := by
  rw [← List.take_append_drop count names, below?_append] at below
  obtain ⟨parent, found, _⟩ := Option.bind_eq_some_iff.mp below
  exact ⟨parent, found⟩

theorem isSome_field?_iff {kind : Kind} {name : String} :
    (kind.field? name).isSome ↔
      ∃ fields, kind.HasCore (.object fields) ∧ name ∈ Entries.names fields := by
  constructor
  · intro declared
    obtain ⟨field, found⟩ := Option.isSome_iff_exists.mp declared
    obtain ⟨fields, object, entry⟩ := field?_eq_some_iff.mp found
    exact ⟨fields, hasCore_iff.mpr object, Entries.mem_names_iff.mpr (by rw [entry]; rfl)⟩
  · rintro ⟨fields, object, member⟩
    obtain ⟨field, entry⟩ := Option.isSome_iff_exists.mp (Entries.mem_names_iff.mp member)
    rw [field?_eq_some_iff.mpr ⟨fields, object.required_eq, entry⟩]
    rfl

end Kind

namespace Scope

theorem follow_finds_iff {path : Path} {position : Nat} {kind : Kind} {names : List String} :
    (∀ error, follow path position kind.required names ≠ .failed error) ↔
      (kind.below? names).isSome := by
  have kinds := kind?_follow path position kind names
  cases followed : follow path position kind.required names with
  | found last marks =>
      rw [followed] at kinds
      have below : (kind.below? names).isSome := by
        rw [← Option.isSome_map (f := Kind.required), ← kinds]
        rfl
      simp [below]
  | unknown => exact absurd followed (follow_ne_unknown path position kind names)
  | failed error =>
      rw [followed] at kinds
      have below : kind.below? names = none := Option.map_eq_none_iff.mp kinds.symm
      simp [below]

theorem finds_iff_of_declared
    {scope : Scope} {path : Path} {first : String} {rest : List String} {kind : Kind}
    (inRange : path.hops ≤ scope.loops.length) (segments : path.segments = first :: rest)
    (found : (scope.leave path.hops).find first = some (some kind)) :
    scope.Finds path ↔ (kind.below? rest).isSome := by
  rw [← @follow_finds_iff path 1]
  unfold Finds
  rw [resolve_of_declared inRange segments found]
  simp only [ne_eq, Resolution.behind_eq_failed_iff]

theorem finds_name_iff
    {scope : Scope} {path : Path} {name : String}
    (inRange : path.hops ≤ scope.loops.length) (segments : path.segments = [name]) :
    scope.Finds path ↔ (scope.leave path.hops).find name ≠ none := by
  cases found : (scope.leave path.hops).find name with
  | none =>
      have failed := resolve_eq_iff.mpr (.undeclared inRange segments found)
      simp only [ne_eq, not_true_eq_false, iff_false]
      exact fun finds => finds _ failed
  | some element =>
      cases element with
      | none =>
          have unknown := resolve_eq_iff.mpr (.inError inRange segments found)
          simp [Finds, unknown]
      | some kind => simp [finds_iff_of_declared inRange segments found, Kind.below?]

variable {schema : Schema} {loops : List Enclosing} {path : Path}

theorem finds_first_iff (inRange : path.hops ≤ loops.length) (name : String) :
    (within schema loops).Finds (path.withNameAt 0 name) ↔
      Referent.ofName name (loops.drop path.hops) ≠ .field ∨ (schema.get? name).isSome := by
  have reaches : (path.withNameAt 0 name).hops ≤ (within schema loops).loops.length := by
    rwa [length_loops_within]
  rw [finds_name_iff reaches rfl, leave_within, ne_eq, find_within_eq_none_iff, not_and_or,
    Option.isSome_iff_ne_none]
  rfl

theorem finds_later_iff
    {first : String} {before rest : List String} {kind parent : Kind}
    (inRange : path.hops ≤ loops.length) (segments : path.segments = first :: (before ++ rest))
    (declares : schema.Declares (loops.drop path.hops) first kind)
    (below : kind.below? before = some parent) (name : String) :
    (within schema loops).Finds (path.withNameAt (before.length + 1) name) ↔
      (parent.field? name).isSome := by
  have reaches : (path.withNameAt (before.length + 1) name).hops ≤
      (within schema loops).loops.length := by
    rwa [length_loops_within]
  have replaced : (path.withNameAt (before.length + 1) name).segments =
      first :: (before ++ [name]) := by
    simp [Path.withNameAt, segments]
  have visible := find_within_iff.mpr declares
  rw [← leave_within] at visible
  rw [finds_iff_of_declared reaches replaced visible, Kind.below?_append, below]
  show ((parent.field? name).bind fun field => field.below? []).isSome ↔ _
  cases parent.field? name <;> simp [Kind.below?]

end Scope

theorem NamesExactly.ordered {available : List String} {holds : String → Prop}
    (exactly : NamesExactly available holds) :
    available.Pairwise fun first second => Text.bytes first < Text.bytes second :=
  exactly.1.imp Text.lt_iff_bytes_lt.mp

namespace Schema

variable {schema : Schema} {loops : List Enclosing} {path : Path}

theorem offers_first_iff {name : String} :
    schema.Offers loops path name 0 ↔
      Referent.ofName name (loops.drop path.hops) ≠ .field ∨ (schema.get? name).isSome := by
  rw [Offers, Referent.ofName_ne_field_iff, Entries.mem_names_iff, or_assoc]
  rfl

theorem offers_later_iff {index : Nat} {parent : Kind}
    (resolves : schema.Resolves loops (path.upTo (index + 1)) parent) {name : String} :
    schema.Offers loops path name (index + 1) ↔ (parent.field? name).isSome := by
  rw [Kind.isSome_field?_iff]
  constructor
  · rintro ⟨other, fields, otherResolves, object, member⟩
    obtain rfl := resolves.unique otherResolves
    exact ⟨fields, object, member⟩
  · rintro ⟨fields, object, member⟩
    exact ⟨parent, fields, resolves, object, member⟩

/-- Each beginning of the segments before a missing one refers to something. -/
theorem exists_resolves_upTo
    {first : String} {before rest : List String} {kind parent : Kind}
    (inRange : path.hops ≤ loops.length) (segments : path.segments = first :: (before ++ rest))
    (declares : schema.Declares (loops.drop path.hops) first kind)
    (below : kind.below? before = some parent) {count : Nat} (bound : count ≤ before.length) :
    ∃ last, schema.Resolves loops (path.upTo (count + 1)) last := by
  obtain ⟨last, found⟩ := Kind.exists_below?_take below count
  refine ⟨last, .intro inRange ?_ declares found⟩
  simp [Path.upTo, segments, List.take_append_of_le_length bound]

end Schema

/-- A list of the names that stand for something at a segment of a path: with one of them in its
place, and with no other name, the path up to there is found. -/
structure Schema.Alternatives (schema : Schema) (loops : List Enclosing) (path : Path)
    (index : Nat) (available : List String) : Prop where
  ordered : available.Pairwise fun first second => Text.bytes first < Text.bytes second
  offered : ∀ name, name ∈ available ↔ schema.Offers loops path name index
  found : ∀ name,
    name ∈ available ↔ (Scope.within schema loops).Finds (path.withNameAt index name)

/-- A path fails at a segment: those before it resolve and its own name is none of those listed,
which are the alternatives there. -/
structure Schema.FailsAt (schema : Schema) (loops : List Enclosing) (path : Path) (index : Nat)
    (segment text : String) (available : List String) : Prop where
  named : path.segments[index]? = some segment
  shown : text = (path.upTo (index + 1)).shown
  before : ∀ earlier < index, ∃ kind, schema.Resolves loops (path.upTo (earlier + 1)) kind
  missing : segment ∉ available
  listed : schema.Alternatives loops path index available

theorem Schema.Unresolved.exists_failsAt
    {schema : Schema} {loops : List Enclosing} {path : Path} {segment text : String}
    {available : List String}
    (unresolved : schema.Unresolved loops path (.fieldNotFound segment text available)) :
    ∃ index, schema.FailsAt loops path index segment text available := by
  cases unresolved with
  | first inRange segments outside undeclared listed =>
      refine ⟨0, by simp [segments], rfl, by simp, ?_, listed.ordered, ?_, ?_⟩
      · simp [listed.2, outside, undeclared]
      · intro name
        rw [offers_first_iff]
        exact listed.2 name
      · intro name
        rw [Scope.finds_first_iff inRange]
        exact listed.2 name
  | @later first _ before after _ kind parent inRange segments declares below undeclared listed =>
      have reached : schema.Resolves loops (path.upTo (before.length + 1)) parent :=
        .intro inRange (by simp [Path.upTo, segments]) declares below
      refine ⟨before.length + 1, by simp [segments], rfl, ?_, ?_, listed.ordered, ?_, ?_⟩
      · intro earlier shorter
        exact exists_resolves_upTo inRange segments declares below (Nat.le_of_lt_succ shorter)
      · simp [listed.2, undeclared]
      · intro name
        rw [offers_later_iff reached]
        exact listed.2 name
      · intro name
        rw [Scope.finds_later_iff inRange segments declares below]
        exact listed.2 name

namespace Template

theorem errors_of_check
    {nodes : List (Node Path)} {schema : Schema} {errors : List TypeError}
    (rejected : check nodes schema = .error errors) :
    errors = Node.typeErrorsAll (Scope.ofSchema schema) nodes := by
  unfold check at rejected
  cases found : Node.typeErrorsAll (Scope.ofSchema schema) nodes with
  | nil => simp [found] at rejected
  | cons first rest => simpa [found] using rejected.symm

theorem exists_occurrence_of_check_error
    {nodes : List (Node Path)} {schema : Schema} {errors : List TypeError} {error : TypeError}
    (rejected : check nodes schema = .error errors) (reported : error ∈ errors) :
    ∃ occurrence ∈ Node.occurrencesAll [] nodes, occurrence.Breaks schema error := by
  have collected : Node.typeErrorsAll (Scope.ofSchema schema) nodes =
      (Node.occurrencesAll [] nodes).filterMap (Occurrence.error? schema) :=
    Node.typeErrorsAll_within schema [] nodes
  rw [errors_of_check rejected, collected] at reported
  obtain ⟨occurrence, member, broken⟩ := List.mem_filterMap.mp reported
  exact ⟨occurrence, member, Occurrence.error?_eq_some_iff.mp broken⟩

/-- An error of a check that lists names is that of a path of the tree which fails at a segment, and
the list holds the names that would have been found there. -/
theorem check_lists_alternatives
    {nodes : List (Node Path)} {schema : Schema} {errors : List TypeError}
    {segment text : String} {available : List String}
    (rejected : check nodes schema = .error errors)
    (reported : .fieldNotFound segment text available ∈ errors) :
    ∃ occurrence ∈ Node.occurrencesAll [] nodes,
      occurrence.Breaks schema (.fieldNotFound segment text available) ∧
      ∃ index, schema.FailsAt occurrence.loops occurrence.path index segment text available := by
  obtain ⟨occurrence, member, breaks⟩ := exists_occurrence_of_check_error rejected reported
  refine ⟨occurrence, member, breaks, ?_⟩
  cases breaks with
  | unresolved unresolved => exact unresolved.exists_failsAt

/-- In the draft of the agenda a title is misspelled inside of two loops in error, a floor is asked
for its number, and two lists are taken for objects, one of them behind two hops.  The paths to the
number and to the first list go on behind the segment at which they fail. -/
theorem draftAgenda_alternatives :
    let fails := fun segment text available =>
      ∃ occurrence ∈ Node.occurrencesAll [] draftAgenda,
        occurrence.Breaks looseAgendaSchema (.fieldNotFound segment text available) ∧
        ∃ index, looseAgendaSchema.FailsAt occurrence.loops occurrence.path index
          segment text available
    Template.check draftAgenda looseAgendaSchema = .error draftAgendaErrors ∧
      fails "titel" ".titel"
        ["chair", "days", "first", "index", "last", "line", "title", "word"] ∧
      fails "number" ".day.room.floor.number" ["name"] ∧
      fails "first" "../../chair.phones.first" [] ∧
      fails "room" ".days.room" [] := by
  have rejected : Template.check draftAgenda looseAgendaSchema = .error draftAgendaErrors := rfl
  exact ⟨rejected, check_lists_alternatives rejected (by decide),
    check_lists_alternatives rejected (by decide), check_lists_alternatives rejected (by decide),
    check_lists_alternatives rejected (by decide)⟩

end Template

end Stencil
