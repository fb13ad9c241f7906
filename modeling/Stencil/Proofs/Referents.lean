import Mathlib.Data.List.Sort
import Stencil.Proofs.Lookup
import Stencil.Proofs.Occurrences
import Stencil.Proofs.Typing

/-!
# Names and paths under a schema

A name inside of loops is looked up from the innermost loop outwards and last among the fields of
the schema.  `Schema.Resolves` and `Schema.Unresolved` say from this, loop by loop, which kind a
path refers to and at which segment it fails; the scope of the loops decides both.
-/

namespace Stencil

/-- What a name is found as. -/
inductive Referent where
  | binding (loop : Enclosing) (outer : List Enclosing)
  | metadata
  | field

/-- What a name is found as inside of loops, innermost first: a loop offers its binding and then
its metadata. -/
def Referent.ofName (name : String) : List Enclosing → Referent
  | [] => .field
  | loop :: outer =>
      if loop.binding = name then .binding loop outer
      else if name ∈ ["index", "first", "last"] then .metadata
      else ofName name outer

/-- A path starts at the binding of a loop around it. -/
inductive Path.StartsAt (path : Path) (loops : List Enclosing) (loop : Enclosing)
    (outer : List Enclosing) : Prop where
  | intro {first : String} {rest : List String}
      (inRange : path.hops ≤ loops.length)
      (segments : path.segments = first :: rest)
      (found : Referent.ofName first (loops.drop path.hops) = .binding loop outer) :
      Path.StartsAt path loops loop outer

/-- The kind behind names below a kind. -/
def Kind.below? (kind : Kind) : List String → Option Kind
  | [] => some kind
  | name :: rest => (kind.field? name).bind fun field => field.below? rest

/-- The names, in order and each once, for which a condition holds. -/
def NamesExactly (available : List String) (holds : String → Prop) : Prop :=
  available.Pairwise (· < ·) ∧ ∀ name, name ∈ available ↔ holds name

namespace Schema

mutual

/-- A name has a kind inside of loops.  The binding of a loop has the kind of the elements, if the
loop runs over a list. -/
inductive Declares (schema : Schema) : List Enclosing → String → Kind → Prop where
  | field {loops : List Enclosing} {name : String} {kind : Kind}
      (found : Referent.ofName name loops = .field)
      (declared : schema.get? name = some kind) :
      Declares schema loops name kind
  | metadata {loops : List Enclosing} {name : String}
      (found : Referent.ofName name loops = .metadata) :
      Declares schema loops name .scalar
  | element {loops outer : List Enclosing} {name : String} {loop : Enclosing} {kind element : Kind}
      (found : Referent.ofName name loops = .binding loop outer)
      (resolves : Resolves schema outer loop.path kind)
      (list : kind.HasCore (.list element)) :
      Declares schema loops name element

/-- A path refers to a kind inside of loops. -/
inductive Resolves (schema : Schema) : List Enclosing → Path → Kind → Prop where
  | intro {loops : List Enclosing} {path : Path} {first : String} {rest : List String}
      {kind last : Kind}
      (inRange : path.hops ≤ loops.length)
      (segments : path.segments = first :: rest)
      (declares : Declares schema (loops.drop path.hops) first kind)
      (below : kind.below? rest = some last) :
      Resolves schema loops path last

end

/-- The error of a path at the first segment that does not resolve. -/
inductive Unresolved (schema : Schema) (loops : List Enclosing) (path : Path) :
    TypeError → Prop where
  | outOfRange (beyond : loops.length < path.hops) :
      Unresolved schema loops path
        (.navigationOutOfRange path.shown path.hops loops.length)
  | first {first : String} {rest available : List String}
      (inRange : path.hops ≤ loops.length)
      (segments : path.segments = first :: rest)
      (found : Referent.ofName first (loops.drop path.hops) = .field)
      (undeclared : schema.get? first = none)
      (listed : NamesExactly available fun name =>
        Referent.ofName name (loops.drop path.hops) ≠ .field ∨ (schema.get? name).isSome) :
      Unresolved schema loops path (.fieldNotFound first (path.upTo 1).shown available)
  | later {first name : String} {before after available : List String} {kind parent : Kind}
      (inRange : path.hops ≤ loops.length)
      (segments : path.segments = first :: (before ++ name :: after))
      (declares : Declares schema (loops.drop path.hops) first kind)
      (below : kind.below? before = some parent)
      (undeclared : parent.field? name = none)
      (listed : NamesExactly available fun field => (parent.field? field).isSome) :
      Unresolved schema loops path
        (.fieldNotFound name (path.upTo (before.length + 2)).shown available)

end Schema

theorem Metadata.isReserved_iff {name : String} :
    Metadata.isReserved name = true ↔ name ∈ ["index", "first", "last"] := by
  have found : isReserved name = true ↔ ∃ metadata ∈ all, metadata.name = name := by
    simp [isReserved, ofName?]
  rw [found]
  simp [all, Metadata.name, @eq_comm _ name]

theorem NamesExactly.unique
    {first second : List String} {holds : String → Prop}
    (left : NamesExactly first holds) (right : NamesExactly second holds) : first = second := by
  apply List.Pairwise.eq_of_mem_iff left.1 right.1
  intro name
  rw [left.2, right.2]

theorem Scope.pairwise_sortNames (names : List String) : (sortNames names).Pairwise (· < ·) :=
  Entries.ordered_ofList _

@[simp] theorem Scope.mem_sortNames {name : String} {names : List String} :
    name ∈ sortNames names ↔ name ∈ names := by
  have keys : Entries.names (names.map fun name => (name, ())) = names := by
    simp [Entries.names, Function.comp_def]
  rw [sortNames, Entries.mem_names_ofList, keys]

theorem Kind.namesExactly_fieldNames (kind : Kind) :
    NamesExactly kind.fieldNames fun name => (kind.field? name).isSome := by
  simp only [← kind.field?_required]
  unfold fieldNames
  cases required : kind.required with
  | object fields =>
      refine ⟨Scope.pairwise_sortNames _, ?_⟩
      intro name
      rw [Scope.mem_sortNames, Entries.mem_names_iff]
      rfl
  | optional inner => exact absurd required (kind.required_ne_optional inner)
  | scalar | list _ => exact ⟨.nil, by simp [field?]⟩

namespace Resolution

def kind? : Resolution → Option Kind
  | .found kind _ => some kind
  | _ => none

theorem kind?_eq_some_iff {result : Resolution} {kind : Kind} :
    result.kind? = some kind ↔ ∃ marks, result = .found kind marks := by
  cases result <;> simp [kind?]

@[simp] theorem kind?_behind (mark : Bool) (result : Resolution) :
    (result.behind mark).kind? = result.kind? := by
  cases result <;> rfl

end Resolution

namespace Scope

theorem kind?_follow (path : Path) (position : Nat) (kind : Kind) (names : List String) :
    (follow path position kind.required names).kind? =
      (kind.below? names).map Kind.required := by
  induction names generalizing position kind with
  | nil => rfl
  | cons name rest induction =>
      rw [follow_cons, Kind.below?]
      cases kind.field? name with
      | none => rfl
      | some field => simp [induction]

theorem follow_eq_failed_iff
    {path : Path} {position : Nat} {kind : Kind} {names : List String} {error : TypeError} :
    follow path position kind.required names = .failed error ↔
      ∃ before name after parent, names = before ++ name :: after ∧
        kind.below? before = some parent ∧ parent.field? name = none ∧
        error = .fieldNotFound name (path.upTo (before.length + position + 1)).shown
          parent.fieldNames := by
  induction names generalizing position kind with
  | nil => simp [follow]
  | cons name rest induction =>
      rw [follow_cons]
      constructor
      · intro failed
        cases declared : kind.field? name with
        | none =>
            simp only [declared, Resolution.failed.injEq] at failed
            exact ⟨[], name, rest, kind, rfl, rfl, declared, by simpa using failed.symm⟩
        | some field =>
            simp only [declared, Resolution.behind_eq_failed_iff] at failed
            obtain ⟨before, missing, after, parent, split, below, undeclared, same⟩ :=
              induction.mp failed
            refine ⟨name :: before, missing, after, parent, by rw [split]; rfl, ?_, undeclared, ?_⟩
            · simp [Kind.below?, declared, below]
            · rw [same, List.length_cons]
              congr 3
              omega
      · rintro ⟨before, missing, after, parent, split, below, undeclared, rfl⟩
        cases before with
        | nil =>
            obtain ⟨rfl, rfl⟩ := List.cons.inj split
            cases below
            simp [undeclared]
        | cons head before =>
            obtain ⟨rfl, rfl⟩ := List.cons.inj split
            obtain ⟨field, declared, belowField⟩ := Option.bind_eq_some_iff.mp below
            simp only [declared, Resolution.behind_eq_failed_iff]
            refine induction.mpr ⟨before, missing, after, parent, rfl, belowField, undeclared, ?_⟩
            rw [List.length_cons]
            congr 3
            omega

/-- Following names leaves one mark for each of them. -/
theorem marks_of_follow
    {path : Path} {position : Nat} {kind last : Kind} {names : List String} {marks : List Bool}
    (found : follow path position kind.required names = .found last marks) :
    marks.length = names.length ∧ ∀ index < names.length, ∃ field,
      kind.below? (names.take (index + 1)) = some field ∧
        marks[index]? = some field.isOptional := by
  induction names generalizing position kind marks with
  | nil =>
      cases found
      exact ⟨rfl, by simp⟩
  | cons name rest induction =>
      rw [follow_cons] at found
      cases declared : kind.field? name with
      | none => simp [declared] at found
      | some field =>
          simp only [declared] at found
          obtain ⟨later, rfl, below⟩ := Resolution.behind_eq_found_iff.mp found
          obtain ⟨counted, marked⟩ := induction below
          refine ⟨by rw [List.length_cons, List.length_cons, counted], ?_⟩
          intro index bound
          cases index with
          | zero => exact ⟨field, by simp [Kind.below?, declared], rfl⟩
          | succ index =>
              obtain ⟨last, reached, mark⟩ := marked index (Nat.lt_of_succ_lt_succ bound)
              exact ⟨last, by simp [Kind.below?, declared, reached], mark⟩

@[simp] theorem fields_within (schema : Schema) (loops : List Enclosing) :
    (within schema loops).fields = schema.fields := by
  induction loops with
  | nil => rfl
  | cons loop outer induction => simpa [within, enter] using induction

@[simp] theorem length_loops_within (schema : Schema) (loops : List Enclosing) :
    (within schema loops).loops.length = loops.length := by
  induction loops with
  | nil => rfl
  | cons loop outer induction => simp [within, enter, induction]

theorem map_binding_loops_within (schema : Schema) (loops : List Enclosing) :
    (within schema loops).loops.map LoopScope.binding = loops.map Enclosing.binding := by
  induction loops with
  | nil => rfl
  | cons loop outer induction => simp [within, enter, induction]

theorem leave_within (schema : Schema) (loops : List Enclosing) (hops : Nat) :
    (within schema loops).leave hops = within schema (loops.drop hops) := by
  induction loops generalizing hops with
  | nil => simp [leave, within, ofSchema]
  | cons loop outer induction =>
      cases hops with
      | zero => rfl
      | succ hops =>
          rw [List.drop_succ_cons, ← induction]
          simp [leave, within, enter]

theorem find_within (schema : Schema) (loops : List Enclosing) (name : String) :
    (within schema loops).find name =
      match Referent.ofName name loops with
      | .binding loop outer => some ((within schema outer).elementKind loop.path)
      | .metadata => some (some .scalar)
      | .field => (schema.get? name).map some := by
  unfold find
  rw [fields_within]
  induction loops with
  | nil => rfl
  | cons loop outer induction =>
      simp only [within, enter, findIn, Referent.ofName, Metadata.isReserved_iff]
      split
      · rfl
      · split
        · rfl
        · exact induction

end Scope

namespace Referent

theorem exists_append_of_ofName
    {name : String} {loops outer : List Enclosing} {loop : Enclosing}
    (found : ofName name loops = .binding loop outer) :
    ∃ inner, loops = inner ++ loop :: outer := by
  induction loops with
  | nil => cases found
  | cons innermost others induction =>
      unfold ofName at found
      split at found
      · cases found
        exact ⟨[], rfl⟩
      · split at found
        · cases found
        · obtain ⟨inner, rfl⟩ := induction found
          exact ⟨innermost :: inner, rfl⟩

theorem ofName_ne_field_iff {name : String} {loops : List Enclosing} :
    ofName name loops ≠ .field ↔
      name ∈ loops.map Enclosing.binding ∨
        (loops ≠ [] ∧ name ∈ ["index", "first", "last"]) := by
  induction loops with
  | nil => simp [ofName]
  | cons loop outer induction =>
      unfold ofName
      by_cases same : loop.binding = name
      · simp [same]
      · by_cases reserved : name ∈ ["index", "first", "last"]
        · simp [same, reserved]
        · simp [same, reserved, induction, Ne.symm same]

end Referent

namespace Scope

theorem namesExactly_names (schema : Schema) (loops : List Enclosing) :
    NamesExactly (within schema loops).names fun name =>
      Referent.ofName name loops ≠ .field ∨ (schema.get? name).isSome := by
  have isEmpty : (within schema loops).loops.isEmpty = loops.isEmpty := by
    cases loops <;> rfl
  refine ⟨pairwise_sortNames _, ?_⟩
  intro name
  have declared : name ∈ Entries.names schema.fields ↔ (schema.get? name).isSome :=
    Entries.mem_names_iff
  show name ∈ (within schema loops).names ↔
    Referent.ofName name loops ≠ .field ∨ (schema.get? name).isSome
  unfold names
  rw [mem_sortNames, fields_within, map_binding_loops_within, isEmpty, List.mem_append,
    List.mem_append, declared, Referent.ofName_ne_field_iff]
  cases loops with
  | nil => simp
  | cons loop outer => simp [Metadata.all, Metadata.name, or_comm, or_left_comm, or_assoc]

theorem elementKind_eq_some_iff {scope : Scope} {path : Path} {element : Kind} :
    scope.elementKind path = some element ↔
      (scope.resolve path).kind? = some (.list element) := by
  unfold elementKind Resolution.kind?
  cases scope.resolve path with
  | found kind marks => cases kind <;> simp
  | unknown => simp
  | failed error => simp

theorem find_within_iff_of_outer
    {schema : Schema} {loops : List Enclosing} {name : String} {kind : Kind}
    (outside : ∀ outer, outer.length < loops.length → ∀ path list,
      ((within schema outer).resolve path).kind? = some list ↔
        ∃ last, schema.Resolves outer path last ∧ last.HasCore list) :
    (within schema loops).find name = some (some kind) ↔ schema.Declares loops name kind := by
  have shorter {loop : Enclosing} {outer : List Enclosing}
      (found : Referent.ofName name loops = .binding loop outer) :
      outer.length < loops.length := by
    obtain ⟨inner, rfl⟩ := Referent.exists_append_of_ofName found
    simp only [List.length_append, List.length_cons]
    omega
  rw [find_within]
  constructor
  · intro declared
    cases found : Referent.ofName name loops with
    | binding loop outer =>
        simp only [found, Option.some.injEq] at declared
        have resolved := elementKind_eq_some_iff.mp declared
        obtain ⟨last, resolves, list⟩ := (outside outer (shorter found) _ _).mp resolved
        exact .element found resolves list
    | metadata =>
        simp only [found, Option.some.injEq] at declared
        subst declared
        exact .metadata found
    | field =>
        simp only [found, Option.map_eq_some_iff, Option.some.injEq, exists_eq_right] at declared
        exact .field found declared
  · intro declares
    cases declares with
    | field found declared => simp [found, declared]
    | metadata found => simp [found]
    | @element _ outer _ loop last _ found resolves list =>
        have resolved := (outside outer (shorter found) loop.path (.list kind)).mpr
          ⟨last, resolves, list⟩
        simp [found, elementKind_eq_some_iff.mpr resolved]

/-- A scope resolves a path to the kind the path refers to. -/
theorem kind?_resolve_within_iff
    {schema : Schema} {loops : List Enclosing} {path : Path} {kind : Kind} :
    ((within schema loops).resolve path).kind? = some kind ↔
      ∃ last, schema.Resolves loops path last ∧ last.HasCore kind := by
  -- The binding of a loop is looked up through the path of that loop, which has fewer loops
  -- around it.
  induction length : loops.length using Nat.strong_induction_on generalizing loops path kind with
  | _ depth induction =>
      subst length
      have names (first : String) (declared : Kind) :
          ((within schema loops).leave path.hops).find first = some (some declared) ↔
            schema.Declares (loops.drop path.hops) first declared := by
        rw [leave_within]
        apply find_within_iff_of_outer
        intro outer shorter inner list
        rw [List.length_drop] at shorter
        exact induction outer.length (by omega) rfl
      have depth := length_loops_within schema loops
      constructor
      · intro resolved
        obtain ⟨marks, found⟩ := Resolution.kind?_eq_some_iff.mp resolved
        cases resolve_eq_iff.mp found with
        | @declared first rest declared _ inRange segments visible below =>
            rw [found, ← below, Resolution.kind?_behind, kind?_follow] at resolved
            obtain ⟨last, behind, required⟩ := Option.map_eq_some_iff.mp resolved
            exact ⟨last, .intro (depth ▸ inRange) segments ((names first declared).mp visible)
              behind, Kind.hasCore_iff.mpr required⟩
      · rintro ⟨last, resolves, hasCore⟩
        cases resolves with
        | @intro _ _ first rest declared _ inRange segments declares below =>
            rw [resolve_of_declared (by rwa [depth]) segments ((names first declared).mpr declares),
              Resolution.kind?_behind, kind?_follow, below, Option.map_some, hasCore.required_eq]

theorem find_within_iff
    {schema : Schema} {loops : List Enclosing} {name : String} {kind : Kind} :
    (within schema loops).find name = some (some kind) ↔ schema.Declares loops name kind := by
  apply find_within_iff_of_outer
  intro outer _ path list
  exact kind?_resolve_within_iff

theorem find_within_eq_none_iff
    {schema : Schema} {loops : List Enclosing} {name : String} :
    (within schema loops).find name = none ↔
      Referent.ofName name loops = .field ∧ schema.get? name = none := by
  rw [find_within]
  cases Referent.ofName name loops <;> simp

theorem find_within_eq_some_none_iff
    {schema : Schema} {loops : List Enclosing} {name : String} :
    (within schema loops).find name = some none ↔
      ∃ loop outer, Referent.ofName name loops = .binding loop outer ∧
        (within schema outer).elementKind loop.path = none := by
  rw [find_within]
  cases Referent.ofName name loops <;> simp

/-- A scope fails to resolve a path with the error of the path. -/
theorem resolve_within_eq_failed_iff
    {schema : Schema} {loops : List Enclosing} {path : Path} {error : TypeError} :
    (within schema loops).resolve path = .failed error ↔
      schema.Unresolved loops path error := by
  have depth := length_loops_within schema loops
  constructor
  · intro failed
    cases resolve_eq_iff.mp failed with
    | beyond beyond =>
        rw [depth] at beyond ⊢
        exact .outOfRange beyond
    | undeclared inRange segments missing =>
        rw [leave_within] at missing ⊢
        obtain ⟨found, undeclared⟩ := find_within_eq_none_iff.mp missing
        exact .first (depth ▸ inRange) segments found undeclared (namesExactly_names _ _)
    | declared inRange segments visible below =>
        rw [leave_within] at visible
        obtain ⟨before, name, after, parent, rfl, belowBefore, undeclared, rfl⟩ :=
          follow_eq_failed_iff.mp (Resolution.behind_eq_failed_iff.mp below)
        exact .later (depth ▸ inRange) segments (find_within_iff.mp visible) belowBefore undeclared
          parent.namesExactly_fieldNames
  · intro unresolved
    apply resolve_eq_iff.mpr
    cases unresolved with
    | outOfRange beyond =>
        rw [← depth] at beyond ⊢
        exact .beyond beyond
    | first inRange segments found undeclared listed =>
        have missing := find_within_eq_none_iff.mpr ⟨found, undeclared⟩
        rw [listed.unique (namesExactly_names schema _)]
        rw [← leave_within] at missing ⊢
        exact .undeclared (by rwa [depth]) segments missing
    | @later first name before after available kind parent inRange segments declares below
        undeclared listed =>
        have visible := find_within_iff.mpr declares
        rw [← leave_within] at visible
        rw [listed.unique parent.namesExactly_fieldNames]
        refine .declared (by rwa [depth]) segments visible ?_
        apply Resolution.behind_eq_failed_iff.mpr
        exact follow_eq_failed_iff.mpr
          ⟨before, name, after, parent, rfl, below, undeclared, rfl⟩

/-- A path that is found has a mark for each of its segments, which tells whether the kind that the
path refers to up to there may be absent. -/
theorem marks_of_resolve_within
    {schema : Schema} {loops : List Enclosing} {path : Path} {last : Kind} {marks : List Bool}
    (resolved : (within schema loops).resolve path = .found last marks) :
    marks.length = path.segments.length ∧ ∀ index < path.segments.length, ∃ kind,
      schema.Resolves loops (path.upTo (index + 1)) kind ∧
        marks[index]? = some kind.isOptional := by
  cases resolve_eq_iff.mp resolved with
  | @declared first rest start _ inRange segments visible behind =>
      obtain ⟨later, rfl, below⟩ := Resolution.behind_eq_found_iff.mp behind
      obtain ⟨counted, marked⟩ := marks_of_follow below
      rw [length_loops_within] at inRange
      rw [leave_within] at visible
      have declares := find_within_iff.mp visible
      refine ⟨by simp [segments, counted], ?_⟩
      intro index bound
      have within : index < rest.length + 1 := by simpa [segments] using bound
      cases index with
      | zero =>
          have alone : (path.upTo 1).segments = [first] := by
            simp [Path.upTo, segments]
          exact ⟨start, .intro inRange alone declares rfl, rfl⟩
      | succ index =>
          obtain ⟨last, reached, mark⟩ := marked index (Nat.lt_of_succ_lt_succ within)
          exact ⟨last, .intro inRange (by simp [Path.upTo, segments]) declares reached, mark⟩

theorem resolve_within_of_startsAt
    {schema : Schema} {loops outer : List Enclosing} {path : Path} {loop : Enclosing}
    (starts : path.StartsAt loops loop outer)
    (element : (within schema outer).elementKind loop.path = none) :
    (within schema loops).resolve path = .unknown := by
  cases starts with
  | intro inRange segments found =>
      have inError := find_within_eq_some_none_iff.mpr ⟨loop, outer, found, element⟩
      rw [← leave_within] at inError
      exact resolve_eq_iff.mpr (.inError (by rwa [length_loops_within]) segments inError)

theorem startsAt_of_resolve_within
    {schema : Schema} {loops : List Enclosing} {path : Path} (named : path.segments ≠ [])
    (unknown : (within schema loops).resolve path = .unknown) :
    ∃ loop outer, path.StartsAt loops loop outer ∧
      (within schema outer).elementKind loop.path = none := by
  cases resolve_eq_iff.mp unknown with
  | unnamed _ segments => exact absurd segments named
  | inError inRange segments inError =>
      rw [length_loops_within] at inRange
      rw [leave_within] at inError
      obtain ⟨loop, outer, found, element⟩ := find_within_eq_some_none_iff.mp inError
      exact ⟨loop, outer, .intro inRange segments found, element⟩
  | declared _ _ _ below =>
      exact absurd (Resolution.behind_eq_unknown_iff.mp below) (follow_ne_unknown path 1 _ _)

end Scope

namespace Schema

variable {schema : Schema} {loops : List Enclosing} {path : Path}

theorem Declares.unique {name : String} {first second : Kind}
    (left : schema.Declares loops name first) (right : schema.Declares loops name second) :
    first = second := by
  have same := (Scope.find_within_iff.mpr left).symm.trans (Scope.find_within_iff.mpr right)
  exact Option.some.inj (Option.some.inj same)

theorem Resolves.unique {first second : Kind} (left : schema.Resolves loops path first)
    (right : schema.Resolves loops path second) : first = second := by
  cases left with
  | intro _ segments declares below =>
      cases right with
      | intro _ again otherDeclares otherBelow =>
          obtain ⟨rfl, rfl⟩ := List.cons.inj (segments.symm.trans again)
          obtain rfl := declares.unique otherDeclares
          exact Option.some.inj (below.symm.trans otherBelow)

end Schema

end Stencil
