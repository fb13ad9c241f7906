import Stencil.Proofs.Referents

/-!
# What a check reports

An occurrence breaks the schema, fits it or is silenced by a loop around it whose own list is in
error.  A check reports the errors of the occurrences that break the schema, in the order of the
text, and accepts a tree without any.
-/

namespace Stencil

/-- Whether a use takes a value of a kind, which is none of those that may be absent. -/
def Use.Takes : Use → Kind → Prop
  | .output, kind => kind = .scalar
  | .iteration, kind => ∃ element, kind = .list element
  | .decision, _ => True

namespace Occurrence

/-- The error of an occurrence that does not fit the schema. -/
inductive Breaks (schema : Schema) (occurrence : Occurrence) : TypeError → Prop where
  | unresolved {error : TypeError}
      (unresolved : schema.Unresolved occurrence.loops occurrence.path error) :
      Breaks schema occurrence error
  | notScalar {kind core : Kind}
      (output : occurrence.use = .output)
      (resolves : schema.Resolves occurrence.loops occurrence.path kind)
      (hasCore : kind.HasCore core)
      (other : ¬ Use.output.Takes core) :
      Breaks schema occurrence (.notInterpolable occurrence.path.shown core.text)
  | notList {kind core : Kind}
      (iteration : occurrence.use = .iteration)
      (resolves : schema.Resolves occurrence.loops occurrence.path kind)
      (hasCore : kind.HasCore core)
      (other : ¬ Use.iteration.Takes core) :
      Breaks schema occurrence (.notIterable occurrence.path.shown "list" core.text)

/-- An occurrence that starts at the binding of a loop whose own path broke the schema or was
silenced. -/
inductive Silenced (schema : Schema) : Occurrence → Prop where
  | byError {occurrence : Occurrence} {loop : Enclosing} {outer : List Enclosing}
      {error : TypeError}
      (starts : occurrence.path.StartsAt occurrence.loops loop outer)
      (breaks : (loop.occurrence outer).Breaks schema error) :
      Silenced schema occurrence
  | bySilence {occurrence : Occurrence} {loop : Enclosing} {outer : List Enclosing}
      (starts : occurrence.path.StartsAt occurrence.loops loop outer)
      (silenced : Silenced schema (loop.occurrence outer)) :
      Silenced schema occurrence

/-- An occurrence that refers to a kind its use takes. -/
def Fits (schema : Schema) (occurrence : Occurrence) : Prop :=
  ∃ kind core, schema.Resolves occurrence.loops occurrence.path kind ∧ kind.HasCore core ∧
    occurrence.use.Takes core

end Occurrence

/-- The errors of occurrences, in their order. -/
inductive Schema.Reports (schema : Schema) : List Occurrence → List TypeError → Prop where
  | nil : Schema.Reports schema [] []
  | silenced {occurrence : Occurrence} {rest : List Occurrence} {errors : List TypeError}
      (silenced : occurrence.Silenced schema)
      (later : Schema.Reports schema rest errors) :
      Schema.Reports schema (occurrence :: rest) errors
  | fits {occurrence : Occurrence} {rest : List Occurrence} {errors : List TypeError}
      (fits : occurrence.Fits schema)
      (later : Schema.Reports schema rest errors) :
      Schema.Reports schema (occurrence :: rest) errors
  | breaks {occurrence : Occurrence} {rest : List Occurrence} {error : TypeError}
      {errors : List TypeError}
      (breaks : occurrence.Breaks schema error)
      (later : Schema.Reports schema rest errors) :
      Schema.Reports schema (occurrence :: rest) (error :: errors)

theorem Schema.Resolves.exists_resolve_within
    {schema : Schema} {loops : List Enclosing} {path : Path} {kind core : Kind}
    (resolves : schema.Resolves loops path kind) (hasCore : kind.HasCore core) :
    ∃ marks, (Scope.within schema loops).resolve path = .found core marks := by
  apply Resolution.kind?_eq_some_iff.mp
  exact Scope.kind?_resolve_within_iff.mpr ⟨kind, resolves, hasCore⟩

theorem Scope.resolves_of_resolve_within
    {schema : Schema} {loops : List Enclosing} {path : Path} {kind : Kind} {marks : List Bool}
    (found : (within schema loops).resolve path = .found kind marks) :
    ∃ last, schema.Resolves loops path last ∧ last.HasCore kind := by
  apply Scope.kind?_resolve_within_iff.mp
  exact Resolution.kind?_eq_some_iff.mpr ⟨marks, found⟩

namespace Use

theorem mismatch?_eq_none_iff {use : Use} {path : Path} {kind : Kind} :
    use.mismatch? path kind = none ↔ use.Takes kind := by
  cases use <;> cases kind <;> simp [mismatch?, Takes]

theorem mismatch?_output {path : Path} {kind : Kind} (other : ¬ Use.output.Takes kind) :
    Use.output.mismatch? path kind = some (.notInterpolable path.shown kind.text) := by
  rw [← path.text_eq_shown]
  cases kind with
  | scalar => exact absurd rfl other
  | list _ | object _ | optional _ => rfl

theorem mismatch?_iteration {path : Path} {kind : Kind} (other : ¬ Use.iteration.Takes kind) :
    Use.iteration.mismatch? path kind = some (.notIterable path.shown "list" kind.text) := by
  rw [← path.text_eq_shown]
  cases kind with
  | list element => exact absurd ⟨element, rfl⟩ other
  | scalar | object _ | optional _ => rfl

end Use

namespace Occurrence

theorem breaks_of_mismatch?
    {schema : Schema} {occurrence : Occurrence} {kind core : Kind} {error : TypeError}
    (resolves : schema.Resolves occurrence.loops occurrence.path kind)
    (hasCore : kind.HasCore core)
    (mismatch : occurrence.use.mismatch? occurrence.path core = some error) :
    occurrence.Breaks schema error := by
  have other : ¬ occurrence.use.Takes core := by
    intro takes
    rw [Use.mismatch?_eq_none_iff.mpr takes] at mismatch
    cases mismatch
  cases use : occurrence.use with
  | output =>
      rw [use] at mismatch other
      rw [Use.mismatch?_output other] at mismatch
      cases mismatch
      exact .notScalar use resolves hasCore other
  | iteration =>
      rw [use] at mismatch other
      rw [Use.mismatch?_iteration other] at mismatch
      cases mismatch
      exact .notList use resolves hasCore other
  | decision =>
      rw [use] at other
      exact absurd trivial other

theorem error?_eq_some_iff
    {schema : Schema} {occurrence : Occurrence} {error : TypeError} :
    occurrence.error? schema = some error ↔ occurrence.Breaks schema error := by
  unfold error? Scope.error?
  constructor
  · intro reported
    cases resolved : (Scope.within schema occurrence.loops).resolve occurrence.path with
    | found kind marks =>
        rw [resolved] at reported
        obtain ⟨last, resolves, hasCore⟩ := Scope.resolves_of_resolve_within resolved
        exact breaks_of_mismatch? resolves hasCore reported
    | unknown =>
        rw [resolved] at reported
        cases reported
    | failed failure =>
        rw [resolved] at reported
        cases reported
        exact .unresolved (Scope.resolve_within_eq_failed_iff.mp resolved)
  · intro breaks
    cases breaks with
    | unresolved unresolved => rw [Scope.resolve_within_eq_failed_iff.mpr unresolved]
    | notScalar output resolves hasCore other =>
        obtain ⟨marks, resolved⟩ := resolves.exists_resolve_within hasCore
        rw [resolved, output]
        exact Use.mismatch?_output other
    | notList iteration resolves hasCore other =>
        obtain ⟨marks, resolved⟩ := resolves.exists_resolve_within hasCore
        rw [resolved, iteration]
        exact Use.mismatch?_iteration other

theorem elementKind_eq_none_iff
    {schema : Schema} {loop : Enclosing} {outer : List Enclosing} :
    (Scope.within schema outer).elementKind loop.path = none ↔
      (∃ error, (loop.occurrence outer).Breaks schema error) ∨
        (Scope.within schema outer).resolve loop.path = .unknown := by
  simp only [← error?_eq_some_iff]
  unfold Scope.elementKind error? Scope.error? Enclosing.occurrence
  cases (Scope.within schema outer).resolve loop.path with
  | found kind marks => cases kind <;> simp [Use.mismatch?]
  | unknown => simp
  | failed error => simp

theorem resolve_eq_unknown_of_silenced
    {schema : Schema} {occurrence : Occurrence} (silenced : occurrence.Silenced schema) :
    (Scope.within schema occurrence.loops).resolve occurrence.path = .unknown := by
  induction silenced with
  | byError starts breaks =>
      apply Scope.resolve_within_of_startsAt starts
      exact elementKind_eq_none_iff.mpr (.inl ⟨_, breaks⟩)
  | bySilence starts _ induction =>
      apply Scope.resolve_within_of_startsAt starts
      exact elementKind_eq_none_iff.mpr (.inr induction)

theorem Named.outside
    {occurrence : Occurrence} (named : occurrence.Named) {loop : Enclosing}
    {outer : List Enclosing} (starts : occurrence.path.StartsAt occurrence.loops loop outer) :
    (loop.occurrence outer).Named ∧ outer.length < occurrence.loops.length := by
  cases starts with
  | intro inRange segments found =>
      obtain ⟨inner, visible⟩ := Referent.exists_append_of_ofName found
      have around : ∀ other ∈ loop :: outer, other ∈ occurrence.loops := by
        intro other member
        apply List.mem_of_mem_drop (i := occurrence.path.hops)
        rw [visible]
        exact List.mem_append_right inner member
      refine ⟨⟨?_, ?_⟩, ?_⟩
      · exact named.loops loop (around loop List.mem_cons_self)
      · intro other member
        exact named.loops other (around other (List.mem_cons_of_mem loop member))
      · have length := congrArg List.length visible
        rw [List.length_drop, List.length_append, List.length_cons] at length
        omega

theorem silenced_of_resolve_eq_unknown
    {schema : Schema} {occurrence : Occurrence} (named : occurrence.Named)
    (unknown : (Scope.within schema occurrence.loops).resolve occurrence.path = .unknown) :
    occurrence.Silenced schema := by
  -- The loop whose binding the path starts at has fewer loops around it.
  induction length : occurrence.loops.length using Nat.strong_induction_on
    generalizing occurrence with
  | _ depth induction =>
      subst length
      obtain ⟨loop, outer, starts, element⟩ :=
        Scope.startsAt_of_resolve_within named.path unknown
      obtain ⟨outside, shorter⟩ := named.outside starts
      rcases elementKind_eq_none_iff.mp element with ⟨error, breaks⟩ | silent
      · exact .byError starts breaks
      · exact .bySilence starts (induction outer.length shorter outside silent rfl)

theorem error?_eq_none_iff
    {schema : Schema} {occurrence : Occurrence} (named : occurrence.Named) :
    occurrence.error? schema = none ↔
      occurrence.Silenced schema ∨ occurrence.Fits schema := by
  unfold error? Scope.error?
  constructor
  · intro quiet
    cases resolved : (Scope.within schema occurrence.loops).resolve occurrence.path with
    | found kind marks =>
        rw [resolved] at quiet
        obtain ⟨last, resolves, hasCore⟩ := Scope.resolves_of_resolve_within resolved
        exact .inr ⟨last, kind, resolves, hasCore, Use.mismatch?_eq_none_iff.mp quiet⟩
    | unknown => exact .inl (silenced_of_resolve_eq_unknown named resolved)
    | failed error =>
        rw [resolved] at quiet
        cases quiet
  · rintro (silenced | ⟨kind, core, resolves, hasCore, takes⟩)
    · rw [resolve_eq_unknown_of_silenced silenced]
    · obtain ⟨marks, resolved⟩ := resolves.exists_resolve_within hasCore
      rw [resolved]
      exact Use.mismatch?_eq_none_iff.mpr takes

end Occurrence

theorem Schema.reports_iff
    {schema : Schema} {occurrences : List Occurrence} {errors : List TypeError}
    (named : ∀ occurrence ∈ occurrences, occurrence.Named) :
    schema.Reports occurrences errors ↔
      errors = occurrences.filterMap (Occurrence.error? schema) := by
  constructor
  · intro reports
    induction reports with
    | nil => rfl
    | silenced silenced _ induction =>
        obtain ⟨first, further⟩ := List.forall_mem_cons.mp named
        have quiet := (Occurrence.error?_eq_none_iff first).mpr (.inl silenced)
        rw [List.filterMap_cons_none quiet]
        exact induction further
    | fits fits _ induction =>
        obtain ⟨first, further⟩ := List.forall_mem_cons.mp named
        have quiet := (Occurrence.error?_eq_none_iff first).mpr (.inr fits)
        rw [List.filterMap_cons_none quiet]
        exact induction further
    | breaks breaks _ induction =>
        obtain ⟨_, further⟩ := List.forall_mem_cons.mp named
        rw [List.filterMap_cons_some (Occurrence.error?_eq_some_iff.mpr breaks)]
        rw [induction further]
  · rintro rfl
    induction occurrences with
    | nil => exact .nil
    | cons occurrence rest induction =>
        obtain ⟨first, further⟩ := List.forall_mem_cons.mp named
        cases reported : occurrence.error? schema with
        | none =>
            rw [List.filterMap_cons_none reported]
            rcases (Occurrence.error?_eq_none_iff first).mp reported with silenced | fits
            · exact .silenced silenced (induction further)
            · exact .fits fits (induction further)
        | some error =>
            rw [List.filterMap_cons_some reported]
            exact .breaks (Occurrence.error?_eq_some_iff.mp reported) (induction further)

/-- A check reports one list of errors, that of the occurrences which break the schema, and accepts
the tree exactly when it is empty. -/
theorem Template.check_reports_invalid_paths
    {nodes : List (Node Path)} (named : ∀ path ∈ Node.pathsAll nodes, path.segments ≠ [])
    (schema : Schema) :
    ∃ errors,
      (∀ reported, schema.Reports (Node.occurrencesAll [] nodes) reported ↔ reported = errors) ∧
      (errors = [] → Template.check nodes schema =
        .ok { nodes := Node.markAll (Scope.ofSchema schema) nodes, schema }) ∧
      (errors ≠ [] → Template.check nodes schema = .error errors) := by
  have everyNamed : ∀ occurrence ∈ Node.occurrencesAll [] nodes, occurrence.Named :=
    Node.named_of_mem_occurrencesAll (by simp) named
  have collected : Node.typeErrorsAll (Scope.ofSchema schema) nodes =
      (Node.occurrencesAll [] nodes).filterMap (Occurrence.error? schema) :=
    Node.typeErrorsAll_within schema [] nodes
  refine ⟨Node.typeErrorsAll (Scope.ofSchema schema) nodes, ?_, ?_, ?_⟩
  · intro reported
    rw [collected]
    exact Schema.reports_iff everyNamed
  · intro correct
    exact check_eq_ok_iff.mpr ⟨correct, rfl⟩
  · intro incorrect
    unfold check
    cases errors : Node.typeErrorsAll (Scope.ofSchema schema) nodes with
    | nil => exact absurd errors incorrect
    | cons error rest => simp [errors]

/-- An agenda with a chair, of which most parts may be absent. -/
def looseAgendaSchema : Schema where
  fields :=
    [ ("chair", .optional (.object
        [("name", .optional .scalar), ("phones", .optional (.list (.optional .scalar)))])),
      ("days", .optional (.list (.object
        [ ("room", .optional (.object [("floor", .optional (.object [("name", .scalar)]))])),
          ("talks", .optional (.list .scalar)) ]))),
      ("title", .optional .scalar) ]

/-- A draft of this agenda whose first loop runs over its title.  The loop inside of that one and
the paths that start at the binding of one of the two are silenced, the other paths in it are not.
Two paths fail before their last segment. -/
def draftAgenda : List (Node Path) :=
  [ .loop { hops := 0, segments := ["title"] } "line"
      [ .loop { hops := 0, segments := ["line", "words"] } "word"
          [ .variable { hops := 0, segments := ["word"] } false,
            .variable { hops := 1, segments := ["line", "text"] } false,
            .variable { hops := 0, segments := ["index"] } false,
            .variable { hops := 0, segments := ["titel"] } false ] ],
    .loop { hops := 0, segments := ["days"] } "day"
      [ .variable { hops := 0, segments := ["day", "room", "floor", "number", "digits"] } false,
        .loop { hops := 0, segments := ["day", "talks"] } "talk"
          [ .variable { hops := 0, segments := ["talk"] } false,
            .variable { hops := 2, segments := ["chair", "phones", "first", "prefix"] } true,
            .conditional { hops := 1, segments := ["day", "room", "floor"] } [] none ] ],
    .variable { hops := 0, segments := ["days"] } false,
    .variable { hops := 0, segments := ["chair"] } false,
    .variable { hops := 0, segments := ["chair", "name"] } false,
    .variable { hops := 0, segments := ["chair", "phones"] } false,
    .conditional { hops := 1, segments := ["title"] } []
      (some [.variable { hops := 0, segments := ["days", "room"] } false]) ]

def draftAgendaErrors : List TypeError :=
  [ .notIterable ".title" "list" "scalar",
    .fieldNotFound "titel" ".titel"
      ["chair", "days", "first", "index", "last", "line", "title", "word"],
    .fieldNotFound "number" ".day.room.floor.number" ["name"],
    .fieldNotFound "first" "../../chair.phones.first" [],
    .notInterpolable ".days" "list of object",
    .notInterpolable ".chair" "object",
    .notInterpolable ".chair.phones" "list of optional scalar",
    .navigationOutOfRange "../title" 1 0,
    .fieldNotFound "room" ".days.room" [] ]

theorem draftAgenda_reported :
    (∀ path ∈ Node.pathsAll draftAgenda, path.segments ≠ []) ∧
      looseAgendaSchema.Reports (Node.occurrencesAll [] draftAgenda) draftAgendaErrors ∧
      Template.check draftAgenda looseAgendaSchema = .error draftAgendaErrors := by
  have named : ∀ path ∈ Node.pathsAll draftAgenda, path.segments ≠ [] := by decide
  have checked : Template.check draftAgenda looseAgendaSchema = .error draftAgendaErrors := rfl
  obtain ⟨errors, reports, accepted, rejected⟩ :=
    Template.check_reports_invalid_paths named looseAgendaSchema
  have incorrect : errors ≠ [] := by
    intro correct
    have impossible := checked.symm.trans (accepted correct)
    cases impossible
  have same : draftAgendaErrors = errors := by
    have equal := checked.symm.trans (rejected incorrect)
    exact Except.error.inj equal
  exact ⟨named, (reports draftAgendaErrors).mpr same, checked⟩

end Stencil
