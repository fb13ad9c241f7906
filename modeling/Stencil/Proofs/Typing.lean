import Stencil.Data.Json
import Stencil.Proofs.Paths

/-!
# Well-typed trees

`Node.WellTyped` describes checked trees without the order in which errors are collected: every
reference is in scope, carries the marks of the kinds it passes and refers to a value of the kind
its node needs.  A tree whose paths all have a segment passes the check exactly when its marked
form is well-typed.
-/

namespace Stencil

/-- A scalar, a list or an object is left of a kind without its optional layers. -/
inductive Kind.HasCore : Kind → Kind → Prop where
  | scalar : Kind.HasCore .scalar .scalar
  | list (element : Kind) : Kind.HasCore (.list element) (.list element)
  | object (fields : List (String × Kind)) : Kind.HasCore (.object fields) (.object fields)
  | optional {kind core : Kind} (inner : Kind.HasCore kind core) :
      Kind.HasCore (.optional kind) core

/-- The kind of a field of an object, which may be under optional layers and may have some. -/
def Kind.field? : Kind → String → Option Kind
  | .optional kind, name => kind.field? name
  | .object fields, name => Entries.find? name fields
  | _, _ => none

/-- Steps that follow declared fields from one kind to another.  The mark of a step tells whether
its field may be absent. -/
inductive Kind.Leads : Kind → List Step → Kind → Prop where
  | stay (kind : Kind) : Kind.Leads kind [] kind
  | step {kind field last : Kind} {step : Step} {rest : List Step}
      (declared : kind.field? step.name = some field)
      (marked : step.optional = field.isOptional)
      (below : Kind.Leads field rest last) :
      Kind.Leads kind (step :: rest) last

/-- A marked reference whose first segment is in scope outside of the loops it leaves and whose
other segments follow declared fields. -/
inductive Scope.Refers (scope : Scope) (reference : Reference) : Kind → Prop where
  | intro {first : Step} {rest : List Step} {kind last : Kind}
      (inRange : reference.hops ≤ scope.loops.length)
      (steps : reference.steps = first :: rest)
      (found : (scope.leave reference.hops).find first.name = some (some kind))
      (marked : first.optional = kind.isOptional)
      (leads : kind.Leads rest last) :
      Scope.Refers scope reference last

/-- A sequence of nodes whose references are all in scope, a value being a scalar and a loop
running over a list. -/
inductive Node.WellTyped : Scope → List (Node Reference) → Prop where
  | nil {scope : Scope} : Node.WellTyped scope []
  | text {scope : Scope} {content : String} {rest : List (Node Reference)}
      (later : Node.WellTyped scope rest) :
      Node.WellTyped scope (.text content :: rest)
  | variable {scope : Scope} {reference : Reference} {kind : Kind} {raw : Bool}
      {rest : List (Node Reference)}
      (refers : scope.Refers reference kind)
      (scalar : kind.required = .scalar)
      (later : Node.WellTyped scope rest) :
      Node.WellTyped scope (.variable reference raw :: rest)
  | loop {scope : Scope} {reference : Reference} {kind element : Kind} {binding : String}
      {body rest : List (Node Reference)}
      (refers : scope.Refers reference kind)
      (list : kind.required = .list element)
      (inside : Node.WellTyped (scope.enter binding (some element)) body)
      (later : Node.WellTyped scope rest) :
      Node.WellTyped scope (.loop reference binding body :: rest)
  | conditional {scope : Scope} {reference : Reference} {kind : Kind}
      {thenBranch rest : List (Node Reference)} {elseBranch : Option (List (Node Reference))}
      (refers : scope.Refers reference kind)
      (first : Node.WellTyped scope thenBranch)
      (second : Node.WellTyped scope (elseBranch.getD []))
      (later : Node.WellTyped scope rest) :
      Node.WellTyped scope (.conditional reference thenBranch elseBranch :: rest)

theorem Step.map_name_markAll (names : List String) (marks : List Bool) :
    (Step.markAll names marks).map Step.name = names := by
  induction names generalizing marks with
  | nil => simp [Step.markAll]
  | cons name names induction => cases marks <;> simp [Step.markAll, induction]

@[simp] theorem Path.path_mark (path : Path) (marks : List Bool) :
    (path.mark marks).path = path := by
  simp [Path.mark, Reference.path, Step.map_name_markAll]

@[simp] theorem Scope.path_mark (scope : Scope) (path : Path) :
    (scope.mark path).path = path := by
  unfold Scope.mark
  split <;> simp

namespace Kind

theorem required_ne_optional (kind inner : Kind) : kind.required ≠ .optional inner := by
  cases kind with
  | optional wrapped => exact required_ne_optional wrapped inner
  | scalar | list _ | object _ => simp [required]

theorem hasCore_required : ∀ kind : Kind, kind.HasCore kind.required
  | .scalar => .scalar
  | .list element => .list element
  | .object fields => .object fields
  | .optional kind => .optional kind.hasCore_required

theorem HasCore.required_eq {kind core : Kind} (hasCore : kind.HasCore core) :
    kind.required = core := by
  induction hasCore with
  | scalar | list _ | object _ => rfl
  | optional _ induction => exact induction

theorem hasCore_iff {kind core : Kind} : kind.HasCore core ↔ kind.required = core := by
  constructor
  · exact HasCore.required_eq
  · rintro rfl
    exact kind.hasCore_required

theorem isOptional_iff {kind : Kind} :
    kind.isOptional = true ↔ ∃ inner, kind = .optional inner := by
  cases kind <;> simp [isOptional]

theorem field?_required (kind : Kind) (name : String) :
    kind.required.field? name = kind.field? name := by
  cases kind with
  | optional inner => exact inner.field?_required name
  | scalar | list _ | object _ => rfl

theorem field?_eq_some_iff {kind field : Kind} {name : String} :
    kind.field? name = some field ↔
      ∃ fields, kind.required = .object fields ∧ Entries.find? name fields = some field := by
  rw [← field?_required]
  cases required : kind.required with
  | optional inner => exact absurd required (kind.required_ne_optional inner)
  | scalar | list _ | object _ => simp [field?]

theorem field?_scalar (name : String) : Kind.scalar.field? name = none := rfl

def fieldNames (kind : Kind) : List String :=
  match kind.required with
  | .object fields => Scope.sortNames (Entries.names fields)
  | _ => []

end Kind

namespace Resolution

/-- What is found behind a segment with a mark. -/
def behind (mark : Bool) : Resolution → Resolution
  | .found kind marks => .found kind (mark :: marks)
  | .unknown => .unknown
  | .failed error => .failed error

variable {mark : Bool} {result : Resolution}

theorem behind_eq_found_iff {kind : Kind} {marks : List Bool} :
    result.behind mark = .found kind marks ↔
      ∃ later, marks = mark :: later ∧ result = .found kind later := by
  cases result with
  | found last later =>
      simp only [behind, found.injEq]
      constructor
      · rintro ⟨rfl, rfl⟩
        exact ⟨later, rfl, rfl, rfl⟩
      · rintro ⟨_, rfl, rfl, rfl⟩
        exact ⟨rfl, rfl⟩
  | unknown | failed _ => simp [behind]

@[simp] theorem behind_eq_unknown_iff : result.behind mark = .unknown ↔ result = .unknown := by
  cases result <;> simp [behind]

@[simp] theorem behind_eq_failed_iff {error : TypeError} :
    result.behind mark = .failed error ↔ result = .failed error := by
  cases result <;> simp [behind]

end Resolution

namespace Scope

theorem follow_cons
    (path : Path) (position : Nat) (kind : Kind) (name : String) (rest : List String) :
    follow path position kind.required (name :: rest) =
      match kind.field? name with
      | none =>
          .failed (.fieldNotFound name (path.upTo (position + 1)).shown kind.fieldNames)
      | some field =>
          (follow path (position + 1) field.required rest).behind field.isOptional := by
  rw [← kind.field?_required, Kind.fieldNames, ← path.textUpTo_eq_shown]
  cases required : kind.required with
  | object fields =>
      cases found : Entries.find? name fields with
      | none => simp [follow, Kind.field?, found]
      | some field =>
          simp only [follow, Kind.field?, found]
          cases follow path (position + 1) field.required rest <;> rfl
  | optional inner => exact absurd required (kind.required_ne_optional inner)
  | scalar | list _ => simp [follow, Kind.field?]

/-- What a path resolves to in a scope, case by case. -/
inductive ResolvesTo (scope : Scope) (path : Path) : Resolution → Prop where
  | beyond (beyond : scope.loops.length < path.hops) :
      ResolvesTo scope path
        (.failed (.navigationOutOfRange path.shown path.hops scope.loops.length))
  | unnamed (inRange : path.hops ≤ scope.loops.length) (segments : path.segments = []) :
      ResolvesTo scope path .unknown
  | undeclared {first : String} {rest : List String}
      (inRange : path.hops ≤ scope.loops.length) (segments : path.segments = first :: rest)
      (found : (scope.leave path.hops).find first = none) :
      ResolvesTo scope path
        (.failed (.fieldNotFound first (path.upTo 1).shown (scope.leave path.hops).names))
  | inError {first : String} {rest : List String}
      (inRange : path.hops ≤ scope.loops.length) (segments : path.segments = first :: rest)
      (found : (scope.leave path.hops).find first = some none) :
      ResolvesTo scope path .unknown
  | declared {first : String} {rest : List String} {kind : Kind} {result : Resolution}
      (inRange : path.hops ≤ scope.loops.length) (segments : path.segments = first :: rest)
      (found : (scope.leave path.hops).find first = some (some kind))
      (below : (follow path 1 kind.required rest).behind kind.isOptional = result) :
      ResolvesTo scope path result

theorem resolve_of_declared
    {scope : Scope} {path : Path} {first : String} {rest : List String} {kind : Kind}
    (inRange : path.hops ≤ scope.loops.length) (segments : path.segments = first :: rest)
    (found : (scope.leave path.hops).find first = some (some kind)) :
    scope.resolve path = (follow path 1 kind.required rest).behind kind.isOptional := by
  simp only [resolve, if_neg (Nat.not_lt.mpr inRange), segments, found]
  cases follow path 1 kind.required rest <;> rfl

theorem resolvesTo_resolve (scope : Scope) (path : Path) :
    scope.ResolvesTo path (scope.resolve path) := by
  by_cases beyond : scope.loops.length < path.hops
  · simpa only [resolve, if_pos beyond, path.text_eq_shown] using ResolvesTo.beyond beyond
  · have inRange : path.hops ≤ scope.loops.length := Nat.le_of_not_lt beyond
    cases segments : path.segments with
    | nil => simpa only [resolve, if_neg beyond, segments] using ResolvesTo.unnamed inRange segments
    | cons first rest =>
        cases found : (scope.leave path.hops).find first with
        | none =>
            simpa only [resolve, if_neg beyond, segments, found, path.textUpTo_eq_shown] using
              ResolvesTo.undeclared inRange segments found
        | some element =>
            cases element with
            | none =>
                simpa only [resolve, if_neg beyond, segments, found] using
                  ResolvesTo.inError inRange segments found
            | some kind =>
                exact .declared inRange segments found
                  (resolve_of_declared inRange segments found).symm

theorem resolve_eq_iff {scope : Scope} {path : Path} {result : Resolution} :
    scope.resolve path = result ↔ scope.ResolvesTo path result := by
  constructor
  · rintro rfl
    exact resolvesTo_resolve scope path
  · intro resolves
    cases resolves with
    | beyond beyond => simp [resolve, beyond, path.text_eq_shown]
    | unnamed inRange segments => simp [resolve, Nat.not_lt.mpr inRange, segments]
    | undeclared inRange segments found =>
        simp [resolve, Nat.not_lt.mpr inRange, segments, found, path.textUpTo_eq_shown]
    | inError inRange segments found => simp [resolve, Nat.not_lt.mpr inRange, segments, found]
    | declared inRange segments found below =>
        rw [resolve_of_declared inRange segments found, below]

theorem follow_ne_unknown (path : Path) (position : Nat) (kind : Kind) (names : List String) :
    follow path position kind.required names ≠ .unknown := by
  induction names generalizing position kind with
  | nil => simp [follow]
  | cons name rest induction =>
      rw [follow_cons]
      cases kind.field? name with
      | none => simp
      | some field => simpa using induction (position + 1) field

theorem leads_of_follow
    {path : Path} {position : Nat} {kind last : Kind} {names : List String} {marks : List Bool}
    (found : follow path position kind.required names = .found last marks) :
    ∃ final, kind.Leads (Step.markAll names marks) final ∧ final.required = last := by
  induction names generalizing position kind marks with
  | nil =>
      simp only [follow, Resolution.found.injEq] at found
      obtain ⟨rfl, rfl⟩ := found
      exact ⟨kind, .stay kind, rfl⟩
  | cons name rest induction =>
      rw [follow_cons] at found
      cases declared : kind.field? name with
      | none => simp [declared] at found
      | some field =>
          simp only [declared] at found
          obtain ⟨later, rfl, below⟩ := Resolution.behind_eq_found_iff.mp found
          obtain ⟨final, leads, required⟩ := induction below
          exact ⟨final, .step declared rfl leads, required⟩

theorem follow_of_leads
    {kind final : Kind} {steps : List Step} (leads : kind.Leads steps final)
    (path : Path) (position : Nat) :
    follow path position kind.required (steps.map Step.name) =
      .found final.required (steps.map Step.optional) := by
  induction leads generalizing position with
  | stay kind => rfl
  | @step kind field last step rest declared marked below induction =>
      rw [List.map_cons, List.map_cons, follow_cons, declared, marked]
      simp only [induction, Resolution.behind]

/-- What resolves is a reference once it is marked. -/
theorem refers_of_resolve
    {scope : Scope} {path : Path} {last : Kind} {marks : List Bool}
    (resolved : scope.resolve path = .found last marks) :
    ∃ kind, scope.Refers (path.mark marks) kind ∧ kind.required = last := by
  cases resolve_eq_iff.mp resolved with
  | @declared first rest kind _ inRange segments found behind =>
      obtain ⟨later, rfl, below⟩ := Resolution.behind_eq_found_iff.mp behind
      obtain ⟨final, leads, required⟩ := leads_of_follow below
      have steps : (path.mark (kind.isOptional :: later)).steps =
          { name := first, optional := kind.isOptional } :: Step.markAll rest later := by
        simp [Path.mark, segments, Step.markAll]
      exact ⟨final, .intro inRange steps found rfl leads, required⟩

theorem Refers.resolve
    {scope : Scope} {reference : Reference} {kind : Kind}
    (refers : scope.Refers reference kind) :
    scope.resolve reference.path =
      .found kind.required (reference.steps.map Step.optional) := by
  cases refers with
  | @intro first rest declared last inRange steps found marked leads =>
      have segments : reference.path.segments = first.name :: rest.map Step.name := by
        simp [Reference.path, steps]
      rw [resolve_of_declared inRange segments found, follow_of_leads leads, steps,
        List.map_cons, marked]
      rfl

theorem Refers.elementKind
    {scope : Scope} {reference : Reference} {kind element : Kind}
    (refers : scope.Refers reference kind) (list : kind.required = .list element) :
    scope.elementKind reference.path = some element := by
  simp [Scope.elementKind, refers.resolve, list]

/-- A scope none of whose loops has its list in error. -/
def Known (scope : Scope) : Prop :=
  ∀ loop ∈ scope.loops, loop.element ≠ none

theorem known_ofSchema (schema : Schema) : (ofSchema schema).Known := by
  intro loop member
  simp [ofSchema] at member

theorem Known.enter
    {scope : Scope} (known : scope.Known) (binding : String) (element : Kind) :
    (scope.enter binding (some element)).Known := by
  intro loop member
  rcases List.mem_cons.mp member with rfl | outer
  · simp
  · exact known loop outer

theorem findIn_ne_some_none
    (fields : List (String × Kind)) (name : String) {loops : List LoopScope}
    (known : ∀ loop ∈ loops, loop.element ≠ none) :
    findIn fields name loops ≠ some none := by
  induction loops with
  | nil =>
      unfold findIn
      cases Entries.find? name fields <;> simp
  | cons innermost outer induction =>
      unfold findIn
      split
      · have element := known innermost List.mem_cons_self
        simpa using element
      · split
        · simp
        · exact induction fun loop member => known loop (List.mem_cons_of_mem _ member)

/-- Where all lists are known, only a path without segments resolves to nothing. -/
theorem Known.resolve_ne_unknown
    {scope : Scope} (known : scope.Known) {path : Path} (named : path.segments ≠ []) :
    scope.resolve path ≠ .unknown := by
  have visible : ∀ loop ∈ (scope.leave path.hops).loops, loop.element ≠ none := by
    intro loop member
    exact known loop (List.mem_of_mem_drop member)
  intro unknown
  cases resolve_eq_iff.mp unknown with
  | unnamed _ segments => exact named segments
  | inError _ _ found => exact findIn_ne_some_none scope.fields _ visible found
  | declared _ _ _ below =>
      exact follow_ne_unknown path 1 _ _ (Resolution.behind_eq_unknown_iff.mp below)

end Scope

namespace Node

section

variable {scope : Scope} {path : Path}

theorem variable_of_no_errors
    (known : scope.Known) (named : path.segments ≠ [])
    (correct : scope.variableErrors path = []) :
    ∃ kind, scope.Refers (scope.mark path) kind ∧ kind.required = .scalar := by
  cases resolved : scope.resolve path with
  | unknown => exact absurd resolved (known.resolve_ne_unknown named)
  | failed error => simp [Scope.variableErrors, resolved] at correct
  | found last marks =>
      obtain ⟨kind, refers, required⟩ := Scope.refers_of_resolve resolved
      have scalar : last = .scalar := by
        cases last with
        | scalar => rfl
        | list _ | object _ | optional _ => simp [Scope.variableErrors, resolved] at correct
      exact ⟨kind, by simpa [Scope.mark, resolved] using refers, required.trans scalar⟩

theorem loop_of_no_errors
    (known : scope.Known) (named : path.segments ≠ [])
    (correct : scope.loopErrors path = []) :
    ∃ kind element, scope.Refers (scope.mark path) kind ∧ kind.required = .list element ∧
      scope.elementKind path = some element := by
  cases resolved : scope.resolve path with
  | unknown => exact absurd resolved (known.resolve_ne_unknown named)
  | failed error => simp [Scope.loopErrors, resolved] at correct
  | found last marks =>
      obtain ⟨kind, refers, required⟩ := Scope.refers_of_resolve resolved
      cases last with
      | list element =>
          exact ⟨kind, element, by simpa [Scope.mark, resolved] using refers, required,
            by simp [Scope.elementKind, resolved]⟩
      | scalar | object _ | optional _ => simp [Scope.loopErrors, resolved] at correct

theorem condition_of_no_errors
    (known : scope.Known) (named : path.segments ≠ [])
    (correct : scope.conditionErrors path = []) :
    ∃ kind, scope.Refers (scope.mark path) kind := by
  cases resolved : scope.resolve path with
  | unknown => exact absurd resolved (known.resolve_ne_unknown named)
  | failed error => simp [Scope.conditionErrors, resolved] at correct
  | found last marks =>
      obtain ⟨kind, refers, _⟩ := Scope.refers_of_resolve resolved
      exact ⟨kind, by simpa [Scope.mark, resolved] using refers⟩

end

/-- A sequence of nodes without type errors is well-typed once it is marked. -/
theorem wellTyped_of_no_errors
    {scope : Scope} {nodes : List (Node Path)} (known : scope.Known)
    (named : ∀ path ∈ pathsAll nodes, path.segments ≠ [])
    (correct : typeErrorsAll scope nodes = []) :
    WellTyped scope (markAll scope nodes) := by
  induction nodes using sequence_induction generalizing scope with
  | nil =>
      rw [markAll]
      exact .nil
  | text content rest later =>
      rw [markAll, mark]
      exact .text (later known (by simpa [pathsAll, paths] using named)
        (by simpa [typeErrorsAll, typeErrors] using correct))
  | «variable» path raw rest later =>
      simp only [pathsAll, paths, List.cons_append, List.nil_append,
        List.forall_mem_cons] at named
      simp only [typeErrorsAll, typeErrors, List.append_eq_nil_iff] at correct
      obtain ⟨kind, refers, scalar⟩ := variable_of_no_errors known named.1 correct.1
      rw [markAll, mark]
      exact .variable refers scalar (later known named.2 correct.2)
  | loop path binding body rest inside later =>
      simp only [pathsAll, paths, List.cons_append, List.forall_mem_cons,
        List.forall_mem_append] at named
      simp only [typeErrorsAll, typeErrors, List.append_eq_nil_iff] at correct
      obtain ⟨kind, element, refers, list, elementKind⟩ :=
        loop_of_no_errors known named.1 correct.1.1
      rw [elementKind] at correct
      rw [markAll, mark, elementKind]
      exact .loop refers list
        (inside (known.enter binding element) named.2.1 correct.1.2)
        (later known named.2.2 correct.2)
  | conditional path thenBranch elseBranch rest first second later =>
      simp only [pathsAll, paths_conditional, List.cons_append, List.append_assoc,
        List.forall_mem_cons, List.forall_mem_append] at named
      simp only [typeErrorsAll, typeErrors_conditional, List.append_eq_nil_iff] at correct
      obtain ⟨kind, refers⟩ := condition_of_no_errors known named.1 correct.1.1.1
      have secondTyped := second known named.2.2.1 correct.1.2
      rw [markAll, mark_conditional]
      exact .conditional refers (first known named.2.1 correct.1.1.2)
        (by rwa [getD_map_markAll]) (later known named.2.2.2 correct.2)

/-- A sequence of nodes that is well-typed once it is marked has no type errors. -/
theorem no_errors_of_wellTyped
    {scope : Scope} {nodes : List (Node Path)}
    (typed : WellTyped scope (markAll scope nodes)) :
    typeErrorsAll scope nodes = [] := by
  induction nodes using sequence_induction generalizing scope with
  | nil => simp [typeErrorsAll]
  | text content rest later =>
      rw [markAll, mark] at typed
      cases typed with
      | text restTyped => simp [typeErrorsAll, typeErrors, later restTyped]
  | «variable» path raw rest later =>
      rw [markAll, mark] at typed
      cases typed with
      | «variable» refers scalar restTyped =>
          have resolved := refers.resolve
          rw [Scope.path_mark, scalar] at resolved
          simp [typeErrorsAll, typeErrors, Scope.variableErrors, resolved, later restTyped]
  | loop path binding body rest inside later =>
      rw [markAll, mark] at typed
      cases typed with
      | loop refers list bodyTyped restTyped =>
          have elementKind := refers.elementKind list
          have resolved := refers.resolve
          rw [Scope.path_mark] at elementKind resolved
          rw [elementKind] at bodyTyped
          simp [typeErrorsAll, typeErrors, Scope.loopErrors, resolved, list, elementKind,
            inside bodyTyped, later restTyped]
  | conditional path thenBranch elseBranch rest first second later =>
      rw [markAll, mark_conditional] at typed
      cases typed with
      | conditional refers firstTyped secondTyped restTyped =>
          have resolved := refers.resolve
          rw [Scope.path_mark] at resolved
          rw [getD_map_markAll] at secondTyped
          simp [typeErrorsAll, typeErrors_conditional, Scope.conditionErrors, resolved,
            first firstTyped, second secondTyped, later restTyped]

end Node

theorem Template.check_eq_ok_iff
    {nodes : List (Node Path)} {schema : Schema} {template : Template} :
    Template.check nodes schema = .ok template ↔
      Node.typeErrorsAll (Scope.ofSchema schema) nodes = [] ∧
        template = { nodes := Node.markAll (Scope.ofSchema schema) nodes, schema } := by
  unfold check
  cases errors : Node.typeErrorsAll (Scope.ofSchema schema) nodes with
  | nil => simp [errors, eq_comm]
  | cons error rest => simp [errors]

/-- An accepted tree whose paths all have a segment is well-typed outside of all loops. -/
theorem Template.wellTyped_of_check
    {nodes : List (Node Path)} {schema : Schema} {template : Template}
    (accepted : Template.check nodes schema = .ok template)
    (named : ∀ path ∈ Node.pathsAll nodes, path.segments ≠ []) :
    Node.WellTyped (Scope.ofSchema schema) template.nodes := by
  obtain ⟨correct, rfl⟩ := check_eq_ok_iff.mp accepted
  exact Node.wellTyped_of_no_errors (Scope.known_ofSchema schema) named correct

def agendaSchema : Schema where
  fields :=
    [ ("days", .list (.object
        [("room", .optional (.object [("name", .scalar)])), ("talks", .list .scalar)])),
      ("title", .scalar) ]

/-- The agenda of a meeting, a sample for statements about accepted trees.  The binding of its inner
loop hides a field, the room of a day may be absent, and paths leave one loop. -/
def agenda : List (Node Path) :=
  [ .variable { hops := 0, segments := ["title"] } false,
    .loop { hops := 0, segments := ["days"] } "day"
      [ .conditional { hops := 0, segments := ["day", "room"] }
          [.variable { hops := 0, segments := ["day", "room", "name"] } false]
          (some [.text "?"]),
        .loop { hops := 0, segments := ["day", "talks"] } "title"
          [ .variable { hops := 0, segments := ["title"] } false,
            .variable { hops := 1, segments := ["title"] } true,
            .conditional { hops := 1, segments := ["last"] } [.text "."] none ] ] ]

def agendaTemplate : Template where
  nodes := Node.markAll (Scope.ofSchema agendaSchema) agenda
  schema := agendaSchema

/-- Two days, the second of them without a room and without talks. -/
def agendaData : Json :=
  .object
    [ ("days", .array
        [ .object
            [("room", .object [("name", .string "A & B")]),
              ("talks", .array [.string "opening", .bool true])],
          .object [("talks", .array [])] ]),
      ("title", .string "Meeting") ]

/-- The data of the agenda with notes that its schema does not declare, beside the days, in a day,
in a room and in the place of a name. -/
def annotatedAgendaData (note : Json) : Json :=
  .object
    [ ("days", .array
        [ .object
            [("note", note),
              ("room", .object [("name", .object [("note", note)]), ("note", note)]),
              ("talks", .array [.string "opening", .bool true])] ]),
      ("note", note),
      ("title", .string "Meeting") ]

theorem agenda_accepted : Template.check agenda agendaSchema = .ok agendaTemplate := rfl

theorem agenda_named : ∀ path ∈ Node.pathsAll agenda, path.segments ≠ [] := by decide

end Stencil
