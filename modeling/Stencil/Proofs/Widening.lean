import Mathlib
import Stencil.Proofs.Lookup
import Stencil.Proofs.Loops
import Stencil.Proofs.Parsing
import Stencil.Proofs.Rendering

/-!
# Wider schemas

A kind becomes wider when fields are added to its objects and when anything in it may be absent
that could not be before.  A tree that is accepted for a schema is accepted for every wider one.
Its marks then allow for more absence and change nothing else, so that all data which it renders
completely is rendered to the same text.
-/

namespace Stencil

namespace Kind

/-- The kind has all that another one has, and more may be absent. -/
inductive Widens : Kind → Kind → Prop where
  | scalar : Widens .scalar .scalar
  | list {kind wider : Kind} (element : Widens kind wider) : Widens (.list kind) (.list wider)
  | optional {kind wider : Kind} (inner : Widens kind wider) :
      Widens (.optional kind) (.optional wider)
  | absent {kind wider : Kind} (inner : Widens kind wider) : Widens kind (.optional wider)
  | object {fields more : List (String × Kind)}
      (kept : ∀ name, (Entries.find? name fields).isSome → (Entries.find? name more).isSome)
      (each : ∀ name kind wider, Entries.find? name fields = some kind →
        Entries.find? name more = some wider → Widens kind wider) :
      Widens (.object fields) (.object more)

theorem Widens.of_entries
    {fields more : List (String × Kind)}
    (each : ∀ entry ∈ fields, ∃ wider, Entries.find? entry.1 more = some wider ∧
      entry.2.Widens wider) :
    (Kind.object fields).Widens (.object more) := by
  apply Widens.object
  · intro name declared
    obtain ⟨kind, found⟩ := Option.isSome_iff_exists.mp declared
    obtain ⟨wider, widerFound, _⟩ := each (name, kind) (Entries.mem_of_find? found)
    rw [widerFound]
    rfl
  · intro name kind wider found widerFound
    obtain ⟨other, otherFound, widens⟩ := each (name, kind) (Entries.mem_of_find? found)
    rw [widerFound, Option.some.injEq] at otherFound
    exact otherFound ▸ widens

variable {kind wider : Kind}

theorem Widens.required (widens : kind.Widens wider) : kind.required.Widens wider.required := by
  induction widens with
  | scalar => exact .scalar
  | list element _ => exact .list element
  | optional _ induction => exact induction
  | absent _ induction => exact induction
  | object kept each _ => exact .object kept each

theorem Widens.isOptional
    (widens : kind.Widens wider) (optional : kind.isOptional = true) :
    wider.isOptional = true := by
  cases widens with
  | scalar | list _ | object _ _ => cases optional
  | optional _ | absent _ => rfl

theorem Widens.required_eq_scalar
    (widens : kind.Widens wider) (scalar : kind.required = .scalar) :
    wider.required = .scalar := by
  have required := widens.required
  rw [scalar] at required
  generalize form : wider.required = last at required
  cases required with
  | scalar => rfl
  | absent _ => exact absurd form (required_ne_optional wider _)

theorem Widens.required_eq_list
    {element : Kind} (widens : kind.Widens wider) (list : kind.required = .list element) :
    ∃ widerElement, wider.required = .list widerElement ∧ element.Widens widerElement := by
  have required := widens.required
  rw [list] at required
  generalize form : wider.required = last at required
  cases required with
  | list inner => exact ⟨_, rfl, inner⟩
  | absent _ => exact absurd form (required_ne_optional wider _)

theorem Widens.find?
    {fields more : List (String × Kind)} (widens : (Kind.object fields).Widens (.object more))
    {name : String} {field : Kind} (declared : Entries.find? name fields = some field) :
    ∃ widerField, Entries.find? name more = some widerField ∧ field.Widens widerField := by
  cases widens with
  | object kept each =>
      have isKept := kept name (by rw [declared]; rfl)
      obtain ⟨widerField, found⟩ := Option.isSome_iff_exists.mp isKept
      exact ⟨widerField, found, each name field widerField declared found⟩

theorem Widens.field?
    (widens : kind.Widens wider) {name : String} {field : Kind}
    (declared : kind.field? name = some field) :
    ∃ widerField, wider.field? name = some widerField ∧ field.Widens widerField := by
  obtain ⟨fields, object, found⟩ := field?_eq_some_iff.mp declared
  have required := widens.required
  rw [object] at required
  generalize form : wider.required = last at required
  cases required with
  | absent _ => exact absurd form (required_ne_optional wider _)
  | @object fields more kept each =>
      obtain ⟨widerField, widerFound, widerFits⟩ := (Widens.object kept each).find? found
      exact ⟨widerField, field?_eq_some_iff.mpr ⟨more, form, widerFound⟩, widerFits⟩

end Kind

/-- The schema declares all that another one does, with wider kinds. -/
def Schema.Widens (schema wider : Schema) : Prop :=
  (Kind.object schema.fields).Widens (.object wider.fields)

/-- A step allows for absence wherever another one does. -/
structure Step.Relaxes (step relaxed : Step) : Prop where
  name : step.name = relaxed.name
  optional : step.optional = true → relaxed.optional = true

/-- The same path with marks that allow for more absence. -/
structure Reference.Relaxes (reference relaxed : Reference) : Prop where
  hops : reference.hops = relaxed.hops
  steps : List.Forall₂ Step.Relaxes reference.steps relaxed.steps

theorem Kind.Leads.widen
    {kind last wider : Kind} {steps : List Step} (leads : kind.Leads steps last)
    (widens : kind.Widens wider) :
    ∃ relaxed widerLast, wider.Leads relaxed widerLast ∧ last.Widens widerLast ∧
      List.Forall₂ Step.Relaxes steps relaxed := by
  induction leads generalizing wider with
  | stay kind => exact ⟨[], wider, .stay wider, widens, .nil⟩
  | @step kind field last step rest declared marked below induction =>
      obtain ⟨widerField, widerDeclared, fieldWidens⟩ := widens.field? declared
      obtain ⟨relaxed, widerLast, widerBelow, lastWidens, relaxes⟩ := induction fieldWidens
      let first : Step := { name := step.name, optional := widerField.isOptional }
      have firstRelaxes : step.Relaxes first := by
        refine ⟨rfl, ?_⟩
        intro optional
        exact fieldWidens.isOptional (marked ▸ optional)
      exact ⟨first :: relaxed, widerLast, .step widerDeclared rfl widerBelow, lastWidens,
        .cons firstRelaxes relaxes⟩

theorem Step.markAll_map (steps : List Step) :
    markAll (steps.map Step.name) (steps.map Step.optional) = steps := by
  induction steps with
  | nil => rfl
  | cons step rest induction => rw [List.map_cons, List.map_cons, markAll, induction]

theorem Step.map_name_of_relaxes
    {steps relaxed : List Step} (relaxes : List.Forall₂ Step.Relaxes steps relaxed) :
    steps.map Step.name = relaxed.map Step.name := by
  induction relaxes with
  | nil => rfl
  | cons first _ induction => rw [List.map_cons, List.map_cons, first.name, induction]

theorem Reference.Relaxes.path_eq
    {reference relaxed : Reference} (relaxes : reference.Relaxes relaxed) :
    reference.path = relaxed.path := by
  rw [path, path, relaxes.hops, Step.map_name_of_relaxes relaxes.steps]

/-- An enclosing loop whose elements are of a wider kind. -/
structure LoopScope.Widens (loop wider : LoopScope) : Prop where
  binding : loop.binding = wider.binding
  element : ∀ kind, loop.element = some kind →
    ∃ widerKind, wider.element = some widerKind ∧ kind.Widens widerKind

/-- A scope in which everything is declared with a wider kind. -/
structure Scope.Widens (scope wider : Scope) : Prop where
  fields : (Kind.object scope.fields).Widens (.object wider.fields)
  loops : List.Forall₂ LoopScope.Widens scope.loops wider.loops

namespace Scope

variable {scope wider : Scope}

theorem Widens.ofSchema {schema wider : Schema} (widens : schema.Widens wider) :
    (ofSchema schema).Widens (ofSchema wider) :=
  ⟨widens, .nil⟩

theorem Widens.enter
    (widens : scope.Widens wider) (binding : String) {element widerElement : Kind}
    (elementWidens : element.Widens widerElement) :
    (scope.enter binding (some element)).Widens (wider.enter binding (some widerElement)) := by
  refine ⟨widens.fields, .cons ⟨rfl, ?_⟩ widens.loops⟩
  intro kind known
  cases known
  exact ⟨widerElement, rfl, elementWidens⟩

theorem findIn_widen
    {fields more : List (String × Kind)} (fieldsWiden : (Kind.object fields).Widens (.object more))
    {loops widerLoops : List LoopScope}
    (loopsWiden : List.Forall₂ LoopScope.Widens loops widerLoops) {name : String} {kind : Kind}
    (found : findIn fields name loops = some (some kind)) :
    ∃ widerKind, findIn more name widerLoops = some (some widerKind) ∧
      kind.Widens widerKind := by
  induction loopsWiden with
  | nil =>
      simp only [findIn, Option.map_eq_some_iff, Option.some.injEq, exists_eq_right] at found
      obtain ⟨widerKind, widerFound, widens⟩ := fieldsWiden.find? found
      exact ⟨widerKind, by rw [findIn, widerFound]; rfl, widens⟩
  | @cons innermost widerInnermost outer widerOuter widens _ induction =>
      rw [findIn] at found ⊢
      rw [← widens.binding]
      by_cases bound : innermost.binding = name
      · rw [if_pos bound, Option.some.injEq] at found
        obtain ⟨widerKind, known, kindWidens⟩ := widens.element kind found
        exact ⟨widerKind, by rw [if_pos bound, known], kindWidens⟩
      · rw [if_neg bound] at found ⊢
        by_cases reserved : Metadata.isReserved name = true
        · rw [if_pos reserved] at found ⊢
          cases found
          exact ⟨.scalar, rfl, .scalar⟩
        · rw [if_neg reserved] at found ⊢
          exact induction found

theorem Refers.widen
    {reference : Reference} {kind : Kind} (refers : scope.Refers reference kind)
    (widens : scope.Widens wider) :
    ∃ widerKind, wider.Refers (wider.mark reference.path) widerKind ∧
      kind.Widens widerKind ∧ reference.Relaxes (wider.mark reference.path) := by
  cases refers with
  | @intro first rest declared last inRange steps found marked leads =>
      obtain ⟨widerDeclared, widerFound, declaredWidens⟩ :=
        findIn_widen widens.fields (List.forall₂_drop reference.hops widens.loops) found
      obtain ⟨relaxed, widerKind, widerLeads, kindWidens, restRelaxes⟩ :=
        leads.widen declaredWidens
      let firstRelaxed : Step := { name := first.name, optional := widerDeclared.isOptional }
      let whole : Reference := { hops := reference.hops, steps := firstRelaxed :: relaxed }
      have widerRange : whole.hops ≤ wider.loops.length := by
        rw [← widens.loops.length_eq]
        exact inRange
      have widerRefers : wider.Refers whole widerKind :=
        .intro widerRange rfl widerFound rfl widerLeads
      have relaxes : reference.Relaxes whole := by
        refine ⟨rfl, ?_⟩
        rw [steps]
        refine .cons ⟨rfl, ?_⟩ restRelaxes
        intro optional
        exact declaredWidens.isOptional (marked ▸ optional)
      have sameMark : wider.mark reference.path = whole := by
        rw [relaxes.path_eq, mark, widerRefers.resolve]
        simp only [Path.mark, Reference.path, Step.markAll_map]
      rw [sameMark]
      exact ⟨widerKind, widerRefers, kindWidens, relaxes⟩

end Scope

/-- The same nodes with references that allow for more absence. -/
inductive Node.Relaxes : List (Node Reference) → List (Node Reference) → Prop where
  | nil : Node.Relaxes [] []
  | text {content : String} {rest relaxedRest : List (Node Reference)}
      (later : Node.Relaxes rest relaxedRest) :
      Node.Relaxes (.text content :: rest) (.text content :: relaxedRest)
  | variable {reference relaxed : Reference} {raw : Bool}
      {rest relaxedRest : List (Node Reference)} (relaxes : reference.Relaxes relaxed)
      (later : Node.Relaxes rest relaxedRest) :
      Node.Relaxes (.variable reference raw :: rest) (.variable relaxed raw :: relaxedRest)
  | loop {reference relaxed : Reference} {binding : String}
      {body relaxedBody rest relaxedRest : List (Node Reference)}
      (relaxes : reference.Relaxes relaxed) (inside : Node.Relaxes body relaxedBody)
      (later : Node.Relaxes rest relaxedRest) :
      Node.Relaxes (.loop reference binding body :: rest)
        (.loop relaxed binding relaxedBody :: relaxedRest)
  | conditional {reference relaxed : Reference}
      {thenBranch relaxedThen rest relaxedRest : List (Node Reference)}
      {elseBranch relaxedElse : Option (List (Node Reference))}
      (relaxes : reference.Relaxes relaxed) (first : Node.Relaxes thenBranch relaxedThen)
      (second : Node.Relaxes (elseBranch.getD []) (relaxedElse.getD []))
      (later : Node.Relaxes rest relaxedRest) :
      Node.Relaxes (.conditional reference thenBranch elseBranch :: rest)
        (.conditional relaxed relaxedThen relaxedElse :: relaxedRest)

namespace Node

/-- A tree that is well-typed in a scope is so in a wider one, where its marks are relaxed. -/
theorem WellTyped.widen
    {scope wider : Scope} {nodes : List (Node Path)} (widens : scope.Widens wider)
    (typed : WellTyped scope (markAll scope nodes)) :
    WellTyped wider (markAll wider nodes) ∧
      Relaxes (markAll scope nodes) (markAll wider nodes) := by
  induction nodes using sequence_induction generalizing scope wider with
  | nil =>
      rw [markAll, markAll]
      exact ⟨.nil, .nil⟩
  | text content rest later =>
      rw [markAll, mark] at typed ⊢
      rw [markAll, mark]
      cases typed with
      | text restTyped =>
          obtain ⟨widerRest, relaxes⟩ := later widens restTyped
          exact ⟨.text widerRest, .text relaxes⟩
  | «variable» path raw rest later =>
      rw [markAll, mark] at typed ⊢
      rw [markAll, mark]
      cases typed with
      | «variable» refers scalar restTyped =>
          obtain ⟨widerKind, widerRefers, kindWidens, relaxed⟩ := refers.widen widens
          rw [Scope.path_mark] at widerRefers relaxed
          obtain ⟨widerRest, relaxes⟩ := later widens restTyped
          exact ⟨.variable widerRefers (kindWidens.required_eq_scalar scalar) widerRest,
            .variable relaxed relaxes⟩
  | loop path binding body rest inside later =>
      rw [markAll, mark] at typed ⊢
      rw [markAll, mark]
      cases typed with
      | loop refers list bodyTyped restTyped =>
          obtain ⟨widerKind, widerRefers, kindWidens, relaxed⟩ := refers.widen widens
          obtain ⟨widerElement, widerList, elementWidens⟩ := kindWidens.required_eq_list list
          have elementKind := refers.elementKind list
          have widerElementKind := widerRefers.elementKind widerList
          rw [Scope.path_mark] at widerRefers relaxed elementKind
          rw [Scope.path_mark, Scope.path_mark] at widerElementKind
          rw [elementKind] at bodyTyped ⊢
          rw [widerElementKind]
          obtain ⟨widerBody, bodyRelaxes⟩ := inside (widens.enter binding elementWidens) bodyTyped
          obtain ⟨widerRest, relaxes⟩ := later widens restTyped
          exact ⟨.loop widerRefers widerList widerBody widerRest,
            .loop relaxed bodyRelaxes relaxes⟩
  | conditional path thenBranch elseBranch rest first second later =>
      rw [markAll, mark_conditional] at typed ⊢
      rw [markAll, mark_conditional]
      cases typed with
      | conditional refers firstTyped secondTyped restTyped =>
          obtain ⟨widerKind, widerRefers, kindWidens, relaxed⟩ := refers.widen widens
          rw [Scope.path_mark] at widerRefers relaxed
          rw [getD_map_markAll] at secondTyped
          obtain ⟨widerFirst, firstRelaxes⟩ := first widens firstTyped
          obtain ⟨widerSecond, secondRelaxes⟩ := second widens secondTyped
          obtain ⟨widerRest, relaxes⟩ := later widens restTyped
          exact ⟨.conditional widerRefers widerFirst (by rwa [getD_map_markAll]) widerRest,
            .conditional relaxed firstRelaxes (by rwa [getD_map_markAll, getD_map_markAll])
              relaxes⟩

end Node

namespace Rendering

variable {α β δ : Type}

/-- Wherever one action succeeds, another one does the same. -/
def Covers (action other : Rendering α) : Prop :=
  ∀ sink result after, action sink = .ok result after → other sink = .ok result after

theorem Covers.refl (action : Rendering α) : Covers action action := by
  intro sink result after done
  exact done

theorem Covers.bind
    {action other : Rendering α} {next otherNext : α → Rendering β}
    (first : Covers action other) (second : ∀ result, Covers (next result) (otherNext result)) :
    Covers (action >>= next) (other >>= otherNext) := by
  intro sink result after done
  rw [bind_apply] at done
  split at done
  · rename_i middle between firstDone
    rw [bind_of_ok (first sink middle between firstDone)]
    exact second middle between result after done
  · cases done

theorem covers_demand
    {outcome other : Except Violation α} (reference otherReference : Reference)
    (covers : ∀ result, outcome = .ok result → other = .ok result) :
    Covers (demand reference outcome) (demand otherReference other) := by
  cases outcome with
  | error violation =>
      intro sink result after done
      cases done
  | ok result =>
      rw [covers result rfl]
      exact .refl _

theorem covers_forEach
    {action other : Nat → δ → Rendering Unit}
    (covers : ∀ index item, Covers (action index item) (other index item))
    (index : Nat) (items : List δ) :
    Covers (forEach action index items) (forEach other index items) := by
  induction items generalizing index with
  | nil => exact .refl _
  | cons item rest induction =>
      rw [forEach_cons, forEach_cons]
      apply Covers.bind (covers index item)
      intro result
      exact induction (index + 1)

end Rendering

variable {δ : Type} [Data δ]

theorem Found.settle_of_relaxes
    {reference relaxed : Reference} {position : Nat} {step relaxedStep : Step}
    {found result : Found δ} (relaxes : step.optional = true → relaxedStep.optional = true)
    (settled : settle reference position step found = .ok result) :
    settle relaxed position relaxedStep found = .ok result := by
  unfold settle at settled ⊢
  by_cases optional : step.optional = true
  · have relaxedOptional := relaxes optional
    simpa only [optional, relaxedOptional, if_true] using settled
  · cases found with
    | value data =>
        by_cases null : Data.isNull data = true
        · simp [optional, null] at settled
        · simpa [null] using settled
    | absent => simp [optional] at settled
    | index number => exact settled
    | flag holds => exact settled

theorem Found.follow_of_relaxes
    {reference relaxed : Reference} {steps relaxedSteps : List Step}
    (relaxes : List.Forall₂ Step.Relaxes steps relaxedSteps) {position : Nat}
    {found result : Found δ} (followed : follow reference position found steps = .ok result) :
    follow relaxed position found relaxedSteps = .ok result := by
  induction relaxes generalizing position found with
  | nil => exact followed
  | @cons step relaxedStep rest relaxedRest first _ induction =>
      cases found with
      | absent => exact followed
      | index number => cases followed
      | flag holds => cases followed
      | value data =>
          rw [follow_value] at followed ⊢
          obtain ⟨next, settled, restFollowed⟩ := Violation.exists_of_bind_eq_ok followed
          rw [← first.name, settle_of_relaxes first.optional settled]
          exact induction restFollowed

theorem Stack.resolve_of_relaxes
    {stack : Stack δ} {reference relaxed : Reference} (relaxes : reference.Relaxes relaxed)
    {found : Found δ} (resolved : stack.resolve reference = .ok found) :
    stack.resolve relaxed = .ok found := by
  obtain ⟨hops, steps⟩ := reference
  obtain ⟨relaxedHops, relaxedSteps⟩ := relaxed
  obtain ⟨rfl, stepsRelax⟩ : hops = relaxedHops ∧ List.Forall₂ Step.Relaxes steps relaxedSteps :=
    ⟨relaxes.hops, relaxes.steps⟩
  by_cases tooMany : hops > stack.frames.length
  · simp [resolve, tooMany] at resolved
  · have inRange : hops ≤ stack.frames.length := Nat.le_of_not_gt tooMany
    cases stepsRelax with
    | nil => simp [resolve, tooMany] at resolved
    | @cons first relaxedFirst rest relaxedRest firstRelaxes restRelaxes =>
        rw [resolve_of_inRange inRange rfl] at resolved ⊢
        obtain ⟨settled, settles, followed⟩ := Violation.exists_of_bind_eq_ok resolved
        rw [← firstRelaxes.name, Found.settle_of_relaxes firstRelaxes.optional settles]
        exact Found.follow_of_relaxes restRelaxes followed

/-- What a tree renders completely is rendered the same by a relaxed one. -/
theorem Node.Relaxes.covers
    {nodes relaxed : List (Node Reference)} (relaxes : Node.Relaxes nodes relaxed)
    (stack : Stack δ) :
    Rendering.Covers (Node.renderAll nodes stack) (Node.renderAll relaxed stack) := by
  induction relaxes generalizing stack with
  | nil => exact .refl _
  | text _ later =>
      rw [renderAll_cons, renderAll_cons]
      apply Rendering.Covers.bind (.refl _)
      intro done
      exact later stack
  | «variable» relaxes _ later =>
      rw [renderAll_cons, renderAll_cons, render, render]
      refine Rendering.Covers.bind ?_ fun done => later stack
      apply Rendering.Covers.bind
      · apply Rendering.covers_demand
        intro found resolved
        exact Stack.resolve_of_relaxes relaxes resolved
      · intro found
        apply Rendering.Covers.bind
        · exact Rendering.covers_demand _ _ fun content text => text
        · intro content
          exact .refl _
  | loop relaxes _ _ inside later =>
      rw [renderAll_cons, renderAll_cons, render, render]
      refine Rendering.Covers.bind ?_ fun done => later stack
      apply Rendering.Covers.bind
      · apply Rendering.covers_demand
        intro found resolved
        exact Stack.resolve_of_relaxes relaxes resolved
      · intro found
        apply Rendering.Covers.bind
        · exact Rendering.covers_demand _ _ fun items elements => elements
        · intro items
          apply Rendering.covers_forEach
          intro index item
          exact inside _
  | conditional relaxes _ _ _ first second later =>
      rw [renderAll_cons, renderAll_cons, render_conditional_eq_bind, render_conditional_eq_bind]
      refine Rendering.Covers.bind ?_ fun done => later stack
      apply Rendering.Covers.bind
      · apply Rendering.covers_demand
        intro found resolved
        exact Stack.resolve_of_relaxes relaxes resolved
      · intro found
        split
        · exact first stack
        · exact second stack

theorem Node.mapAll_path_markAll (scope : Scope) (nodes : List (Node Path)) :
    mapAll Reference.path (markAll scope nodes) = nodes := by
  induction nodes using sequence_induction generalizing scope with
  | nil => rw [markAll, mapAll]
  | text content rest later => rw [markAll, mark, mapAll, map, later]
  | «variable» path raw rest later =>
      rw [markAll, mark, mapAll, map, Scope.path_mark, later]
  | loop path binding body rest inside later =>
      rw [markAll, mark, mapAll, map, Scope.path_mark, inside, later]
  | conditional path thenBranch elseBranch rest first second later =>
      cases elseBranch with
      | none => simp only [markAll, mark, mapAll, map, Scope.path_mark, first, later]
      | some nodes =>
          rw [Option.getD_some] at second
          simp only [markAll, mark, mapAll, map, Scope.path_mark, first, second, later]

/-- What a template renders completely is rendered to the same text by one that covers it. -/
theorem Template.render_of_covers
    {template other : Template} {data : δ}
    (covers : Rendering.Covers (Node.renderAll template.nodes (Stack.ofRoot data))
      (Node.renderAll other.nodes (Stack.ofRoot data)))
    {content : String} (rendered : template.render data = .ok content) :
    other.render data = .ok content := by
  unfold render renderTo at rendered ⊢
  cases done : Node.renderAll template.nodes (Stack.ofRoot data) Sink.unlimited with
  | error error after =>
      rw [done] at rendered
      cases rendered
  | ok result after =>
      rw [done] at rendered
      rw [covers .unlimited () after done]
      exact rendered

/-- A text that compiles for a schema compiles for every wider one.  The tree is the same up to its
marks, and what the template renders completely is rendered to the same text. -/
theorem Template.compile_of_widens
    {source : String} {schema wider : Schema} {template : Template}
    (widens : schema.Widens wider) (compiled : Template.compile source schema = .ok template) :
    ∃ relaxed, Template.compile source wider = .ok relaxed ∧
      Node.mapAll Reference.path relaxed.nodes = Node.mapAll Reference.path template.nodes ∧
      ∀ {δ : Type} [Data δ] (data : δ) content,
        template.render data = .ok content → relaxed.render data = .ok content := by
  obtain ⟨nodes, accepted, named, checks⟩ := exists_compile_eq compiled
  have typed := wellTyped_of_check accepted named
  obtain ⟨_, rfl⟩ := check_eq_ok_iff.mp accepted
  obtain ⟨widerTyped, relaxes⟩ := typed.widen (Scope.Widens.ofSchema widens)
  have widerAccepted := check_eq_ok_iff.mpr ⟨Node.no_errors_of_wellTyped widerTyped, rfl⟩
  refine ⟨_, by rw [checks, widerAccepted]; rfl, ?_, ?_⟩
  · rw [Node.mapAll_path_markAll, Node.mapAll_path_markAll]
  · intro δ _ data content rendered
    exact render_of_covers (relaxes.covers (Stack.ofRoot data)) rendered

/-- The names on a list, all of which have a first part. -/
def rosterSchema : Schema where
  fields := [("names", .list (.object [("first", .scalar)]))]

/-- There may be no list, there may be gaps in it, and names may have another part or none. -/
def looseRosterSchema : Schema where
  fields :=
    [ ("names", .optional (.list (.optional (.object
        [("first", .optional .scalar), ("last", .optional .scalar)])))),
      ("title", .scalar) ]

def rosterSource : String :=
  "\x7b% for .names |n| %\x7d\x7b\x7b .n.first \x7d\x7d;\x7b% endfor %\x7d"

def rosterTemplate : Template where
  nodes :=
    [ .loop { hops := 0, steps := [⟨"names", false⟩] } "n"
        [ .variable { hops := 0, steps := [⟨"n", false⟩, ⟨"first", false⟩] } false,
          .text ";" ] ]
  schema := rosterSchema

def rosterData : Json :=
  .object [("names", .array [.object [("first", .string "Ann")], .object [("first", .bool true)]])]

theorem looseRosterSchema_widens : rosterSchema.Widens looseRosterSchema := by
  have name : (Kind.object [("first", .scalar)]).Widens
      (.object [("first", .optional .scalar), ("last", .optional .scalar)]) := by
    apply Kind.Widens.of_entries
    exact List.forall_mem_singleton.mpr ⟨_, rfl, .absent .scalar⟩
  apply Kind.Widens.of_entries
  exact List.forall_mem_singleton.mpr ⟨_, rfl, .absent (.list (.absent name))⟩

theorem roster_renders_loosely :
    rosterSchema.Widens looseRosterSchema ∧
      Template.compile rosterSource rosterSchema = .ok rosterTemplate ∧
      ∃ relaxed, Template.compile rosterSource looseRosterSchema = .ok relaxed ∧
        Node.mapAll Reference.path relaxed.nodes =
          Node.mapAll Reference.path rosterTemplate.nodes ∧
        relaxed.render rosterData = .ok "Ann;true;" := by
  have compiled : Template.compile rosterSource rosterSchema = .ok rosterTemplate := by cbv
  obtain ⟨relaxed, relaxedCompiled, sameNodes, sameText⟩ :=
    Template.compile_of_widens looseRosterSchema_widens compiled
  exact ⟨looseRosterSchema_widens, compiled, relaxed, relaxedCompiled, sameNodes,
    sameText rosterData _ rfl⟩

end Stencil
