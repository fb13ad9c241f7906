import Stencil.Proofs.Loops
import Stencil.Proofs.Parsing
import Stencil.Proofs.Rendering

/-!
# Data that conforms to a schema

Conformance is a relation between kinds and values, by recursion on the kind.  An accepted tree
renders completely on every value that conforms to its schema: all references find values of the
kinds their nodes need, or something that may be absent.
-/

namespace Stencil

variable {δ : Type} [Data δ]

namespace Kind

mutual

/-- A value that is of a kind. -/
def Conforms : Kind → δ → Prop
  | .scalar, value => Data.isNull value = false ∧ (Data.text value).isSome = true
  | .list element, value =>
      Data.isNull value = false ∧
        ∃ items, Data.children value = some items ∧ ∀ item ∈ items, Conforms element item
  | .object fields, value =>
      Data.isNull value = false ∧ ∀ name, FieldConforms name fields (Data.child value name)
  | .optional kind, value => Data.isNull value = true ∨ Conforms kind value

/-- What stands under a name is of the kind the name is declared with, if it is declared; it may
be missing if that kind may be absent. -/
def FieldConforms (name : String) : List (String × Kind) → Option δ → Prop
  | [], _ => True
  | (head, kind) :: rest, below =>
      if name = head then
        match below with
        | some value => Conforms kind value
        | none => kind.isOptional = true
      else FieldConforms name rest below

end

/-- What may stand at a place of a kind. -/
def Fits (kind : Kind) : Option δ → Prop
  | some value => kind.Conforms value
  | none => kind.isOptional = true

theorem fieldConforms_iff
    {name : String} {fields : List (String × Kind)} {below : Option δ} :
    FieldConforms name fields below ↔
      ∀ kind, Entries.find? name fields = some kind → kind.Fits below := by
  induction fields with
  | nil => simp [FieldConforms, Entries.find?]
  | cons entry rest induction =>
      obtain ⟨head, kind⟩ := entry
      by_cases same : name = head
      · cases below <;> simp [FieldConforms, Entries.find?, Fits, same]
      · simp [FieldConforms, Entries.find?, same, induction]

theorem fieldConforms_of_entries
    {fields : List (String × Kind)} {below : String → Option δ}
    (each : ∀ entry ∈ fields, entry.2.Fits (below entry.1)) (name : String) :
    FieldConforms name fields (below name) := by
  induction fields with
  | nil => trivial
  | cons entry rest induction =>
      obtain ⟨fits, tail⟩ := List.forall_mem_cons.mp each
      obtain ⟨head, kind⟩ := entry
      unfold FieldConforms
      split
      · rename_i same
        subst same
        exact fits
      · exact induction tail

theorem Conforms.required
    {kind : Kind} {value : δ} (conforms : kind.Conforms value)
    (present : Data.isNull value = false) :
    kind.required.Conforms value := by
  cases kind with
  | optional inner =>
      simp only [Conforms, present, Bool.false_eq_true, false_or] at conforms
      exact conforms.required present
  | scalar | list _ | object _ => exact conforms

theorem Conforms.optional_of_null
    {kind : Kind} {value : δ} (conforms : kind.Conforms value)
    (null : Data.isNull value = true) :
    kind.isOptional = true := by
  cases kind with
  | optional kind => rfl
  | scalar | list _ | object _ => simp [Conforms, null] at conforms

end Kind

/-- Data whose declared fields are of the declared kinds. -/
def Schema.Conforms (schema : Schema) (data : δ) : Prop :=
  ∀ name, Kind.FieldConforms name schema.fields (Data.child data name)

theorem agendaData_conforms : agendaSchema.Conforms agendaData := by
  have days : ∀ {day : Json}, Data.isNull day = false →
      (Kind.optional (.object [("name", .scalar)])).Fits (Data.child day "room") →
      (Kind.list .scalar).Fits (Data.child day "talks") →
      (Kind.object
        [("room", .optional (.object [("name", .scalar)])),
          ("talks", .list .scalar)]).Conforms day := by
    intro day present room talks
    refine ⟨present, ?_⟩
    apply Kind.fieldConforms_of_entries
    exact List.forall_mem_cons.mpr ⟨room, List.forall_mem_singleton.mpr talks⟩
  have room : (Kind.object [("name", .scalar)]).Conforms
      (Json.object [("name", .string "A & B")]) := by
    refine ⟨rfl, ?_⟩
    apply Kind.fieldConforms_of_entries
    exact List.forall_mem_singleton.mpr ⟨rfl, rfl⟩
  have talks : ∀ talk ∈ [Json.string "opening", .bool true], Kind.scalar.Conforms talk :=
    List.forall_mem_cons.mpr ⟨⟨rfl, rfl⟩, List.forall_mem_singleton.mpr ⟨rfl, rfl⟩⟩
  apply Kind.fieldConforms_of_entries
  refine List.forall_mem_cons.mpr ⟨⟨rfl, _, rfl, ?_⟩, List.forall_mem_singleton.mpr ⟨rfl, rfl⟩⟩
  exact List.forall_mem_cons.mpr
    ⟨days rfl (.inr room) ⟨rfl, _, rfl, talks⟩,
      List.forall_mem_singleton.mpr (days rfl rfl ⟨rfl, [], rfl, by simp⟩)⟩

namespace Found

/-- What a reference of a kind may come to: something absent, a value of the kind, or metadata,
which counts as scalar. -/
inductive Conforms (kind : Kind) : Found δ → Prop where
  | absent : Conforms kind .absent
  | value {data : δ} (present : Data.isNull data = false) (conforms : kind.Conforms data) :
      Conforms kind (.value data)
  | metadata {found : Found δ} (metadata : found.IsMetadata) (scalar : kind = .scalar) :
      Conforms kind found

theorem settle_ofOption_conforms
    {kind : Kind} {step : Step} {below : Option δ} (fits : kind.Fits below)
    (marked : step.optional = kind.isOptional) (reference : Reference) (position : Nat) :
    ∃ found, settle reference position step (.ofOption below) = .ok found ∧
      found.Conforms kind := by
  cases below with
  | none =>
      have optional : step.optional = true := marked.trans fits
      exact ⟨.absent, by simp [settle, ofOption, optional], .absent⟩
  | some data =>
      cases null : Data.isNull data with
      | true =>
          have optional : step.optional = true :=
            marked.trans (Kind.Conforms.optional_of_null fits null)
          exact ⟨.absent, by simp [settle, ofOption, null, optional], .absent⟩
      | false =>
          exact ⟨.value data, by simp [settle, ofOption, null], .value null fits⟩

/-- Below a value of a kind every declared field is found as it is declared. -/
theorem follow_conforms
    {kind last : Kind} {steps : List Step} (leads : kind.Leads steps last)
    {found : Found δ} (conforms : found.Conforms kind) (reference : Reference) (position : Nat) :
    ∃ result, follow reference position found steps = .ok result ∧ result.Conforms last := by
  induction leads generalizing found position with
  | stay kind => exact ⟨found, rfl, conforms⟩
  | @step kind field last step rest declared marked below induction =>
      cases conforms with
      | absent => exact ⟨.absent, rfl, .absent⟩
      | metadata _ scalar =>
          rw [scalar, Kind.field?_scalar] at declared
          cases declared
      | @value data present conforms =>
          obtain ⟨fields, object, entry⟩ := Kind.field?_eq_some_iff.mp declared
          have required := conforms.required present
          rw [object] at required
          have fits := Kind.fieldConforms_iff.mp (required.2 step.name) field entry
          obtain ⟨next, settled, nextConforms⟩ :=
            settle_ofOption_conforms fits marked reference position
          obtain ⟨result, followed, resultConforms⟩ := induction nextConforms (position + 1)
          refine ⟨result, ?_, resultConforms⟩
          rw [follow_value, settled]
          exact followed

theorem Conforms.scalar
    {kind : Kind} {found : Found δ} (conforms : found.Conforms kind)
    (scalar : kind.required = .scalar) :
    ∃ content, found.scalar = .ok content := by
  cases conforms with
  | absent => exact ⟨"", rfl⟩
  | metadata metadata _ =>
      cases metadata with
      | index number => exact ⟨toString number, rfl⟩
      | flag holds => cases holds <;> exact ⟨_, rfl⟩
  | @value data present conforms =>
      have required := conforms.required present
      rw [scalar] at required
      obtain ⟨content, text⟩ := Option.isSome_iff_exists.mp required.2
      exact ⟨content, by simp [Found.scalar, Found.text, text]⟩

theorem Conforms.elements
    {kind element : Kind} {found : Found δ} (conforms : found.Conforms kind)
    (list : kind.required = .list element) :
    ∃ items, found.elements = .ok items ∧ ∀ item ∈ items, element.Conforms item := by
  cases conforms with
  | absent => exact ⟨[], rfl, by simp⟩
  | metadata _ scalar => simp [scalar, Kind.required] at list
  | @value data present conforms =>
      have required := conforms.required present
      rw [list] at required
      obtain ⟨_, items, children, all⟩ := required
      exact ⟨items, by simp [Found.elements, children], all⟩

end Found

theorem Stack.resolve_conforms
    {scope : Scope} {stack : Stack δ} {reference : Reference} {kind : Kind}
    (runs : stack.RunsIn Kind.Conforms scope)
    (root : ∀ name, Kind.FieldConforms name scope.fields (Data.child stack.root name))
    (refers : scope.Refers reference kind) :
    ∃ found, stack.resolve reference = .ok found ∧ found.Conforms kind := by
  cases refers with
  | @intro first rest declared last inRange steps found marked leads =>
      have outside := List.forall₂_drop reference.hops runs
      have start : ∃ settled,
          Found.settle reference 0 first
              (Stack.findIn stack.root first.name (stack.frames.drop reference.hops)) =
            .ok settled ∧ settled.Conforms declared := by
        have refers := Stack.findIn_refers stack.root outside found
        generalize Stack.findIn stack.root first.name (stack.frames.drop reference.hops) =
          looked at refers
        cases refers with
        | @element element current =>
            have fits : declared.Fits (some element) := current
            exact Found.settle_ofOption_conforms fits marked reference 0
        | metadata metadata scalar =>
            refine ⟨_, ?_, .metadata metadata scalar⟩
            cases metadata <;> rfl
        | field entry =>
            exact Found.settle_ofOption_conforms
              (Kind.fieldConforms_iff.mp (root first.name) declared entry) marked reference 0
      obtain ⟨settled, settle, conforms⟩ := start
      obtain ⟨result, follow, resultConforms⟩ :=
        Found.follow_conforms leads conforms reference 1
      refine ⟨result, ?_, resultConforms⟩
      rw [Stack.resolve_of_inRange (runs.inRange inRange) steps, settle]
      exact follow

namespace Rendering

/-- An action that stops only at a sink that takes no more, and leaves a sink without a limit
without one. -/
def Safe (action : Rendering Unit) : Prop :=
  ∀ sink,
    (∃ after, action sink = .ok () after ∧ (sink.room = none → after.room = none)) ∨
      (sink.room ≠ none ∧ ∃ after, action sink = .error .outputFailure after)

theorem Safe.pure : Safe (pure ()) := by
  intro sink
  exact .inl ⟨sink, rfl, id⟩

theorem Safe.bind
    {first second : Rendering Unit} (firstSafe : Safe first) (secondSafe : Safe second) :
    Safe (first >>= fun _ => second) := by
  intro sink
  rcases firstSafe sink with ⟨middle, done, open?⟩ | ⟨limited, after, full⟩
  · rw [bind_of_ok done]
    rcases secondSafe middle with ⟨after, done, stays⟩ | ⟨limited, after, full⟩
    · exact .inl ⟨after, done, fun unlimited => stays (open? unlimited)⟩
    · exact .inr ⟨fun unlimited => limited (open? unlimited), after, full⟩
  · exact .inr ⟨limited, after, bind_of_error full _⟩

theorem safe_emit (content : String) : Safe (emit content) := by
  intro sink
  cases room : sink.room with
  | none => exact .inl ⟨_, emit_of_unlimited room content, fun _ => rfl⟩
  | some available =>
      by_cases fits : content.utf8ByteSize ≤ available
      · exact .inl ⟨_, emit_of_fits room fits, by simp⟩
      · exact .inr ⟨by simp, _, emit_of_full room (Nat.lt_of_not_le fits)⟩

theorem safe_emitAll (contents : List String) : Safe (emitAll contents) := by
  induction contents with
  | nil => exact .pure
  | cons content rest induction => exact (safe_emit content).bind induction

omit [Data δ] in
theorem safe_forEach
    {action : Nat → δ → Rendering Unit} {items : List δ}
    (each : ∀ item ∈ items, ∀ index, Safe (action index item)) (index : Nat) :
    Safe (forEach action index items) := by
  induction items generalizing index with
  | nil => exact .pure
  | cons item rest induction =>
      rw [forEach_cons]
      exact (each item List.mem_cons_self index).bind
        (induction (fun later member => each later (List.mem_cons_of_mem _ member)) (index + 1))

end Rendering

/-- A well-typed tree stops on conforming data only where its sink is full. -/
theorem Node.WellTyped.safe_renderAll
    {scope : Scope} {nodes : List (Node Reference)} (typed : Node.WellTyped scope nodes)
    {stack : Stack δ} (runs : stack.RunsIn Kind.Conforms scope)
    (root : ∀ name, Kind.FieldConforms name scope.fields (Data.child stack.root name)) :
    Rendering.Safe (Node.renderAll nodes stack) := by
  induction typed generalizing stack with
  | nil =>
      rw [Node.renderAll_nil]
      exact .pure
  | text _ later =>
      rw [Node.renderAll_cons, Node.render_text]
      exact (Rendering.safe_emit _).bind (later runs root)
  | «variable» refers scalar _ later =>
      obtain ⟨found, resolved, conforms⟩ := Stack.resolve_conforms runs root refers
      obtain ⟨content, text⟩ := conforms.scalar scalar
      rw [Node.renderAll_cons, Node.render_variable resolved, text, Rendering.demand_ok,
        pure_bind]
      exact (Rendering.safe_emitAll _).bind (later runs root)
  | loop refers list _ _ inside later =>
      obtain ⟨found, resolved, conforms⟩ := Stack.resolve_conforms runs root refers
      obtain ⟨items, elements, all⟩ := conforms.elements list
      rw [Node.renderAll_cons, Node.render_loop resolved, elements, Rendering.demand_ok,
        pure_bind]
      have body := Rendering.safe_forEach
        (fun item member index =>
          inside (runs.enter _ (all item member) index items.length) root) 0
      exact body.bind (later runs root)
  | conditional refers _ _ _ first second later =>
      obtain ⟨found, resolved, _⟩ := Stack.resolve_conforms runs root refers
      rw [Node.renderAll_cons, Node.render_conditional resolved]
      refine Rendering.Safe.bind ?_ (later runs root)
      split
      · exact first runs root
      · exact second runs root

namespace Template

variable {nodes : List (Node Path)} {schema : Schema} {template : Template} {data : δ}

theorem safe_of_conforms
    (accepted : Template.check nodes schema = .ok template)
    (named : ∀ path ∈ Node.pathsAll nodes, path.segments ≠ [])
    (conforms : schema.Conforms data) :
    Rendering.Safe (Node.renderAll template.nodes (Stack.ofRoot data)) :=
  (wellTyped_of_check accepted named).safe_renderAll (Stack.RunsIn.ofRoot schema data) conforms

theorem exists_render_of_safe
    (safe : Rendering.Safe (Node.renderAll template.nodes (Stack.ofRoot data))) :
    ∃ content, template.render data = .ok content := by
  rcases safe .unlimited with ⟨after, done, _⟩ | ⟨limited, _⟩
  · exact ⟨after.text, by simp [Template.render, Template.renderTo, done]⟩
  · exact absurd rfl limited

/-- The template of a text renders on all data that conforms to its schema. -/
theorem render_ok_of_compile
    {source : String} (compiled : Template.compile source schema = .ok template)
    (conforms : schema.Conforms data) :
    ∃ content, template.render data = .ok content := by
  obtain ⟨nodes, accepted, named⟩ := exists_nodes_of_compile compiled
  exact exists_render_of_safe (safe_of_conforms accepted named conforms)

/-- An accepted tree renders on all data that conforms to its schema.  On a sink with a limit it
may run out of room, but the data is never to blame. -/
theorem render_ok_of_conforms
    (accepted : Template.check nodes schema = .ok template)
    (named : ∀ path ∈ Node.pathsAll nodes, path.segments ≠ [])
    (conforms : schema.Conforms data) :
    (∃ content, template.render data = .ok content) ∧
      ∀ sink path violation,
        (template.renderTo data sink).1 ≠ .error (.contractViolation path violation) := by
  have safe := safe_of_conforms accepted named conforms
  refine ⟨exists_render_of_safe safe, ?_⟩
  intro sink path violation
  rcases safe sink with ⟨after, done, _⟩ | ⟨_, after, full⟩
  · simp [Template.renderTo, done]
  · simp [Template.renderTo, full]

end Template

theorem agenda_renders :
    agendaSchema.Conforms agendaData ∧
      (∃ content, agendaTemplate.render agendaData = .ok content) ∧
        ∀ sink path violation,
          (agendaTemplate.renderTo agendaData sink).1 ≠
            .error (.contractViolation path violation) :=
  ⟨agendaData_conforms,
    Template.render_ok_of_conforms agenda_accepted agenda_named agendaData_conforms⟩

end Stencil
