import Stencil.Proofs.Rendering
import Stencil.Proofs.Trail

/-!
# Data that agrees on a schema

Two values agree on a kind if nothing that the kind declares tells them apart.  They may be of
different sorts, none of them needs to be of the kind, and what the kind does not declare is not
compared.  Renderings of one accepted tree stay in step on data that agrees on its schema.
-/

namespace Stencil

variable {δ ε : Type} [Data δ] [Data ε]

/-- Whether there is no value, a null counting as none. -/
def Data.isMissing : Option δ → Bool
  | some data => Data.isNull data
  | none => true

/-- Two places without a value, or with values that both count as true or both as false and are
the same otherwise. -/
inductive Data.Alike (same : δ → ε → Prop) : Option δ → Option ε → Prop where
  | missing {first : Option δ} {second : Option ε}
      (firstMissing : isMissing first = true) (secondMissing : isMissing second = true) :
      Alike same first second
  | present {first : δ} {second : ε}
      (firstPresent : isNull first = false) (secondPresent : isNull second = false)
      (truthy : truthy first = truthy second) (content : same first second) :
      Alike same (some first) (some second)

namespace Kind

mutual

/-- Nothing that the kind declares tells two values apart that are both there. -/
def SameContent : Kind → δ → ε → Prop
  | .scalar, first, second => Data.text first = Data.text second
  | .list element, first, second =>
      match Data.children first, Data.children second with
      | some firstItems, some secondItems =>
          List.Forall₂
            (fun firstItem secondItem =>
              Data.Alike (fun first second => SameContent element first second)
                (some firstItem) (some secondItem))
            firstItems secondItems
      | none, none => True
      | _, _ => False
  | .object fields, first, second =>
      ∀ name, FieldAgrees name fields (Data.child first name) (Data.child second name)
  | .optional kind, first, second => SameContent kind first second

/-- What stands under a name agrees on the kind the name is declared with, if it is declared. -/
def FieldAgrees (name : String) : List (String × Kind) → Option δ → Option ε → Prop
  | [], _, _ => True
  | (head, kind) :: rest, first, second =>
      if name = head then
        Data.Alike (fun first second => SameContent kind first second) first second
      else FieldAgrees name rest first second

end

/-- What may stand at a place of a kind in two values. -/
def Agree (kind : Kind) (first : Option δ) (second : Option ε) : Prop :=
  Data.Alike kind.SameContent first second

theorem fieldAgrees_iff
    {name : String} {fields : List (String × Kind)} {first : Option δ} {second : Option ε} :
    FieldAgrees name fields first second ↔
      ∀ kind, Entries.find? name fields = some kind → kind.Agree first second := by
  induction fields with
  | nil => simp [FieldAgrees, Entries.find?]
  | cons entry rest induction =>
      obtain ⟨head, kind⟩ := entry
      by_cases same : name = head
      · simp [FieldAgrees, Entries.find?, Agree, same]
      · simp [FieldAgrees, Entries.find?, same, induction]

theorem SameContent.required
    {kind : Kind} {first : δ} {second : ε} (content : kind.SameContent first second) :
    kind.required.SameContent first second := by
  cases kind with
  | optional inner =>
      have below : inner.SameContent first second := content
      exact below.required
  | scalar | list _ | object _ => exact content

end Kind

def Schema.Agree (schema : Schema) (first : δ) (second : ε) : Prop :=
  ∀ name, Kind.FieldAgrees name schema.fields (Data.child first name) (Data.child second name)

/-- Two loops that run in step: they stand for the same enclosing loop and are at elements that
agree, at the same index of lists of one length. -/
inductive LoopsAgree : List LoopScope → List (Frame δ) → List (Frame ε) → Prop where
  | nil : LoopsAgree [] [] []
  | cons {loops : List LoopScope} {firstFrames : List (Frame δ)}
      {secondFrames : List (Frame ε)} {binding : String} {kind : Kind} {first : δ} {second : ε}
      {index length : Nat}
      (current : kind.Agree (some first) (some second))
      (outer : LoopsAgree loops firstFrames secondFrames) :
      LoopsAgree ({ binding, element := some kind } :: loops)
        ({ binding, element := first, index, length } :: firstFrames)
        ({ binding, element := second, index, length } :: secondFrames)

namespace LoopsAgree

variable {loops : List LoopScope} {firstFrames : List (Frame δ)} {secondFrames : List (Frame ε)}

theorem drop (agree : LoopsAgree loops firstFrames secondFrames) (hops : Nat) :
    LoopsAgree (loops.drop hops) (firstFrames.drop hops) (secondFrames.drop hops) := by
  induction agree generalizing hops with
  | nil => simpa using LoopsAgree.nil
  | cons current outer induction =>
      cases hops with
      | zero => exact .cons current outer
      | succ hops => exact induction hops

theorem length_first (agree : LoopsAgree loops firstFrames secondFrames) :
    firstFrames.length = loops.length := by
  induction agree with
  | nil => rfl
  | cons _ _ induction => simp [induction]

theorem length_second (agree : LoopsAgree loops firstFrames secondFrames) :
    secondFrames.length = loops.length := by
  induction agree with
  | nil => rfl
  | cons _ _ induction => simp [induction]

end LoopsAgree

/-- Two stacks in step: their loops are, and the data they are for agrees on the fields. -/
structure Stack.AgreeIn (scope : Scope) (first : Stack δ) (second : Stack ε) : Prop where
  loops : LoopsAgree scope.loops first.frames second.frames
  root : ∀ name, Kind.FieldAgrees name scope.fields (Data.child first.root name)
    (Data.child second.root name)

namespace Found

/-- What a name of a kind stands for in two stacks: places that agree, or the same metadata, which
counts as scalar. -/
inductive LooksAlike (kind : Kind) : Found δ → Found ε → Prop where
  | data {first : Option δ} {second : Option ε} (agree : kind.Agree first second) :
      LooksAlike kind (.ofOption first) (.ofOption second)
  | index (number : Nat) (scalar : kind = .scalar) :
      LooksAlike kind (.index number) (.index number)
  | flag (holds : Bool) (scalar : kind = .scalar) :
      LooksAlike kind (.flag holds) (.flag holds)

/-- What a reference of a kind comes to in two stacks. -/
inductive Agree (kind : Kind) : Found δ → Found ε → Prop where
  | absent : Agree kind .absent .absent
  | value {first : δ} {second : ε} (truthy : Data.truthy first = Data.truthy second)
      (content : kind.SameContent first second) :
      Agree kind (.value first) (.value second)
  | index (number : Nat) (scalar : kind = .scalar) : Agree kind (.index number) (.index number)
  | flag (holds : Bool) (scalar : kind = .scalar) : Agree kind (.flag holds) (.flag holds)

end Found

/-- Two results in step: both are the same violation, or none is one. -/
inductive Violation.InStep {α β : Type} (same : α → β → Prop) :
    Except Violation α → Except Violation β → Prop where
  | stopped (violation : Violation) : InStep same (.error violation) (.error violation)
  | ok {first : α} {second : β} (agree : same first second) : InStep same (.ok first) (.ok second)

theorem Violation.InStep.bind
    {α β γ η : Type} {same : α → β → Prop} {sameNext : γ → η → Prop}
    {first : Except Violation α} {second : Except Violation β} (inStep : InStep same first second)
    {firstNext : α → Except Violation γ} {secondNext : β → Except Violation η}
    (next : ∀ {first second}, same first second →
      InStep sameNext (firstNext first) (secondNext second)) :
    InStep sameNext (first.bind firstNext) (second.bind secondNext) := by
  cases inStep with
  | stopped violation => exact .stopped violation
  | ok agree => exact next agree

theorem Stack.findIn_looksAlike
    {fields : List (String × Kind)} {name : String} {kind : Kind} {loops : List LoopScope}
    {firstFrames : List (Frame δ)} {secondFrames : List (Frame ε)} {first : δ} {second : ε}
    (agree : LoopsAgree loops firstFrames secondFrames)
    (root : ∀ name, Kind.FieldAgrees name fields (Data.child first name) (Data.child second name))
    (found : Scope.findIn fields name loops = some (some kind)) :
    Found.LooksAlike kind (findIn first name firstFrames) (findIn second name secondFrames) := by
  induction agree with
  | nil =>
      simp only [Scope.findIn, Option.map_eq_some_iff, Option.some.injEq,
        exists_eq_right] at found
      exact .data (Kind.fieldAgrees_iff.mp (root name) kind found)
  | @cons loops firstFrames secondFrames binding element firstItem secondItem index length
      current outer induction =>
      unfold Scope.findIn at found
      unfold findIn
      by_cases bound : name = binding
      · subst bound
        simp only [if_true, Option.some.injEq] at found ⊢
        subst found
        exact .data current
      · rw [if_neg (Ne.symm bound)] at found
        rw [if_neg bound, if_neg bound]
        cases reserved : Metadata.ofName? name with
        | some metadata =>
            simp only [Metadata.isReserved, reserved, Option.isSome_some, if_true,
              Option.some.injEq] at found
            cases metadata with
            | index => exact .index _ found.symm
            | first => exact .flag _ found.symm
            | last => exact .flag _ found.symm
        | none =>
            simp only [Metadata.isReserved, reserved, Option.isSome_none, Bool.false_eq_true,
              if_false] at found
            exact induction found

namespace Found

theorem isMissing_ofOption (below : Option δ) :
    (ofOption below).isMissing = Data.isMissing below := by
  cases below <;> rfl

theorem LooksAlike.settle
    {kind : Kind} {first : Found δ} {second : Found ε} (alike : LooksAlike kind first second)
    (reference : Reference) (position : Nat) (step : Step) :
    Violation.InStep (Agree kind) (settle reference position step first)
      (settle reference position step second) := by
  cases alike with
  | index number scalar => exact .ok (.index number scalar)
  | flag holds scalar => exact .ok (.flag holds scalar)
  | @data first second agree =>
      cases agree with
      | present firstPresent secondPresent truthy content =>
          simpa [Found.settle, ofOption, firstPresent, secondPresent] using
            Violation.InStep.ok (.value truthy content)
      | missing firstMissing secondMissing =>
          rw [settle_of_isMissing ((isMissing_ofOption first).trans firstMissing),
            settle_of_isMissing ((isMissing_ofOption second).trans secondMissing)]
          split
          · exact .ok .absent
          · exact .stopped _

theorem Agree.follow
    {kind last : Kind} {steps : List Step} (leads : kind.Leads steps last)
    {first : Found δ} {second : Found ε} (agree : Agree kind first second)
    (reference : Reference) (position : Nat) :
    Violation.InStep (Agree last) (follow reference position first steps)
      (follow reference position second steps) := by
  induction leads generalizing first second position with
  | stay kind => exact .ok agree
  | @step kind field last step rest declared marked below induction =>
      cases agree with
      | absent => exact .ok .absent
      | index _ scalar | flag _ scalar =>
          rw [scalar, Kind.field?_scalar] at declared
          cases declared
      | @value first second truthy content =>
          obtain ⟨fields, object, entry⟩ := Kind.field?_eq_some_iff.mp declared
          have required := content.required
          rw [object] at required
          have fieldAgrees :
              field.Agree (Data.child first step.name) (Data.child second step.name) :=
            Kind.fieldAgrees_iff.mp (required step.name) field entry
          have settled := (LooksAlike.data fieldAgrees).settle reference position step
          rw [follow_value, follow_value]
          exact settled.bind fun agree => induction agree (position + 1)

end Found

/-- A reference comes to the same in two stacks that are in step. -/
theorem Stack.AgreeIn.resolve
    {scope : Scope} {first : Stack δ} {second : Stack ε} (agree : first.AgreeIn scope second)
    {reference : Reference} {kind : Kind} (refers : scope.Refers reference kind) :
    Violation.InStep (Found.Agree kind) (first.resolve reference) (second.resolve reference) := by
  cases refers with
  | @intro firstStep rest declared last inRange steps found marked leads =>
      have looked := findIn_looksAlike (agree.loops.drop reference.hops) agree.root found
      have settled := looked.settle reference 0 firstStep
      have firstRange : reference.hops ≤ first.frames.length := by
        rwa [agree.loops.length_first]
      have secondRange : reference.hops ≤ second.frames.length := by
        rwa [agree.loops.length_second]
      rw [resolve_of_inRange firstRange steps, resolve_of_inRange secondRange steps]
      exact settled.bind fun agree => agree.follow leads reference 1

theorem Stack.AgreeIn.enter
    {scope : Scope} {first : Stack δ} {second : Stack ε} (agree : first.AgreeIn scope second)
    (binding : String) {kind : Kind} {firstItem : δ} {secondItem : ε}
    (current : kind.Agree (some firstItem) (some secondItem)) (index length : Nat) :
    (first.enter binding firstItem index length).AgreeIn (scope.enter binding (some kind))
      (second.enter binding secondItem index length) where
  loops := .cons current agree.loops
  root := agree.root

namespace Found

variable {kind : Kind} {first : Found δ} {second : Found ε}

theorem Agree.truthy_eq (agree : Agree kind first second) : first.truthy = second.truthy := by
  cases agree with
  | absent | index _ _ | flag _ _ => rfl
  | value truthy _ => exact truthy

theorem Agree.scalar_eq (agree : Agree kind first second) (scalar : kind.required = .scalar) :
    first.scalar = second.scalar := by
  cases agree with
  | absent | index _ _ => rfl
  | flag holds _ => cases holds <;> rfl
  | @value first second _ content =>
      have required := content.required
      rw [scalar] at required
      have text : Data.text first = Data.text second := required
      simp [Found.scalar, Found.text, text]

theorem Agree.elements
    (agree : Agree kind first second) {element : Kind} (list : kind.required = .list element) :
    Violation.InStep
      (List.Forall₂ fun firstItem secondItem => element.Agree (some firstItem) (some secondItem))
      first.elements second.elements := by
  cases agree with
  | absent => exact .ok .nil
  | index _ _ | flag _ _ => exact .stopped _
  | @value first second _ content =>
      have required := content.required
      rw [list, Kind.SameContent] at required
      simp only [Found.elements]
      split at required
      · rename_i firstItems secondItems firstChildren secondChildren
        rw [firstChildren, secondChildren]
        exact .ok required
      · rename_i firstChildren secondChildren
        rw [firstChildren, secondChildren]
        exact .stopped _
      · exact required.elim

end Found

namespace Rendering

theorem demand_bind_eq
    {α β : Type} {same : α → β → Prop} {first : Except Violation α} {second : Except Violation β}
    (inStep : Violation.InStep same first second) (reference : Reference)
    {firstNext : α → Rendering Unit} {secondNext : β → Rendering Unit}
    (next : ∀ first second, same first second → firstNext first = secondNext second) :
    (demand reference first >>= firstNext) = (demand reference second >>= secondNext) := by
  cases inStep with
  | stopped violation => rfl
  | @ok first second agree =>
      rw [demand_ok, demand_ok, pure_bind, pure_bind]
      exact next first second agree

omit [Data δ] [Data ε] in
theorem forEach_eq
    {same : δ → ε → Prop} {firstAction : Nat → δ → Rendering Unit}
    {secondAction : Nat → ε → Rendering Unit} {firstItems : List δ} {secondItems : List ε}
    (items : List.Forall₂ same firstItems secondItems)
    (each : ∀ index first second, same first second →
      firstAction index first = secondAction index second)
    (index : Nat) :
    forEach firstAction index firstItems = forEach secondAction index secondItems := by
  induction items generalizing index with
  | nil => rfl
  | cons agree rest induction =>
      rw [forEach_cons, forEach_cons, each index _ _ agree, induction (index + 1)]

end Rendering

namespace Node

variable {first : Stack δ} {second : Stack ε} {reference : Reference} {kind : Kind}

theorem render_variable_eq
    (inStep : Violation.InStep (Found.Agree kind) (first.resolve reference)
      (second.resolve reference))
    (scalar : kind.required = .scalar) (raw : Bool) :
    render (.variable reference raw) first = render (.variable reference raw) second := by
  rw [render, render]
  apply Rendering.demand_bind_eq inStep
  intro firstFound secondFound agree
  rw [agree.scalar_eq scalar]

theorem render_loop_eq
    (inStep : Violation.InStep (Found.Agree kind) (first.resolve reference)
      (second.resolve reference))
    {element : Kind} (list : kind.required = .list element) {binding : String}
    {body : List (Node Reference)}
    (inside : ∀ firstItem secondItem, element.Agree (some firstItem) (some secondItem) →
      ∀ index length,
        renderAll body (first.enter binding firstItem index length) =
          renderAll body (second.enter binding secondItem index length)) :
    render (.loop reference binding body) first = render (.loop reference binding body) second := by
  rw [render, render]
  apply Rendering.demand_bind_eq inStep
  intro firstFound secondFound agree
  apply Rendering.demand_bind_eq (agree.elements list)
  intro firstItems secondItems items
  rw [items.length_eq]
  apply Rendering.forEach_eq items
  intro index firstItem secondItem current
  exact inside firstItem secondItem current index secondItems.length

theorem render_conditional_eq
    (inStep : Violation.InStep (Found.Agree kind) (first.resolve reference)
      (second.resolve reference))
    {thenBranch : List (Node Reference)} {elseBranch : Option (List (Node Reference))}
    (thenEq : renderAll thenBranch first = renderAll thenBranch second)
    (elseEq : renderAll (elseBranch.getD []) first = renderAll (elseBranch.getD []) second) :
    render (.conditional reference thenBranch elseBranch) first =
      render (.conditional reference thenBranch elseBranch) second := by
  rw [render_conditional_eq_bind, render_conditional_eq_bind]
  apply Rendering.demand_bind_eq inStep
  intro firstFound secondFound agree
  rw [agree.truthy_eq, thenEq, elseEq]

/-- A well-typed tree cannot tell two stacks apart that are in step. -/
theorem WellTyped.renderAll_eq
    {scope : Scope} {nodes : List (Node Reference)} (typed : WellTyped scope nodes)
    (agree : first.AgreeIn scope second) :
    renderAll nodes first = renderAll nodes second := by
  induction typed generalizing first second with
  | nil => rw [renderAll_nil, renderAll_nil]
  | text _ later => rw [renderAll_cons, renderAll_cons, render_text, render_text, later agree]
  | «variable» refers scalar _ later =>
      rw [renderAll_cons, renderAll_cons, later agree,
        render_variable_eq (agree.resolve refers) scalar]
  | loop refers list _ _ inside later =>
      have bodies := render_loop_eq (agree.resolve refers) list
        fun firstItem secondItem current index length =>
          inside (agree.enter _ current index length)
      rw [renderAll_cons, renderAll_cons, later agree, bodies]
  | conditional refers _ _ _ thenTyped elseTyped later =>
      have branches := render_conditional_eq (agree.resolve refers) (thenTyped agree)
        (elseTyped agree)
      rw [renderAll_cons, renderAll_cons, later agree, branches]

end Node

/-- An accepted tree renders the same on data that agrees on its schema. -/
theorem Template.renderTo_eq_of_agree
    {nodes : List (Node Path)} {schema : Schema} {template : Template}
    (accepted : Template.check nodes schema = .ok template)
    (named : ∀ path ∈ Node.pathsAll nodes, path.segments ≠ [])
    {first : δ} {second : ε} (agree : schema.Agree first second) (sink : Sink) :
    template.renderTo first sink = template.renderTo second sink := by
  have typed := Template.wellTyped_of_check accepted named
  have inStep : (Stack.ofRoot first).AgreeIn (Scope.ofSchema schema) (Stack.ofRoot second) :=
    { loops := .nil, root := agree }
  rw [renderTo, renderTo, typed.renderAll_eq inStep]

end Stencil
