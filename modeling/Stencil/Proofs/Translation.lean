import Stencil.Proofs.Rendering

/-!
# Translated data

A translation takes values of one sort to values of another that give the same answers, up to the
translation of the values among them.  A tree renders translated data as it renders the data
itself, whatever it refers to and wherever the rendering ends.
-/

namespace Stencil

variable {δ ε : Type}

/-- All that a rendering can learn about a value. -/
@[ext] structure Answers (δ : Type) where
  child : String → Option δ
  children : Option (List δ)
  text : Option String
  truthy : Bool
  isNull : Bool

def Answers.map (change : δ → ε) (answers : Answers δ) : Answers ε where
  child name := (answers.child name).map change
  children := answers.children.map (List.map change)
  text := answers.text
  truthy := answers.truthy
  isNull := answers.isNull

def Data.answers [Data δ] (value : δ) : Answers δ where
  child := child value
  children := children value
  text := text value
  truthy := truthy value
  isNull := isNull value

/-- Translated values answer what the values themselves do, with the values among the answers
translated. -/
def Data.Translates [Data δ] [Data ε] (change : δ → ε) : Prop :=
  ∀ value, answers (change value) = (answers value).map change

namespace Data.Translates

variable [Data δ] [Data ε] {change : δ → ε} (translates : Data.Translates change)
include translates

theorem child_eq (value : δ) (name : String) :
    Data.child (change value) name = (Data.child value name).map change :=
  congrFun (congrArg Answers.child (translates value)) name

theorem children_eq (value : δ) :
    Data.children (change value) = (Data.children value).map (List.map change) :=
  congrArg Answers.children (translates value)

theorem text_eq (value : δ) : Data.text (change value) = Data.text value :=
  congrArg Answers.text (translates value)

theorem truthy_eq (value : δ) : Data.truthy (change value) = Data.truthy value :=
  congrArg Answers.truthy (translates value)

theorem isNull_eq (value : δ) : Data.isNull (change value) = Data.isNull value :=
  congrArg Answers.isNull (translates value)

end Data.Translates

def Found.map (change : δ → ε) : Found δ → Found ε
  | .value data => .value (change data)
  | .index number => .index number
  | .flag holds => .flag holds
  | .absent => .absent

def Frame.map (change : δ → ε) (frame : Frame δ) : Frame ε where
  binding := frame.binding
  element := change frame.element
  index := frame.index
  length := frame.length

def Stack.map (change : δ → ε) (stack : Stack δ) : Stack ε where
  root := change stack.root
  frames := stack.frames.map (Frame.map change)

theorem Found.map_ofOption (change : δ → ε) (value : Option δ) :
    (ofOption value).map change = ofOption (value.map change) := by
  cases value <;> rfl

theorem Frame.metadata_map (change : δ → ε) (frame : Frame δ) (metadata : Metadata) :
    (frame.map change).metadata metadata = (frame.metadata metadata).map change := by
  cases metadata <;> rfl

theorem Stack.map_enter
    (change : δ → ε) (stack : Stack δ) (binding : String) (element : δ) (index length : Nat) :
    (stack.enter binding element index length).map change =
      (stack.map change).enter binding (change element) index length := rfl

variable [Data δ] [Data ε] {change : δ → ε} (translates : Data.Translates change)
include translates

namespace Found

theorem settle_map (reference : Reference) (position : Nat) (step : Step) (found : Found δ) :
    settle reference position step (found.map change) =
      (settle reference position step found).map (Found.map change) := by
  cases found with
  | value data =>
      simp only [map, settle, translates.isNull_eq]
      split
      · split <;> rfl
      · rfl
  | absent =>
      simp only [map, settle]
      split <;> rfl
  | index number => rfl
  | flag holds => rfl

theorem follow_map
    (reference : Reference) (position : Nat) (found : Found δ) (steps : List Step) :
    follow reference position (found.map change) steps =
      (follow reference position found steps).map (Found.map change) := by
  induction steps generalizing position found with
  | nil => rfl
  | cons step rest induction =>
      cases found with
      | absent => rfl
      | index number => rfl
      | flag holds => rfl
      | value data =>
          have settled := settle_map translates reference position step
            (.ofOption (Data.child data step.name))
          rw [map_ofOption, ← translates.child_eq] at settled
          simp only [map, follow, settled]
          cases settle reference position step (.ofOption (Data.child data step.name)) with
          | error violation => rfl
          | ok next => exact induction (position + 1) next

theorem truthy_map (found : Found δ) : (found.map change).truthy = found.truthy := by
  cases found with
  | value data => exact translates.truthy_eq data
  | index _ | flag _ | absent => rfl

theorem scalar_map (found : Found δ) : (found.map change).scalar = found.scalar := by
  cases found with
  | value data => simp only [map, scalar, text, translates.text_eq]
  | flag holds => cases holds <;> rfl
  | index _ | absent => rfl

theorem elements_map (found : Found δ) :
    (found.map change).elements = found.elements.map (List.map change) := by
  cases found with
  | value data =>
      simp only [map, elements, translates.children_eq]
      cases Data.children data <;> rfl
  | index _ | flag _ | absent => rfl

end Found

namespace Stack

theorem findIn_map (root : δ) (name : String) (frames : List (Frame δ)) :
    findIn (change root) name (frames.map (Frame.map change)) =
      (findIn root name frames).map change := by
  induction frames with
  | nil =>
      rw [List.map_nil, findIn, findIn, translates.child_eq, Found.map_ofOption]
  | cons innermost outer induction =>
      have sameBinding : (innermost.map change).binding = innermost.binding := rfl
      rw [List.map_cons, findIn, findIn, sameBinding]
      split
      · rfl
      · cases Metadata.ofName? name with
        | some metadata => exact innermost.metadata_map change metadata
        | none => exact induction

theorem resolve_map (stack : Stack δ) (reference : Reference) :
    (stack.map change).resolve reference =
      (stack.resolve reference).map (Found.map change) := by
  have sameDepth : (stack.map change).frames.length = stack.frames.length :=
    List.length_map _
  simp only [resolve, sameDepth]
  split
  · rfl
  · cases reference.steps with
    | nil => rfl
    | cons first rest =>
        have outside : (stack.map change).frames.drop reference.hops =
            (stack.frames.drop reference.hops).map (Frame.map change) :=
          List.map_drop.symm
        have looked := findIn_map translates stack.root first.name
          (stack.frames.drop reference.hops)
        have settled := Found.settle_map translates reference 0 first
          (findIn stack.root first.name (stack.frames.drop reference.hops))
        rw [← looked, ← outside] at settled
        have sameRoot : (stack.map change).root = change stack.root := rfl
        simp only [sameRoot, settled]
        cases Found.settle reference 0 first
            (findIn stack.root first.name (stack.frames.drop reference.hops)) with
        | error violation => rfl
        | ok found => exact Found.follow_map translates reference 1 found rest

end Stack

namespace Rendering

omit translates [Data δ] [Data ε] in
theorem demand_map_bind
    {α β : Type} (reference : Reference) (outcome : Except Violation α) (change : α → β)
    (next : β → Rendering Unit) :
    (demand reference (outcome.map change) >>= next) =
      (demand reference outcome >>= fun result => next (change result)) := by
  cases outcome <;> rfl

omit translates [Data δ] [Data ε] in
theorem forEach_map
    (action : Nat → ε → Rendering Unit) (index : Nat) (change : δ → ε) (items : List δ) :
    forEach action index (items.map change) =
      forEach (fun index item => action index (change item)) index items := by
  induction items generalizing index with
  | nil => rfl
  | cons item rest induction =>
      rw [List.map_cons, forEach_cons, forEach_cons, induction]

end Rendering

/-- A tree renders translated data like the data itself. -/
theorem Node.renderAll_map (nodes : List (Node Reference)) (stack : Stack δ) :
    renderAll nodes (stack.map change) = renderAll nodes stack := by
  induction nodes using sequence_induction generalizing stack with
  | nil => rw [renderAll_nil, renderAll_nil]
  | text content rest later =>
      rw [renderAll_cons, renderAll_cons, render_text, render_text, later]
  | «variable» reference raw rest later =>
      rw [renderAll_cons, renderAll_cons, later, render, render,
        Stack.resolve_map translates, Rendering.demand_map_bind]
      simp only [Found.scalar_map translates]
  | loop reference binding body rest inside later =>
      rw [renderAll_cons, renderAll_cons, later, render, render,
        Stack.resolve_map translates, Rendering.demand_map_bind]
      simp only [Found.elements_map translates, Rendering.demand_map_bind,
        Rendering.forEach_map, List.length_map, ← Stack.map_enter, inside]
  | conditional reference thenBranch elseBranch rest first second later =>
      have resolved := Stack.resolve_map translates stack reference
      rw [renderAll_cons, renderAll_cons, later]
      cases unmapped : stack.resolve reference with
      | error violation =>
          rw [unmapped] at resolved
          rw [render_of_violation rfl unmapped, render_of_violation rfl resolved]
      | ok found =>
          rw [unmapped] at resolved
          rw [render_conditional unmapped, render_conditional resolved,
            Found.truthy_map translates, first, second]

theorem Template.renderTo_of_translates (template : Template) (data : δ) (sink : Sink) :
    template.renderTo (change data) sink = template.renderTo data sink := by
  have root : Stack.ofRoot (change data) = (Stack.ofRoot data).map change := rfl
  rw [renderTo, renderTo, root, Node.renderAll_map translates]

end Stencil
