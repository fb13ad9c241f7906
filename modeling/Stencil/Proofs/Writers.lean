import Stencil.Proofs.Rendering

/-!
# Any writer

A template can be written to anything that takes texts one by one and tells of each whether it took
it; a sink is one such writer.  Nothing is known about when a writer fails.  As long as it does not,
a run goes on as if it wrote to a sink without a limit.
-/

namespace Stencil

/-- Something that takes texts, with states of its own.  A write tells whether it succeeded; what
becomes of the state of a writer that fails is left open. -/
abbrev Writer (ω : Type) := ω → String → Bool × ω

namespace Writer

variable {ω α δ : Type}

/-- Something that writes to a writer and may stop. -/
abbrev Action (ω : Type) := EStateM RenderError ω

def emit (write : Writer ω) (content : String) : Action ω Unit := fun state =>
  match write state content with
  | (true, after) => .ok () after
  | (false, after) => .error .outputFailure after

def emitAll (write : Writer ω) : List String → Action ω Unit
  | [] => pure ()
  | content :: rest => do
      write.emit content
      write.emitAll rest

def demand (reference : Reference) : Except Violation α → Action ω α
  | .ok result => pure result
  | .error violation => throw (.contractViolation reference.path violation)

def forEach (action : Nat → δ → Action ω Unit) (index : Nat) : List δ → Action ω Unit
  | [] => pure ()
  | element :: rest => do
      action index element
      forEach action (index + 1) rest

variable [Data δ]

mutual

def render (write : Writer ω) : Node Reference → Stack δ → Action ω Unit
  | .text content, _ => write.emit content
  | .variable reference raw, stack => do
      let found ← demand reference (stack.resolve reference)
      let content ← demand reference found.scalar
      write.emitAll (if raw then [content] else Text.escape content)
  | .loop reference binding body, stack => do
      let found ← demand reference (stack.resolve reference)
      let elements ← demand reference found.elements
      forEach
        (fun index element =>
          write.renderAll body (stack.enter binding element index elements.length))
        0 elements
  | .conditional reference thenBranch elseBranch, stack => do
      let found ← demand reference (stack.resolve reference)
      if found.truthy then write.renderAll thenBranch stack
      else
        match elseBranch with
        | none => pure ()
        | some nodes => write.renderAll nodes stack

def renderAll (write : Writer ω) : List (Node Reference) → Stack δ → Action ω Unit
  | [], _ => pure ()
  | node :: rest, stack => do
      write.render node stack
      write.renderAll rest stack

end

end Writer

/-- Writes a template for data to a writer in a given state. -/
def Template.renderOn
    {ω δ : Type} [Data δ] (template : Template) (write : Writer ω) (data : δ) (state : ω) :
    Except RenderError Unit × ω :=
  match write.renderAll template.nodes (Stack.ofRoot data) state with
  | .ok () after => (.ok (), after)
  | .error error after => (.error error, after)

namespace Writer

variable {α δ : Type}

theorem emit_write (content : String) : emit Sink.write content = Rendering.emit content := by
  funext sink
  rcases written : sink.write content with ⟨fits, after⟩
  cases fits <;> simp only [emit, Rendering.emit, written]

theorem emitAll_write (contents : List String) :
    emitAll Sink.write contents = Rendering.emitAll contents := by
  induction contents with
  | nil => rfl
  | cons content rest induction => rw [emitAll, induction, emit_write, Rendering.emitAll]

theorem demand_sink (reference : Reference) (outcome : Except Violation α) :
    (demand reference outcome : Rendering α) = Rendering.demand reference outcome := by
  cases outcome <;> rfl

theorem forEach_sink (action : Nat → δ → Rendering Unit) (index : Nat) (items : List δ) :
    forEach action index items = Rendering.forEach action index items := by
  induction items generalizing index with
  | nil => rfl
  | cons item rest induction => rw [forEach, induction, Rendering.forEach]

theorem renderAll_write [Data δ] (nodes : List (Node Reference)) (stack : Stack δ) :
    renderAll Sink.write nodes stack = Node.renderAll nodes stack := by
  induction nodes using Node.sequence_induction generalizing stack with
  | nil => rw [renderAll, Node.renderAll]
  | text content rest later =>
      rw [renderAll, Node.renderAll, later, render, Node.render, emit_write]
  | «variable» reference raw rest later =>
      simp only [renderAll, Node.renderAll, later, render, Node.render, demand_sink, emitAll_write]
  | loop reference binding body rest inside later =>
      simp only [renderAll, Node.renderAll, later, render, Node.render, demand_sink, inside,
        forEach_sink]
  | conditional reference thenBranch elseBranch rest first second later =>
      cases elseBranch with
      | none =>
          simp only [renderAll, Node.renderAll, later, render, Node.render, demand_sink, first]
      | some nodes =>
          rw [Option.getD_some] at second
          simp only [renderAll, Node.renderAll, later, render, Node.render, demand_sink, first,
            second]

end Writer

/-- Rendering to a sink is rendering to a writer. -/
theorem Template.renderOn_write
    {δ : Type} [Data δ] (template : Template) (data : δ) (sink : Sink) :
    template.renderOn Sink.write data sink = template.renderTo data sink := by
  rw [renderOn, renderTo, Writer.renderAll_write]
  cases Node.renderAll template.nodes (Stack.ofRoot data) sink <;> rfl

namespace Writer

variable {ω α β δ : Type}

/-- An action on a writer goes like one on a sink without a limit: it has the same result or ends
with the same violation, unless a write fails. -/
def Follows (action : Action ω α) (model : Rendering α) : Prop :=
  ∀ state sink, sink.room = none →
    match action state with
    | .ok result _ => ∃ after, model sink = .ok result after ∧ after.room = none
    | .error error _ =>
        error = .outputFailure ∨
          ∃ path violation after, error = .contractViolation path violation ∧
            model sink = .error error after

theorem Follows.pure (result : α) : Follows (pure result : Action ω α) (pure result) :=
  fun _ sink unlimited => ⟨sink, rfl, unlimited⟩

theorem Follows.violation (path : Path) (violation : Violation) :
    Follows (throw (.contractViolation path violation) : Action ω α)
      (throw (.contractViolation path violation)) :=
  fun _ sink _ => .inr ⟨path, violation, sink, rfl, rfl⟩

theorem Follows.bind
    {first : Action ω α} {firstModel : Rendering α} {next : α → Action ω β}
    {nextModel : α → Rendering β} (follows : Follows first firstModel)
    (nextFollows : ∀ result, Follows (next result) (nextModel result)) :
    Follows (first >>= next) (firstModel >>= nextModel) := by
  intro state sink unlimited
  have begun := follows state sink unlimited
  have step : (first >>= next) state =
      match first state with
      | .ok result middle => next result middle
      | .error error middle => .error error middle := by
    cases done : first state <;> simp [Bind.bind, EStateM.bind, done]
  rw [step]
  cases done : first state with
  | ok result middle =>
      rw [done] at begun
      obtain ⟨after, modelDone, room⟩ := begun
      rw [Rendering.bind_of_ok modelDone]
      exact nextFollows result middle after room
  | error error middle =>
      rw [done] at begun
      rcases begun with failed | ⟨path, violation, after, same, stopped⟩
      · exact .inl failed
      · exact .inr ⟨path, violation, after, same, Rendering.bind_of_error stopped _⟩

theorem Follows.ite
    {first second : Action ω α} {firstModel secondModel : Rendering α} {condition : Prop}
    [Decidable condition] (follows : Follows first firstModel)
    (otherwise : Follows second secondModel) :
    Follows (if condition then first else second)
      (if condition then firstModel else secondModel) := by
  split
  · exact follows
  · exact otherwise

theorem follows_emit (write : Writer ω) (content : String) :
    Follows (write.emit content) (Rendering.emit content) := by
  intro state sink unlimited
  rcases written : write state content with ⟨done, after⟩
  cases done with
  | true =>
      simp only [emit, written]
      exact ⟨_, Rendering.emit_of_unlimited unlimited content, rfl⟩
  | false =>
      simp [emit, written]

theorem follows_emitAll (write : Writer ω) (contents : List String) :
    Follows (write.emitAll contents) (Rendering.emitAll contents) := by
  induction contents with
  | nil => exact .pure ()
  | cons content rest induction => exact (follows_emit write content).bind fun _ => induction

theorem follows_demand (reference : Reference) (outcome : Except Violation α) :
    Follows (demand reference outcome : Action ω α) (Rendering.demand reference outcome) := by
  cases outcome with
  | ok result => exact .pure result
  | error violation => exact .violation _ violation

theorem follows_forEach
    {action : Nat → δ → Action ω Unit} {model : Nat → δ → Rendering Unit}
    (follows : ∀ index item, Follows (action index item) (model index item)) (index : Nat)
    (items : List δ) :
    Follows (forEach action index items) (Rendering.forEach model index items) := by
  induction items generalizing index with
  | nil => exact .pure ()
  | cons item rest induction => exact (follows index item).bind fun _ => induction (index + 1)

theorem follows_renderAll
    [Data δ] (write : Writer ω) (nodes : List (Node Reference)) (stack : Stack δ) :
    Follows (write.renderAll nodes stack) (Node.renderAll nodes stack) := by
  induction nodes using Node.sequence_induction generalizing stack with
  | nil =>
      rw [renderAll, Node.renderAll]
      exact .pure ()
  | text content rest later =>
      rw [renderAll, Node.renderAll, render, Node.render]
      exact (follows_emit write content).bind fun _ => later stack
  | «variable» reference raw rest later =>
      rw [renderAll, Node.renderAll, render, Node.render]
      refine Follows.bind ?_ fun _ => later stack
      exact (follows_demand reference _).bind fun found =>
        (follows_demand reference _).bind fun content => follows_emitAll write _
  | loop reference binding body rest inside later =>
      rw [renderAll, Node.renderAll, render, Node.render]
      refine Follows.bind ?_ fun _ => later stack
      exact (follows_demand reference _).bind fun found =>
        (follows_demand reference _).bind fun elements =>
          follows_forEach (fun index element => inside _) 0 elements
  | conditional reference thenBranch elseBranch rest first second later =>
      rw [renderAll, Node.renderAll]
      refine Follows.bind ?_ fun _ => later stack
      cases elseBranch with
      | none =>
          rw [render, Node.render]
          exact (follows_demand reference _).bind fun found => (first stack).ite (.pure ())
      | some nodes =>
          rw [render, Node.render]
          exact (follows_demand reference _).bind fun found => (first stack).ite (second stack)

end Writer

/-- A writer can end a run only by failing.  Whatever else ends the run is a violation, which ends
it without a limit too. -/
theorem Template.violation_of_renderOn
    {ω δ : Type} [Data δ] {template : Template} {write : Writer ω} {data : δ} {state after : ω}
    {error : RenderError} (stopped : template.renderOn write data state = (.error error, after)) :
    error = .outputFailure ∨
      ∃ path violation sink, error = .contractViolation path violation ∧
        Node.renderAll template.nodes (.ofRoot data) .unlimited =
          .error (.contractViolation path violation) sink := by
  have follows := Writer.follows_renderAll write template.nodes (.ofRoot data) state .unlimited rfl
  unfold renderOn at stopped
  split at stopped
  · cases stopped
  · rename_i failed
    cases stopped
    rw [failed] at follows
    rcases follows with output | ⟨path, violation, sink, rfl, modelFailed⟩
    · exact .inl output
    · exact .inr ⟨path, violation, sink, rfl, modelFailed⟩

end Stencil
