import Stencil.Proofs.Paths

/-!
# Rendering step by step

Each node first resolves what it refers to.  Where that fails, the node fails without writing
anything; otherwise what was found decides about the rest.  The equations below say so for every
kind of node, and how a sink goes from one node to the next.
-/

namespace Stencil

namespace Rendering

variable {α β δ : Type}

theorem bind_apply (action : Rendering α) (next : α → Rendering β) (sink : Sink) :
    (action >>= next) sink =
      match action sink with
      | .ok result sink => next result sink
      | .error error sink => .error error sink := by
  cases done : action sink <;> simp [bind, EStateM.bind, done]

theorem bind_of_ok
    {action : Rendering α} {sink after : Sink} {result : α}
    (done : action sink = .ok result after) (next : α → Rendering β) :
    (action >>= next) sink = next result after := by
  rw [bind_apply, done]

theorem bind_of_error
    {action : Rendering α} {sink after : Sink} {error : RenderError}
    (stopped : action sink = .error error after) (next : α → Rendering β) :
    (action >>= next) sink = .error error after := by
  rw [bind_apply, stopped]

theorem emit_of_unlimited {sink : Sink} (unlimited : sink.room = none) (content : String) :
    emit content sink = .ok () { text := sink.text ++ content, room := none } := by
  simp [emit, Sink.write, unlimited]

theorem emit_of_fits
    {sink : Sink} {available : Nat} {content : String} (room : sink.room = some available)
    (fits : content.utf8ByteSize ≤ available) :
    emit content sink =
      .ok ()
        { text := sink.text ++ content, room := some (available - content.utf8ByteSize) } := by
  simp [emit, Sink.write, room, fits]

theorem emitAll_of_unlimited (contents : List String) {sink : Sink} (unlimited : sink.room = none) :
    emitAll contents sink =
      .ok () { text := sink.text ++ String.join contents, room := none } := by
  induction contents generalizing sink with
  | nil =>
      obtain ⟨text, room⟩ := sink
      cases unlimited
      simp [emitAll, pure, EStateM.pure]
  | cons content rest induction =>
      rw [emitAll, bind_of_ok (emit_of_unlimited unlimited content), induction rfl,
        String.join_cons, String.append_assoc]

@[simp] theorem emit_empty : emit "" = pure () := by
  funext sink
  obtain ⟨text, room⟩ := sink
  cases room <;> simp [emit, Sink.write, pure, EStateM.pure]

/-- A text that does not fit is cut off behind the last character that fits. -/
theorem emit_of_full
    {sink : Sink} {available : Nat} {content : String} (room : sink.room = some available)
    (full : available < content.utf8ByteSize) :
    emit content sink =
      let kept := String.ofList (Sink.fitting available content.toList)
      .error .outputFailure
        { text := sink.text ++ kept, room := some (available - kept.utf8ByteSize) } := by
  simp [emit, Sink.write, room, Nat.not_le.mpr full]

theorem eq_outputFailure_of_emit
    {content : String} {sink after : Sink} {error : RenderError}
    (stopped : emit content sink = .error error after) :
    error = .outputFailure := by
  unfold emit at stopped
  split at stopped
  · cases stopped
  · cases stopped
    rfl

theorem eq_outputFailure_of_emitAll
    {contents : List String} {sink after : Sink} {error : RenderError}
    (stopped : emitAll contents sink = .error error after) :
    error = .outputFailure := by
  induction contents generalizing sink with
  | nil => cases stopped
  | cons content rest induction =>
      rw [emitAll, bind_apply] at stopped
      split at stopped
      · exact induction stopped
      · rename_i failed
        cases stopped
        exact eq_outputFailure_of_emit failed

@[simp] theorem demand_ok (reference : Reference) (result : α) :
    demand reference (.ok result) = pure result := rfl

@[simp] theorem demand_error (reference : Reference) (violation : Violation) :
    (demand reference (.error violation) : Rendering α) =
      throw (.contractViolation reference.path violation) := rfl

theorem throw_apply (error : RenderError) (sink : Sink) :
    (throw error : Rendering α) sink = .error error sink := rfl

theorem throw_bind (error : RenderError) (next : α → Rendering β) :
    ((throw error : Rendering α) >>= next) = throw error := rfl

@[simp] theorem forEach_nil (action : Nat → δ → Rendering Unit) (index : Nat) :
    forEach action index [] = pure () := rfl

theorem forEach_cons
    (action : Nat → δ → Rendering Unit) (index : Nat) (element : δ) (rest : List δ) :
    forEach action index (element :: rest) =
      action index element >>= fun _ => forEach action (index + 1) rest := rfl

theorem forEach_append
    (action : Nat → δ → Rendering Unit) (index : Nat) (first second : List δ) :
    forEach action index (first ++ second) =
      forEach action index first >>= fun _ => forEach action (index + first.length) second := by
  induction first generalizing index with
  | nil => simp
  | cons element rest induction =>
      have place : index + 1 + rest.length = index + (rest.length + 1) := by omega
      simp [forEach_cons, induction, place]

theorem forEach_of_error
    {action : Nat → δ → Rendering Unit} {items : List δ} {index : Nat} {item : δ}
    {sink middle after : Sink} {error : RenderError}
    (current : items[index]? = some item)
    (earlier : forEach action 0 (items.take index) sink = .ok () middle)
    (stopped : action index item middle = .error error after) :
    forEach action 0 items sink = .error error after := by
  obtain ⟨bound, entry⟩ := List.getElem?_eq_some_iff.mp current
  have split : items.take index ++ item :: items.drop (index + 1) = items := by
    rw [← entry, List.getElem_cons_drop, List.take_append_drop]
  have place : 0 + (items.take index).length = index := by
    rw [List.length_take]
    omega
  rw [← split, forEach_append, bind_of_ok earlier, place, forEach_cons]
  exact bind_of_error stopped _

/-- A sequence that fails does so at an element before which all others are done. -/
theorem exists_of_forEach_error
    {action : Nat → δ → Rendering Unit} {items : List δ} {start : Nat} {sink after : Sink}
    {error : RenderError} (stopped : forEach action start items sink = .error error after) :
    ∃ index item middle, items[index]? = some item ∧
      forEach action start (items.take index) sink = .ok () middle ∧
      action (start + index) item middle = .error error after := by
  induction items generalizing start sink with
  | nil => cases stopped
  | cons first rest induction =>
      rw [forEach_cons, bind_apply] at stopped
      split at stopped
      · rename_i middle done
        obtain ⟨index, item, last, current, earlier, failed⟩ := induction stopped
        refine ⟨index + 1, item, last, by simpa using current, ?_, ?_⟩
        · rw [List.take_succ_cons, forEach_cons, bind_of_ok done]
          exact earlier
        · rwa [Nat.add_right_comm] at failed
      · rename_i failed
        cases stopped
        exact ⟨0, first, sink, rfl, rfl, failed⟩

end Rendering

namespace Node

variable {δ : Type} [Data δ] {stack : Stack δ} {reference : Reference}

@[simp] theorem renderAll_nil (stack : Stack δ) : renderAll [] stack = pure () := by
  rw [renderAll]

theorem renderAll_cons (node : Node Reference) (rest : List (Node Reference)) (stack : Stack δ) :
    renderAll (node :: rest) stack = render node stack >>= fun _ => renderAll rest stack := by
  rw [renderAll]

theorem renderAll_append (first second : List (Node Reference)) (stack : Stack δ) :
    renderAll (first ++ second) stack =
      renderAll first stack >>= fun _ => renderAll second stack := by
  induction first with
  | nil => rw [List.nil_append, renderAll_nil, pure_bind]
  | cons node rest induction =>
      rw [List.cons_append, renderAll_cons, renderAll_cons, induction, bind_assoc]

@[simp] theorem render_text (content : String) (stack : Stack δ) :
    render (.text content) stack = Rendering.emit content := by
  rw [render]

/-- A node whose reference does not resolve fails before it writes anything. -/
theorem render_of_violation
    {node : Node Reference} {violation : Violation}
    (refers : node.reference? = some reference)
    (stopped : stack.resolve reference = .error violation) :
    render node stack = throw (.contractViolation reference.path violation) := by
  cases node with
  | text content => simp [reference?] at refers
  | «variable» path raw | loop path binding body =>
      simp only [reference?, Option.some.injEq] at refers
      subst refers
      simp only [render, stopped, Rendering.demand_error]
      rfl
  | conditional path thenBranch elseBranch =>
      simp only [reference?, Option.some.injEq] at refers
      subst refers
      cases elseBranch <;> simp only [render, stopped, Rendering.demand_error] <;> rfl

theorem render_variable
    {found : Found δ} (resolved : stack.resolve reference = .ok found) (raw : Bool) :
    render (.variable reference raw) stack =
      Rendering.demand reference found.scalar >>= fun content =>
        Rendering.emitAll (if raw then [content] else Text.escape content) := by
  rw [render, resolved]
  rfl

theorem render_loop
    {found : Found δ} (resolved : stack.resolve reference = .ok found)
    (binding : String) (body : List (Node Reference)) :
    render (.loop reference binding body) stack =
      Rendering.demand reference found.elements >>= fun elements =>
        Rendering.forEach
          (fun index element =>
            renderAll body (stack.enter binding element index elements.length))
          0 elements := by
  rw [render, resolved]
  rfl

theorem render_conditional_eq_bind
    (reference : Reference) (thenBranch : List (Node Reference))
    (elseBranch : Option (List (Node Reference))) (stack : Stack δ) :
    render (.conditional reference thenBranch elseBranch) stack =
      Rendering.demand reference (stack.resolve reference) >>= fun found =>
        if found.truthy then renderAll thenBranch stack
        else renderAll (elseBranch.getD []) stack := by
  cases elseBranch with
  | none => rw [render, Option.getD_none, renderAll_nil]
  | some nodes => rw [render, Option.getD_some]

theorem render_conditional
    {found : Found δ} (resolved : stack.resolve reference = .ok found)
    (thenBranch : List (Node Reference)) (elseBranch : Option (List (Node Reference))) :
    render (.conditional reference thenBranch elseBranch) stack =
      if found.truthy then renderAll thenBranch stack
      else renderAll (elseBranch.getD []) stack := by
  rw [render_conditional_eq_bind, resolved]
  rfl

end Node

end Stencil
