import Stencil.Proofs.Rendering

/-!
# What an action writes

What a rendering tries to write to a sink is a list of texts, one behind the other.  It ends with
the first one that does not fit, or else with a result of its own.  Texts and results compose where
one action follows another.
-/

namespace Stencil

namespace Sink

theorem fitting_begins (room : Nat) (characters : List Char) :
    fitting room characters <+: characters := by
  induction characters generalizing room with
  | nil => exact List.nil_prefix
  | cons character rest induction =>
      unfold fitting
      split
      · exact (List.prefix_cons_inj character).mpr (induction _)
      · exact List.nil_prefix

/-- Takes texts one behind the other, up to the first one that does not fit. -/
def writeAll (sink : Sink) : List String → Bool × Sink
  | [] => (true, sink)
  | content :: rest =>
      match sink.write content with
      | (true, after) => after.writeAll rest
      | (false, after) => (false, after)

theorem writeAll_append (sink : Sink) (first second : List String) :
    sink.writeAll (first ++ second) =
      match sink.writeAll first with
      | (true, after) => after.writeAll second
      | (false, after) => (false, after) := by
  induction first generalizing sink with
  | nil => rfl
  | cons content rest induction =>
      rw [List.cons_append, writeAll, writeAll]
      rcases sink.write content with ⟨fits, after⟩
      cases fits with
      | true => exact induction after
      | false => rfl

/-- A write leaves the sink with a beginning of the text, which is all of it unless the write
fails. -/
theorem write_begins (sink : Sink) (content : String) :
    ∃ kept, (sink.write content).2.text = sink.text ++ kept ∧ kept.toList <+: content.toList ∧
      ((sink.write content).1 = true → kept = content) := by
  obtain ⟨written, room⟩ := sink
  cases room with
  | none => exact ⟨content, rfl, List.prefix_refl _, fun _ => rfl⟩
  | some room =>
      by_cases fits : content.utf8ByteSize ≤ room
      · exact ⟨content, by simp [write, fits], List.prefix_refl _, fun _ => rfl⟩
      · refine ⟨String.ofList (fitting room content.toList), by simp [write, fits], ?_, ?_⟩
        · rw [String.toList_ofList]
          exact fitting_begins room content.toList
        · simp [write, fits]

theorem writeAll_begins (sink : Sink) (contents : List String) :
    ∃ kept, (sink.writeAll contents).2.text = sink.text ++ kept ∧
      kept.toList <+: (String.join contents).toList ∧
      ((sink.writeAll contents).1 = true → kept = String.join contents) := by
  induction contents generalizing sink with
  | nil => exact ⟨"", by simp [writeAll], List.nil_prefix, fun _ => rfl⟩
  | cons content rest induction =>
      obtain ⟨first, firstText, firstBegins, firstWhole⟩ := write_begins sink content
      rw [writeAll, String.join_cons, String.toList_append]
      rcases written : sink.write content with ⟨fits, after⟩
      rw [written] at firstText firstWhole
      cases fits with
      | true =>
          obtain ⟨later, laterText, laterBegins, laterWhole⟩ := induction after
          obtain rfl := firstWhole rfl
          refine ⟨first ++ later, ?_, ?_, ?_⟩
          · rw [laterText, firstText, String.append_assoc]
          · rw [String.toList_append]
            exact (List.prefix_append_right_inj _).mpr laterBegins
          · intro whole
            rw [laterWhole whole]
      | false => exact ⟨first, firstText, firstBegins.trans (List.prefix_append _ _), nofun⟩

end Sink

/-- How data ends a rendering, if it does. -/
def RenderError.OfData (result : Except RenderError Unit) : Prop :=
  result = .ok () ∨ ∃ path violation, result = .error (.contractViolation path violation)

namespace Rendering

variable {α δ : Type}

/-- The end of an action that has tried to write texts: the first text that does not fit ends it,
whatever else might have. -/
def finish (result : Except RenderError Unit) :
    Bool × Sink → EStateM.Result RenderError Sink Unit
  | (false, after) => .error .outputFailure after
  | (true, after) =>
      match result with
      | .ok () => .ok () after
      | .error error => .error error after

/-- On any sink the action tries to write the texts, one behind the other up to the first one that
does not fit, and ends with the result if all of them do. -/
def Writes (action : Rendering Unit) (contents : List String)
    (result : Except RenderError Unit) : Prop :=
  ∀ sink, action sink = finish result (sink.writeAll contents)

theorem writes_pure : Writes (pure ()) [] (.ok ()) := by
  intro sink
  rfl

theorem writes_throw (error : RenderError) : Writes (throw error) [] (.error error) := by
  intro sink
  rfl

theorem writes_emit (content : String) : Writes (emit content) [content] (.ok ()) := by
  intro sink
  unfold emit Sink.writeAll
  rcases sink.write content with ⟨fits, after⟩
  cases fits <;> rfl

theorem Writes.bind_of_ok
    {first second : Rendering Unit} {contents later : List String}
    {result : Except RenderError Unit} (firstWrites : Writes first contents (.ok ()))
    (secondWrites : Writes second later result) :
    Writes (first >>= fun _ => second) (contents ++ later) result := by
  intro sink
  rw [bind_apply, firstWrites sink, Sink.writeAll_append]
  rcases sink.writeAll contents with ⟨fits, after⟩
  cases fits with
  | true => exact secondWrites after
  | false => rfl

theorem writes_emitAll (contents : List String) : Writes (emitAll contents) contents (.ok ()) := by
  induction contents with
  | nil => exact writes_pure
  | cons content rest induction => exact (writes_emit content).bind_of_ok induction

theorem Writes.bind_of_error
    {first second : Rendering Unit} {contents : List String} {error : RenderError}
    (firstWrites : Writes first contents (.error error)) :
    Writes (first >>= fun _ => second) contents (.error error) := by
  intro sink
  rw [bind_apply, firstWrites sink]
  rcases sink.writeAll contents with ⟨fits, after⟩
  cases fits <;> rfl

end Rendering

namespace Template

variable {δ : Type} [Data δ]

/-- The result and the sink of a rendering that has tried to write texts. -/
def concluded (result : Except RenderError Unit) : Bool × Sink → Except RenderError Unit × Sink
  | (true, after) => (result, after)
  | (false, after) => (.error .outputFailure, after)

theorem renderTo_of_writes
    {template : Template} {data : δ} {contents : List String} {result : Except RenderError Unit}
    (writes : Rendering.Writes (Node.renderAll template.nodes (Stack.ofRoot data)) contents result)
    (sink : Sink) :
    template.renderTo data sink = concluded result (sink.writeAll contents) := by
  rw [renderTo, writes sink]
  rcases sink.writeAll contents with ⟨fits, after⟩
  cases fits with
  | true => rcases result with error | ⟨⟩ <;> rfl
  | false => rfl

/-- What has been written is a beginning of the text, and all of it unless the output fails. -/
theorem renderTo_begins
    {template : Template} {data : δ} {contents : List String} {result : Except RenderError Unit}
    (writes : Rendering.Writes (Node.renderAll template.nodes (Stack.ofRoot data)) contents result)
    (room : Option Nat) :
    (template.renderTo data { text := "", room }).2.text.toList <+: (String.join contents).toList ∧
      ((template.renderTo data { text := "", room }).1 ≠ .error .outputFailure →
        (template.renderTo data { text := "", room }).2.text = String.join contents) := by
  obtain ⟨kept, written, begins, whole⟩ := Sink.writeAll_begins { text := "", room } contents
  rw [renderTo_of_writes writes]
  rw [String.empty_append] at written
  rcases taken : Sink.writeAll { text := "", room } contents with ⟨fits, after⟩
  rw [taken] at written whole
  subst written
  cases fits with
  | true => exact ⟨begins, fun _ => whole rfl⟩
  | false => exact ⟨begins, fun complete => absurd rfl complete⟩

end Template

end Stencil
