import Stencil.Proofs.Escaping
import Stencil.Proofs.Rendering
import Stencil.Proofs.Trail

/-!
# What a template means

A tree has a meaning that is put together from the meanings of its parts, without a sink and
without a stack.  Names are read in valuations, one for each enclosing loop and one outside of
all loops; a loop means what its body means in the valuation of each element, one behind the
other.  Rendering an accepted tree writes what it means, and ends the way it means.
-/

namespace Stencil

/-- The text a part of a template stands for, and how it ends. -/
structure Outcome where
  text : String
  result : Except RenderError Unit

namespace Outcome

/-- A text, all of it. -/
def write (content : String) : Outcome :=
  { text := content, result := .ok () }

/-- Nothing but a violation. -/
def stop (reference : Reference) (violation : Violation) : Outcome :=
  { text := "", result := .error (.contractViolation reference.path violation) }

/-- One part behind another, which is not reached if the first one ends in an error. -/
def andThen (first second : Outcome) : Outcome :=
  match first.result with
  | .ok () => { text := first.text ++ second.text, result := second.result }
  | .error error => { text := first.text, result := .error error }

/-- Parts one behind the other. -/
def concat : List Outcome → Outcome
  | [] => write ""
  | first :: rest => first.andThen (concat rest)

end Outcome

namespace Found

variable {δ : Type} [Data δ]

/-- What a condition asks for: a number other than zero, a flag that is set, or data that counts as
true.  What is absent never does. -/
def Holds : Found δ → Prop
  | .value data => Data.truthy data = true
  | .index number => number ≠ 0
  | .flag holds => holds = true
  | .absent => False

instance : DecidablePred (Holds (δ := δ)) := fun found =>
  match found with
  | .value data => inferInstanceAs (Decidable (Data.truthy data = true))
  | .index number => inferInstanceAs (Decidable (number ≠ 0))
  | .flag holds => inferInstanceAs (Decidable (holds = true))
  | .absent => inferInstanceAs (Decidable False)

/-- What stands for a value in a text, if it is no list or object. -/
def wording : Found δ → Option String
  | .value data => Data.text data
  | .index number => some (toString number)
  | .flag holds => some (if holds then "true" else "false")
  | .absent => some ""

theorem holds_iff (found : Found δ) : found.Holds ↔ found.truthy = true := by
  cases found <;> simp [Holds, truthy]

theorem text_eq_wording (found : Found δ) : found.text = found.wording := by
  cases found with
  | value data => rfl
  | index number => rfl
  | flag holds => cases holds <;> rfl
  | absent => rfl

end Found

namespace Node

variable {δ : Type} [Data δ]

mutual

def meaning : Node Reference → Valuations δ → Outcome
  | .text content, _ => .write content
  | .variable reference raw, valuations =>
      match valuations.read reference with
      | .error violation => .stop reference violation
      | .ok found =>
          match found.wording with
          | some content => .write (if raw then content else Text.escaped content)
          | none => .stop reference .notScalar
  | .loop reference binding body, valuations =>
      match valuations.read reference with
      | .error violation => .stop reference violation
      | .ok (.value data) =>
          match Data.children data with
          | some items =>
              .concat (items.mapIdx fun index item =>
                meaningAll body (valuations.enter binding item index items.length))
          | none => .stop reference .notList
      | .ok .absent => .write ""
      | .ok _ => .stop reference .metadataList
  | .conditional reference thenBranch elseBranch, valuations =>
      match valuations.read reference with
      | .error violation => .stop reference violation
      | .ok found =>
          if found.Holds then meaningAll thenBranch valuations
          else
            match elseBranch with
            | none => .write ""
            | some nodes => meaningAll nodes valuations

def meaningAll : List (Node Reference) → Valuations δ → Outcome
  | [], _ => .write ""
  | node :: rest, valuations =>
      (meaning node valuations).andThen (meaningAll rest valuations)

end

end Node

def Template.meaning {δ : Type} [Data δ] (template : Template) (data : δ) : Outcome :=
  Node.meaningAll template.nodes (.ofRoot data)

/-- What an action with an outcome comes to on a sink without a limit. -/
def Outcome.behind (outcome : Outcome) (written : String) :
    EStateM.Result RenderError Sink Unit :=
  let sink : Sink := { text := written ++ outcome.text, room := none }
  match outcome.result with
  | .ok () => .ok () sink
  | .error error => .error error sink

namespace Rendering

/-- Behind whatever has been written, the action writes the text of the outcome and ends the same
way. -/
def Means (action : Rendering Unit) (outcome : Outcome) : Prop :=
  ∀ written, action { text := written, room := none } = outcome.behind written

theorem means_emitAll (contents : List String) :
    Means (emitAll contents) (.write (String.join contents)) := by
  intro written
  exact emitAll_of_unlimited contents rfl

theorem means_emit (content : String) : Means (emit content) (.write content) := by
  intro written
  exact emit_of_unlimited rfl content

theorem means_pure : Means (pure ()) (.write "") := by
  rw [← emit_empty]
  exact means_emit ""

theorem means_throw (reference : Reference) (violation : Violation) :
    Means (throw (.contractViolation reference.path violation)) (.stop reference violation) := by
  intro written
  simp [throw_apply, Outcome.behind, Outcome.stop]

theorem Means.bind
    {first second : Rendering Unit} {outcome later : Outcome}
    (firstMeans : Means first outcome) (secondMeans : Means second later) :
    Means (first >>= fun _ => second) (outcome.andThen later) := by
  intro written
  have done := firstMeans written
  obtain ⟨text, result⟩ := outcome
  cases result with
  | ok =>
      rw [bind_of_ok done, secondMeans (written ++ text)]
      simp [Outcome.andThen, Outcome.behind, String.append_assoc]
  | error error =>
      rw [bind_of_error done]
      rfl

theorem means_forEach
    {δ : Type} {action : Nat → δ → Rendering Unit} {outcome : Nat → δ → Outcome}
    {items : List δ} (start : Nat)
    (each : ∀ index item, items[index]? = some item →
      Means (action (start + index) item) (outcome (start + index) item)) :
    Means (forEach action start items)
      (.concat (items.mapIdx fun index item => outcome (start + index) item)) := by
  induction items generalizing start with
  | nil =>
      rw [forEach_nil]
      exact means_pure
  | cons item rest induction =>
      rw [forEach_cons, List.mapIdx_cons]
      have later := induction (start + 1) fun index item entry => by
        rw [Nat.add_right_comm]
        exact each (index + 1) item (by simpa using entry)
      have places : ∀ index, start + 1 + index = start + (index + 1) := by omega
      simp only [places] at later
      exact (each 0 item rfl).bind later

end Rendering

namespace Node

variable {δ : Type} [Data δ] {stack : Stack δ} {valuations : Valuations δ}
  {reference : Reference}

theorem meaning_conditional
    (reference : Reference) (thenBranch : List (Node Reference))
    (elseBranch : Option (List (Node Reference))) (valuations : Valuations δ) :
    meaning (.conditional reference thenBranch elseBranch) valuations =
      match valuations.read reference with
      | .error violation => .stop reference violation
      | .ok found =>
          if found.Holds then meaningAll thenBranch valuations
          else meaningAll (elseBranch.getD []) valuations := by
  cases elseBranch <;> simp [meaning, meaningAll]

theorem means_variable
    (read : valuations.read reference = stack.resolve reference) (raw : Bool) :
    Rendering.Means (render (.variable reference raw) stack)
      (meaning (.variable reference raw) valuations) := by
  rw [meaning, read]
  cases resolved : stack.resolve reference with
  | error violation =>
      rw [render_of_violation rfl resolved]
      exact Rendering.means_throw reference violation
  | ok found =>
      rw [render_variable resolved, Found.scalar, found.text_eq_wording]
      cases text : found.wording with
      | none =>
          simpa [text, Rendering.throw_bind] using Rendering.means_throw reference .notScalar
      | some content =>
          cases raw with
          | true => simpa [text] using Rendering.means_emitAll [content]
          | false =>
              simpa [text, Text.join_escape] using
                Rendering.means_emitAll (Text.escape content)

/-- The bodies for all elements of a loop are only asked for their meaning in the valuations the
loop gives rise to. -/
theorem means_loop
    (read : valuations.read reference = stack.resolve reference)
    {binding : String} {body : List (Node Reference)}
    (inside : ∀ index item length, index < length →
      Rendering.Means (renderAll body (stack.enter binding item index length))
        (meaningAll body (valuations.enter binding item index length))) :
    Rendering.Means (render (.loop reference binding body) stack)
      (meaning (.loop reference binding body) valuations) := by
  rw [meaning, read]
  cases resolved : stack.resolve reference with
  | error violation =>
      rw [render_of_violation rfl resolved]
      exact Rendering.means_throw reference violation
  | ok found =>
      rw [render_loop resolved]
      cases found with
      | index number | flag holds =>
          simpa [Found.elements, Rendering.throw_bind] using
            Rendering.means_throw reference .metadataList
      | absent => exact Rendering.means_pure
      | value data =>
          cases children : Data.children data with
          | none =>
              simpa [Found.elements, children, Rendering.throw_bind] using
                Rendering.means_throw reference .notList
          | some items =>
              simp only [Found.elements, children, Rendering.demand_ok, pure_bind]
              have each : ∀ index item, items[index]? = some item →
                  Rendering.Means
                    (renderAll body (stack.enter binding item (0 + index) items.length))
                    (meaningAll body
                      (valuations.enter binding item (0 + index) items.length)) := by
                intro index item entry
                obtain ⟨bound, _⟩ := List.getElem?_eq_some_iff.mp entry
                exact inside (0 + index) item items.length (by omega)
              simpa using Rendering.means_forEach 0 each

theorem means_conditional
    (read : valuations.read reference = stack.resolve reference)
    {thenBranch : List (Node Reference)} {elseBranch : Option (List (Node Reference))}
    (first : Rendering.Means (renderAll thenBranch stack) (meaningAll thenBranch valuations))
    (second : Rendering.Means (renderAll (elseBranch.getD []) stack)
      (meaningAll (elseBranch.getD []) valuations)) :
    Rendering.Means (render (.conditional reference thenBranch elseBranch) stack)
      (meaning (.conditional reference thenBranch elseBranch) valuations) := by
  rw [meaning_conditional, read]
  cases resolved : stack.resolve reference with
  | error violation =>
      rw [render_of_violation rfl resolved]
      exact Rendering.means_throw reference violation
  | ok found =>
      rw [render_conditional resolved]
      simp only [found.holds_iff]
      cases truthy : found.truthy with
      | true => simpa [truthy] using first
      | false => simpa [truthy] using second

theorem WellTyped.means_renderAll
    {scope : Scope} {nodes : List (Node Reference)} (typed : WellTyped scope nodes)
    (runs : stack.RunsIn (fun _ _ => True) scope) (describes : valuations.Describes stack) :
    Rendering.Means (renderAll nodes stack) (meaningAll nodes valuations) := by
  induction typed generalizing stack valuations with
  | nil =>
      rw [renderAll_nil, meaningAll]
      exact Rendering.means_pure
  | text _ later =>
      rw [renderAll_cons, render_text, meaningAll, meaning]
      exact (Rendering.means_emit _).bind (later runs describes)
  | «variable» refers _ _ later =>
      rw [renderAll_cons, meaningAll]
      exact (means_variable (describes.read runs refers) _).bind (later runs describes)
  | loop refers _ _ _ inside later =>
      rw [renderAll_cons, meaningAll]
      refine Rendering.Means.bind ?_ (later runs describes)
      apply means_loop (describes.read runs refers)
      intro index item length bound
      exact inside (runs.enter _ trivial index length) (describes.enter _ item bound)
  | conditional refers _ _ _ first second later =>
      rw [renderAll_cons, meaningAll]
      exact (means_conditional (describes.read runs refers) (first runs describes)
        (second runs describes)).bind (later runs describes)

end Node

/-- On a sink without a limit, an accepted tree writes the text that it means for the data, and
ends with the result that it means. -/
theorem Template.renderTo_eq_meaning
    {δ : Type} [Data δ] {nodes : List (Node Path)} {schema : Schema} {template : Template}
    (accepted : Template.check nodes schema = .ok template)
    (named : ∀ path ∈ Node.pathsAll nodes, path.segments ≠ []) (data : δ) (written : String) :
    template.renderTo data { text := written, room := none } =
      ((template.meaning data).result,
        { text := written ++ (template.meaning data).text, room := none }) := by
  have typed := Template.wellTyped_of_check accepted named
  have means := typed.means_renderAll (Stack.RunsIn.ofRoot schema data)
    (Valuations.describes_ofRoot data) written
  rw [Template.renderTo, means, Outcome.behind, Template.meaning]
  cases (Node.meaningAll template.nodes (Valuations.ofRoot data)).result <;> rfl

def queueSchema : Schema where
  fields :=
    [ ("people", .optional (.list (.object [("name", .scalar), ("note", .optional .scalar)]))) ]

/-- The people in a queue, each with a number and perhaps with a note. -/
def queue : List (Node Path) :=
  [ .loop { hops := 0, segments := ["people"] } "person"
      [ .conditional { hops := 0, segments := ["index"] } [.text ", "] none,
        .conditional { hops := 0, segments := ["first"] } [.text "("] none,
        .variable { hops := 0, segments := ["person", "name"] } false,
        .variable { hops := 0, segments := ["index"] } false,
        .conditional { hops := 0, segments := ["person", "note"] }
          [.text ": ", .variable { hops := 0, segments := ["person", "note"] } false]
          (some [.text " ", .variable { hops := 0, segments := ["last"] } true]),
        .conditional { hops := 0, segments := ["last"] } [.text ")"] none ] ]

def queueTemplate : Template where
  nodes := Node.markAll (Scope.ofSchema queueSchema) queue
  schema := queueSchema

/-- Somebody in the queue, with further entries. -/
def person (name : String) (entries : List (String × Json)) : Json :=
  .object (("name", .string name) :: entries)

/-- Conditions hold for data, flags and numbers and fail for empty, false, zero, null and absent
ones.  The second queue ends at somebody without a name. -/
theorem queue_means :
    agendaTemplate.renderTo agendaData { text := "# ", room := none } =
      (.ok (), { text := "# MeetingA &amp; BopeningMeetingtrueMeeting?", room := none }) ∧
    queueTemplate.renderTo
        (Json.object
          [ ("people", .array
              [ person "A" [("note", .string "<3")], person "B" [("note", .string "")],
                person "C" [("note", .bool false)], person "D" [("note", .number (.integer 0))],
                person "E" [("note", .null)], person "F" [] ]) ])
        .unlimited =
      (.ok (),
        { text := "(A0: &lt;3, B1 false, C2 false, D3 false, E4 false, F5 true)", room := none }) ∧
    queueTemplate.renderTo
        (Json.object [("people", .array [person "A" [], .object [], person "C" []])])
        .unlimited =
      (.error (.contractViolation { hops := 0, segments := ["person", "name"] }
        (.missing ".person.name")), { text := "(A0 false, ", room := none }) ∧
    queueTemplate.renderTo (Json.object []) .unlimited = (.ok (), .unlimited) := by
  have accepted : Template.check queue queueSchema = .ok queueTemplate := rfl
  have named : ∀ path ∈ Node.pathsAll queue, path.segments ≠ [] := by decide
  refine ⟨?_, ?_, ?_, ?_⟩
  · exact (Template.renderTo_eq_meaning agenda_accepted agenda_named agendaData "# ").trans rfl
  · exact (Template.renderTo_eq_meaning accepted named _ "").trans rfl
  · exact (Template.renderTo_eq_meaning accepted named _ "").trans rfl
  · exact (Template.renderTo_eq_meaning accepted named _ "").trans rfl

end Stencil
