import Stencil.Proofs.Referents
import Stencil.Proofs.Visits

/-!
# Absence

Whatever the data, a value that is missing where a run of an accepted tree comes to is accepted
exactly where the schema declares the segment optional; elsewhere it ends the run.
-/

namespace Stencil

variable {δ : Type} [Data δ]

namespace Node

/-- What a node whose value is absent comes to: only a conditional may still write something. -/
def renderAbsent : Node Reference → Stack δ → Rendering Unit
  | .conditional _ _ elseBranch, stack => renderAll (elseBranch.getD []) stack
  | _, _ => pure ()

/-- A node whose reference is absent writes nothing, except for the second branch of a
conditional. -/
theorem render_of_absent
    {node : Node Reference} {reference : Reference} {stack : Stack δ}
    (refers : node.reference? = some reference) (absent : stack.resolve reference = .ok .absent) :
    render node stack = renderAbsent node stack := by
  cases node with
  | text content => simp [reference?] at refers
  | «variable» path raw =>
      simp only [reference?, Option.some.injEq] at refers
      subst refers
      have nothing : Found.scalar (.absent : Found δ) = .ok "" := rfl
      have escaped : Text.escape "" = [""] := rfl
      rw [render_variable absent, nothing, Rendering.demand_ok, pure_bind, escaped]
      cases raw <;> simp [Rendering.emitAll, renderAbsent]
  | loop path binding body =>
      simp only [reference?, Option.some.injEq] at refers
      subst refers
      have none : Found.elements (.absent : Found δ) = .ok [] := rfl
      rw [render_loop absent, none]
      simp [renderAbsent]
  | conditional path thenBranch elseBranch =>
      simp only [reference?, Option.some.injEq] at refers
      subst refers
      rw [render_conditional absent, renderAbsent]
      rfl

end Node

/-- Where a run is, the running loops stand for those of the static scope, and the valuations tell
what they offer. -/
structure Place.Aligned (schema : Schema) (place : Place δ) : Prop where
  runs : place.stack.RunsIn (fun _ _ => True) (Scope.within schema place.loops)
  describes : place.valuations.Describes place.stack

theorem Place.Aligned.ofRoot (schema : Schema) (data : δ) (sink : Sink) :
    (Place.ofRoot data sink).Aligned schema where
  runs := .ofRoot schema data
  describes := Valuations.describes_ofRoot data

/-- Wherever a run of a well-typed sequence comes to, the static scope fits what is running, and
the node heads a sequence that is well typed there. -/
theorem Node.Visits.wellTyped
    {schema : Schema} {start place : Place δ} {nodes : List (Node Reference)}
    {target : Node Reference} (visits : Node.Visits start nodes place target)
    (typed : Node.WellTyped (Scope.within schema start.loops) nodes)
    (aligned : start.Aligned schema) :
    place.Aligned schema ∧
      ∃ rest, Node.WellTyped (Scope.within schema place.loops) (target :: rest) := by
  induction visits with
  | here => exact ⟨aligned, _, typed⟩
  | later _ _ induction =>
      cases typed with
      | text later | «variable» _ _ later | loop _ _ _ later | conditional _ _ _ later =>
          exact induction later ⟨aligned.runs, aligned.describes⟩
  | @body start place after reference binding body rest target found items index item _ _ current
      _ _ induction =>
      obtain ⟨bound, _⟩ := List.getElem?_eq_some_iff.mp current
      cases typed with
      | @loop _ _ _ element _ _ _ refers list inside later =>
          have entered : Scope.within schema ({ path := reference.path, binding } :: start.loops) =
              (Scope.within schema start.loops).enter binding (some element) := by
            rw [Scope.within, refers.elementKind list]
          refine induction (entered ▸ inside) ⟨?_, aligned.describes.enter _ _ bound⟩
          exact entered ▸ aligned.runs.enter binding trivial index items.length
  | thenBranch _ _ _ induction =>
      cases typed with
      | conditional _ first _ _ => exact induction first aligned
  | elseBranch _ _ _ induction =>
      cases typed with
      | conditional _ _ second _ => exact induction second aligned

theorem Node.WellTyped.exists_refers
    {scope : Scope} {node : Node Reference} {rest : List (Node Reference)} {reference : Reference}
    (typed : Node.WellTyped scope (node :: rest)) (refers : node.reference? = some reference) :
    ∃ kind, scope.Refers reference kind := by
  cases typed with
  | text _ => simp [Node.reference?] at refers
  | «variable» inScope _ _ | loop inScope _ _ _ | conditional inScope _ _ _ =>
      simp only [Node.reference?, Option.some.injEq] at refers
      subst refers
      exact ⟨_, inScope⟩

/-- The kind that the path of a reference in scope refers to up to a segment is declared, and the
mark of the segment tells whether it may be absent. -/
theorem Scope.Refers.exists_declared
    {schema : Schema} {loops : List Enclosing} {reference : Reference} {kind : Kind}
    (refers : (Scope.within schema loops).Refers reference kind) {index : Nat}
    (bound : index < reference.path.segments.length) :
    ∃ declared, schema.Resolves loops (reference.path.upTo (index + 1)) declared ∧
      reference.steps[index]?.map Step.optional = some declared.isOptional := by
  obtain ⟨_, marked⟩ := Scope.marks_of_resolve_within refers.resolve
  obtain ⟨declared, resolves, mark⟩ := marked index bound
  exact ⟨declared, resolves, by rw [← mark, List.getElem?_map]⟩

namespace Place.Aligned

variable {schema : Schema} {place : Place δ} {reference : Reference} {kind : Kind}

/-- If none of the values on its path is missing, a reference comes to the last one. -/
theorem resolve_of_present
    (aligned : place.Aligned schema)
    (refers : (Scope.within schema place.loops).Refers reference kind)
    (present : (place.valuations.trail reference.path).findIdx? Found.isMissing = none) :
    ∃ found, (place.valuations.trail reference.path).getLast? = some found ∧
      place.stack.resolve reference = .ok found := by
  obtain ⟨found, last⟩ := place.valuations.exists_getLast?_trail refers.named
  refine ⟨found, last, ?_⟩
  rw [← aligned.describes.read aligned.runs refers, Valuations.read, Found.conclude, present, last]
  rfl

/-- The kind that is declared for the first missing value on its path decides what a reference comes
to. -/
theorem resolve_of_missing
    (aligned : place.Aligned schema)
    (refers : (Scope.within schema place.loops).Refers reference kind) {index : Nat}
    (missing : (place.valuations.trail reference.path).findIdx? Found.isMissing = some index) :
    ∃ declared, schema.Resolves place.loops (reference.path.upTo (index + 1)) declared ∧
      ((∃ inner, declared = .optional inner) → place.stack.resolve reference = .ok .absent) ∧
      ((¬ ∃ inner, declared = .optional inner) →
        place.stack.resolve reference =
          .error (.missing (reference.path.upTo (index + 1)).shown)) := by
  obtain ⟨bound, _⟩ := List.findIdx?_eq_some_iff_getElem.mp missing
  rw [Valuations.length_trail] at bound
  obtain ⟨declared, resolves, marked⟩ := refers.exists_declared bound
  have resolved := aligned.describes.read aligned.runs refers
  simp only [Valuations.read, Found.conclude, missing, marked, Option.getD_some, Nat.zero_add]
    at resolved
  refine ⟨declared, resolves, ?_, ?_⟩
  · intro optional
    rw [← resolved, if_pos (Kind.isOptional_iff.mpr optional)]
  · intro required
    rw [← resolved, if_neg (mt Kind.isOptional_iff.mp required)]

end Place.Aligned

theorem RenderError.message_missing (path : Path) (written : String) :
    (contractViolation path (.missing written)).message =
      "context does not match schema at `" ++ path.shown ++ "`: `" ++ written ++
        "` is missing" := by
  have seam : "`: `" = "`: " ++ "`" := by decide
  unfold message contractViolationText Violation.reason
  simp only [path.text_eq_shown, seam, String.append_assoc]

/-- What a reference of an accepted tree comes to, whatever the data.  If no value on its path is
missing it comes to the last one.  Otherwise the kind that is declared for the first missing value
decides: if it may be absent the reference is absent, and else the run ends there, and the error
shows the whole path and the path up to this segment. -/
theorem Template.absence_as_declared
    {nodes : List (Node Path)} {schema : Schema} {template : Template}
    (accepted : Template.check nodes schema = .ok template)
    (named : ∀ path ∈ Node.pathsAll nodes, path.segments ≠ [])
    {data : δ} {sink : Sink} {place : Place δ} {node : Node Reference} {reference : Reference}
    (visits : Node.Visits (.ofRoot data sink) template.nodes place node)
    (refers : node.reference? = some reference) :
    match (place.valuations.trail reference.path).findIdx? Found.isMissing with
    | none =>
        ∃ found, (place.valuations.trail reference.path).getLast? = some found ∧
          place.stack.resolve reference = .ok found
    | some index =>
        ∃ kind, schema.Resolves place.loops (reference.path.upTo (index + 1)) kind ∧
          ((∃ inner, kind = .optional inner) →
            place.stack.resolve reference = .ok .absent ∧
              Node.render node place.stack = Node.renderAbsent node place.stack) ∧
          ((¬ ∃ inner, kind = .optional inner) →
            let violation := Violation.missing (reference.path.upTo (index + 1)).shown
            let error := RenderError.contractViolation reference.path violation
            place.stack.resolve reference = .error violation ∧
              template.renderTo data sink = (.error error, place.sink) ∧
              error.message = "context does not match schema at `" ++ reference.path.shown ++
                "`: `" ++ (reference.path.upTo (index + 1)).shown ++ "` is missing") := by
  have typed := Template.wellTyped_of_check accepted named
  obtain ⟨aligned, _, typedHere⟩ := visits.wellTyped typed (.ofRoot schema data sink)
  obtain ⟨last, declared⟩ := typedHere.exists_refers refers
  cases missing : (place.valuations.trail reference.path).findIdx? Found.isMissing with
  | none => exact aligned.resolve_of_present declared missing
  | some index =>
      obtain ⟨kind, resolves, whenOptional, whenRequired⟩ :=
        aligned.resolve_of_missing declared missing
      refine ⟨kind, resolves, ?_, ?_⟩
      · intro optional
        have absent := whenOptional optional
        exact ⟨absent, Node.render_of_absent refers absent⟩
      · intro required
        have unresolved := whenRequired required
        have stopped := congrFun (Node.render_of_violation refers unresolved) place.sink
        have ended : Node.renderAll template.nodes (.ofRoot data) sink = _ :=
          visits.stops stopped
        refine ⟨unresolved, ?_, RenderError.message_missing _ _⟩
        rw [Template.renderTo, ended]

/-- The rooms of the days of an agenda, by name. -/
def roomList : List (Node Path) :=
  [ .loop { hops := 0, segments := ["days"] } "day"
      [.variable { hops := 0, segments := ["day", "room", "name"] } false] ]

def roomListTemplate : Template where
  nodes := Node.markAll (Scope.ofSchema agendaSchema) roomList
  schema := agendaSchema

/-- A day without a room and another day. -/
def roomListData (day : Json) : Json :=
  .object [("days", .array [.object [("talks", .array [])], day]), ("title", .string "A")]

def unnamedRoomDay : Json :=
  .object [("room", .object []), ("talks", .array [])]

def daysLoop : Enclosing where
  path := { hops := 0, segments := ["days"] }
  binding := "day"

def roomKind : Kind :=
  .optional (.object [("name", .scalar)])

def roomName : Reference where
  hops := 0
  steps := [⟨"day", false⟩, ⟨"room", true⟩, ⟨"name", false⟩]

theorem roomList_declares_day :
    agendaSchema.Declares [daysLoop] "day"
      (.object [("room", roomKind), ("talks", .list .scalar)]) :=
  .element rfl (.intro (Nat.le_refl 0) rfl (.field rfl rfl) rfl) (.list _)

/-- The room of the first day may be absent and its name with it.  The second day must be there, and
if it has a room this must have a name. -/
theorem roomList_requires_days :
    (∃ place : Place Json,
      Node.Visits (.ofRoot (roomListData .null) .unlimited) roomListTemplate.nodes place
          (.variable roomName false) ∧
        place.stack.resolve roomName = .ok .absent ∧
        Node.render (.variable roomName false) place.stack = pure ()) ∧
    roomListTemplate.renderTo (roomListData .null) .unlimited =
      (.error (.contractViolation roomName.path (.missing ".day")), .unlimited) ∧
    RenderError.message (.contractViolation roomName.path (.missing ".day")) =
      "context does not match schema at `.day.room.name`: `.day` is missing" ∧
    roomListTemplate.renderTo (roomListData unnamedRoomDay) .unlimited =
      (.error (.contractViolation roomName.path (.missing ".day.room.name")), .unlimited) := by
  have accepted : Template.check roomList agendaSchema = .ok roomListTemplate := rfl
  have named : ∀ path ∈ Node.pathsAll roomList, path.segments ≠ [] := by decide
  have visits (day : Json) (index : Nat) (item : Json)
      (current : [.object [("talks", .array [])], day][index]? = some item)
      (earlier : Rendering.forEach
        (fun index item => Node.renderAll [.variable roomName false]
          ((Stack.ofRoot (roomListData day)).enter "day" item index 2))
        0 ([.object [("talks", .array [])], day].take index) .unlimited = .ok () .unlimited) :
      Node.Visits (.ofRoot (roomListData day) .unlimited) roomListTemplate.nodes _
        (.variable roomName false) :=
    .body rfl rfl current earlier .here
  have first := visits .null 0 _ rfl rfl
  obtain ⟨_, room, absent, _⟩ := Template.absence_as_declared accepted named first rfl
  obtain rfl := room.unique (.intro (Nat.zero_le _) rfl roomList_declares_day rfl)
  obtain ⟨_, day, _, dayMissing⟩ :=
    Template.absence_as_declared accepted named (visits .null 1 .null rfl rfl) rfl
  obtain rfl := day.unique (.intro (Nat.zero_le _) rfl roomList_declares_day rfl)
  obtain ⟨_, name, _, nameMissing⟩ :=
    Template.absence_as_declared accepted named (visits unnamedRoomDay 1 unnamedRoomDay rfl rfl) rfl
  obtain rfl := name.unique (.intro (Nat.zero_le _) rfl roomList_declares_day rfl)
  obtain ⟨nothing, silent⟩ := absent ⟨_, rfl⟩
  obtain ⟨_, stopped, message⟩ := dayMissing (by rintro ⟨_, ⟨⟩⟩)
  obtain ⟨_, stoppedBelow, _⟩ := nameMissing (by rintro ⟨_, ⟨⟩⟩)
  exact ⟨⟨_, first, nothing, silent⟩, stopped, message, stoppedBelow⟩

end Stencil
