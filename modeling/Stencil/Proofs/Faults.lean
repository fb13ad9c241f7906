import Stencil.Proofs.Absence
import Stencil.Proofs.Writers

/-!
# Faults of data

Of the violations a path may come to while rendering, an accepted tree comes only to those that its
data is at fault for: a value that is required is missing, a variable has a value without a text,
or a loop has a value that is no list.  This holds whatever the tree is written to.
-/

namespace Stencil

variable {δ : Type} [Data δ]

/-- None of the values a path passes is missing, and the last one is a value of the data. -/
structure Valuations.ComesTo (valuations : Valuations δ) (path : Path) (data : δ) : Prop where
  present : ∀ value ∈ valuations.trail path, value.isMissing = false
  last : (valuations.trail path).getLast? = some (.value data)

/-- What data is at fault for at a node: the first missing value on its path is declared as one
that is required, or its value is there and of no use to the node. -/
inductive Node.DataFault (schema : Schema) (place : Place δ) :
    Node Reference → Reference → Violation → Prop where
  | missing {node : Node Reference} {reference : Reference} {index : Nat} {declared : Kind}
      (refers : node.reference? = some reference)
      (first : (place.valuations.trail reference.path).findIdx? Found.isMissing = some index)
      (kind : schema.Resolves place.loops (reference.path.upTo (index + 1)) declared)
      (required : ¬ ∃ inner, declared = .optional inner) :
      DataFault schema place node reference
        (.missing (reference.path.upTo (index + 1)).shown)
  | notScalar {reference : Reference} {raw : Bool} {data : δ}
      (value : place.valuations.ComesTo reference.path data) (noText : Data.text data = none) :
      DataFault schema place (.variable reference raw) reference .notScalar
  | notList {reference : Reference} {binding : String} {body : List (Node Reference)} {data : δ}
      (value : place.valuations.ComesTo reference.path data)
      (noList : Data.children data = none) :
      DataFault schema place (.loop reference binding body) reference .notList

namespace Found

theorem exists_of_scalar_error
    {found : Found δ} {violation : Violation} (noText : found.scalar = .error violation) :
    ∃ data, found = .value data ∧ Data.text data = none ∧ violation = .notScalar := by
  unfold scalar at noText
  split at noText
  · cases noText
  · rename_i none
    cases noText
    cases found with
    | value data => exact ⟨data, rfl, none, rfl⟩
    | index number => cases none
    | flag holds => cases holds <;> cases none
    | absent => cases none

/-- Only metadata and values that are no lists have no elements. -/
theorem exists_or_isMetadata_of_elements_error
    {found : Found δ} {violation : Violation} (noList : found.elements = .error violation) :
    (∃ data, found = .value data ∧ Data.children data = none ∧ violation = .notList) ∨
      found.IsMetadata := by
  cases found with
  | value data =>
      cases children : Data.children data with
      | none =>
          simp only [elements, children, Except.error.injEq] at noList
          exact .inl ⟨data, rfl, children, noList.symm⟩
      | some items => simp [elements, children] at noList
  | index number => exact .inr (.index number)
  | flag holds => exact .inr (.flag holds)
  | absent => cases noList

end Found

namespace Place.Aligned

variable {schema : Schema} {place : Place δ} {reference : Reference} {kind : Kind}

theorem comesTo_of_resolve
    (aligned : place.Aligned schema)
    (refers : (Scope.within schema place.loops).Refers reference kind) {data : δ}
    (resolved : place.stack.resolve reference = .ok (.value data)) :
    place.valuations.ComesTo reference.path data := by
  cases missing : (place.valuations.trail reference.path).findIdx? Found.isMissing with
  | none =>
      obtain ⟨found, last, reached⟩ := aligned.resolve_of_present refers missing
      rw [resolved] at reached
      cases reached
      exact ⟨List.findIdx?_eq_none_iff.mp missing, last⟩
  | some index =>
      obtain ⟨declared, _, whenOptional, whenRequired⟩ :=
        aligned.resolve_of_missing refers missing
      by_cases optional : ∃ inner, declared = .optional inner
      · rw [whenOptional optional] at resolved
        cases resolved
      · rw [whenRequired optional] at resolved
        cases resolved

/-- A reference that is in scope fails only where a value is missing whose declared kind does not
allow for that. -/
theorem exists_missing_of_resolve
    (aligned : place.Aligned schema)
    (refers : (Scope.within schema place.loops).Refers reference kind)
    {violation : Violation} (unresolved : place.stack.resolve reference = .error violation) :
    ∃ index declared,
      (place.valuations.trail reference.path).findIdx? Found.isMissing = some index ∧
        schema.Resolves place.loops (reference.path.upTo (index + 1)) declared ∧
        (¬ ∃ inner, declared = .optional inner) ∧
        violation = .missing (reference.path.upTo (index + 1)).shown := by
  cases missing : (place.valuations.trail reference.path).findIdx? Found.isMissing with
  | none =>
      obtain ⟨found, _, reached⟩ := aligned.resolve_of_present refers missing
      rw [unresolved] at reached
      cases reached
  | some index =>
      obtain ⟨declared, resolves, whenOptional, whenRequired⟩ :=
        aligned.resolve_of_missing refers missing
      by_cases optional : ∃ inner, declared = .optional inner
      · rw [whenOptional optional] at unresolved
        cases unresolved
      · rw [whenRequired optional] at unresolved
        cases unresolved
        exact ⟨index, declared, rfl, resolves, optional, rfl⟩

end Place.Aligned

/-- At a node of a well-typed sequence every violation is a fault of the data. -/
theorem Node.Violates.dataFault
    {schema : Schema} {place : Place δ} {node : Node Reference} {rest : List (Node Reference)}
    {reference : Reference} {violation : Violation}
    (violates : node.Violates place.stack reference violation) (aligned : place.Aligned schema)
    (typed : Node.WellTyped (Scope.within schema place.loops) (node :: rest)) :
    node.DataFault schema place reference violation := by
  cases violates with
  | reference refers unresolved =>
      obtain ⟨kind, inScope⟩ := typed.exists_refers refers
      obtain ⟨index, declared, first, resolves, required, rfl⟩ :=
        aligned.exists_missing_of_resolve inScope unresolved
      exact .missing refers first resolves required
  | scalar resolved noText =>
      obtain ⟨kind, inScope⟩ := typed.exists_refers rfl
      obtain ⟨data, rfl, none, rfl⟩ := Found.exists_of_scalar_error noText
      exact .notScalar (aligned.comesTo_of_resolve inScope resolved) none
  | elements resolved noList =>
      cases typed with
      | loop inScope list _ _ =>
          rcases Found.exists_or_isMetadata_of_elements_error noList with value | metadata
          · obtain ⟨data, rfl, none, rfl⟩ := value
            exact .notList (aligned.comesTo_of_resolve inScope resolved) none
          · -- Metadata is declared as a scalar, and a loop repeats its body for a list.
            rw [Stack.scalar_of_resolve aligned.runs inScope resolved metadata] at list
            cases list

namespace Template

/-- Whatever an accepted tree is written to and whatever the data, a run that fails has come to a
write that failed, or to a node whose data is at fault. -/
theorem only_data_at_fault
    {nodes : List (Node Path)} {schema : Schema} {template : Template}
    (accepted : Template.check nodes schema = .ok template)
    (named : ∀ path ∈ Node.pathsAll nodes, path.segments ≠ [])
    {ω : Type} {write : Writer ω} {data : δ} {state after : ω} {error : RenderError}
    (stopped : template.renderOn write data state = (.error error, after)) :
    error = .outputFailure ∨
      ∃ place node reference violation,
        Node.Visits (.ofRoot data .unlimited) template.nodes place node ∧
        node.DataFault schema place reference violation ∧
        error = .contractViolation reference.path violation := by
  rcases violation_of_renderOn stopped with output | ⟨path, violation, sink, rfl, unlimited⟩
  · exact .inl output
  · right
    have blames : Node.Blames (.ofRoot data .unlimited) template.nodes path violation sink :=
      Node.blames_of_renderAll unlimited
    obtain ⟨place, node, reference, visits, violates, rfl, -⟩ := blames
    obtain ⟨aligned, _, typed⟩ :=
      visits.wellTyped (wellTyped_of_check accepted named) (.ofRoot schema data .unlimited)
    exact ⟨place, node, reference, violation, visits, violates.dataFault aligned typed, rfl⟩

end Template

/-- A writer that keeps the texts it takes apart, and takes two at most. -/
def twoTexts : Writer (List String) := fun taken content =>
  if taken.length < 2 then (true, taken ++ [content]) else (false, taken)

theorem annotatedAgenda_at_fault :
    agendaTemplate.renderOn twoTexts (annotatedAgendaData .null) [] =
        (.error (.contractViolation { hops := 0, segments := ["day", "room", "name"] } .notScalar),
          ["Meeting"]) ∧
      ∃ (place : Place Json) (node : Node Reference) (reference : Reference),
        reference.path = { hops := 0, segments := ["day", "room", "name"] } ∧
          node.DataFault agendaSchema place reference .notScalar := by
  have stopped : agendaTemplate.renderOn twoTexts (annotatedAgendaData .null) [] =
      (.error (.contractViolation { hops := 0, segments := ["day", "room", "name"] } .notScalar),
        ["Meeting"]) := by decide +kernel
  refine ⟨stopped, ?_⟩
  rcases Template.only_data_at_fault agenda_accepted agenda_named stopped with output | fault
  · cases output
  · obtain ⟨place, node, reference, violation, -, fault, same⟩ := fault
    obtain ⟨path, rfl⟩ := RenderError.contractViolation.inj same
    exact ⟨place, node, reference, path.symm, fault⟩

end Stencil
