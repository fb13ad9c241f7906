import Stencil.Data.Json
import Stencil.Data.Yaml
import Stencil.Proofs.Agreement
import Stencil.Tree

/-!
# The declared part of data

The declared part of a value has only those entries of objects, at any depth, that a schema
declares.  A value agrees with its declared part, so an accepted tree renders both the same; what
else there is in the data has no influence.
-/

namespace Stencil

/-- Data that can be put together anew.  Neither way of doing so changes whether a value is null or
counts as true. -/
class Data.Rebuildable (δ : Type) [Data δ] where
  /-- Changes each element of a list, and gives an object other entries. -/
  rebuild : (δ → δ) → List (String × δ) → δ → δ
  /-- Takes all entries from an object, and from all objects in a list. -/
  bare : δ → δ
  isNull_rebuild (onItem : δ → δ) (entries : List (String × δ)) (value : δ) :
    isNull (rebuild onItem entries value) = isNull value
  truthy_rebuild (onItem : δ → δ) (entries : List (String × δ)) (value : δ) :
    truthy (rebuild onItem entries value) = truthy value
  children_rebuild (onItem : δ → δ) (entries : List (String × δ)) (value : δ) :
    children (rebuild onItem entries value) = (children value).map (List.map onItem)
  /-- The given entries are found, as long as all of them are for names that have a value. -/
  child_rebuild (onItem : δ → δ) (entries : List (String × δ)) (value : δ)
      (known : ∀ name, child value name = none → Entries.find? name entries = none)
      (name : String) :
    child (rebuild onItem entries value) name = Entries.find? name entries
  isNull_bare (value : δ) : isNull (bare value) = isNull value
  truthy_bare (value : δ) : truthy (bare value) = truthy value
  text_bare (value : δ) : text (bare value) = text value

namespace Json

def rebuild (onItem : Json → Json) (entries : List (String × Json)) : Json → Json
  | .array items => .array (items.map onItem)
  | .object _ => .object entries
  | value => value

mutual

def bare : Json → Json
  | .array items => .array (bareAll items)
  | .object _ => .object []
  | value => value

def bareAll : List Json → List Json
  | [] => []
  | item :: rest => bare item :: bareAll rest

end

instance : Data.Rebuildable Json where
  rebuild := rebuild
  bare := bare
  isNull_rebuild onItem entries value := by cases value <;> rfl
  truthy_rebuild onItem entries value := by
    cases value with
    | array items => cases items <;> rfl
    | null | bool _ | number _ | string _ | object _ => rfl
  children_rebuild onItem entries value := by cases value <;> rfl
  child_rebuild onItem entries value known name := by
    cases value with
    | object _ => rfl
    | null | bool _ | number _ | string _ | array _ => exact (known name rfl).symm
  isNull_bare value := by cases value <;> simp [Data.isNull, bare, isNull]
  truthy_bare value := by
    cases value with
    | array items => cases items <;> simp [Data.truthy, bare, bareAll, truthy]
    | null | bool _ | number _ | string _ | object _ => simp [Data.truthy, bare, truthy]
  text_bare value := by cases value <;> simp [Data.text, bare, text]

end Json

namespace Tree

def rebuild (onItem : Tree → Tree) (entries : List (String × Tree)) : Tree → Tree
  | .sequence items => .sequence (items.map onItem)
  | .mapping _ => .mapping entries
  | value => value

mutual

def bare : Tree → Tree
  | .sequence items => .sequence (bareAll items)
  | .mapping _ => .mapping []
  | value => value

def bareAll : List Tree → List Tree
  | [] => []
  | item :: rest => bare item :: bareAll rest

end

instance : Data.Rebuildable Tree where
  rebuild := rebuild
  bare := bare
  isNull_rebuild onItem entries value := by cases value <;> rfl
  truthy_rebuild onItem entries value := by
    cases value with
    | sequence items => cases items <;> rfl
    | null | bool _ | integer _ | float _ | string _ | mapping _ => rfl
  children_rebuild onItem entries value := by cases value <;> rfl
  child_rebuild onItem entries value known name := by
    cases value with
    | mapping _ => rfl
    | null | bool _ | integer _ | float _ | string _ | sequence _ => exact (known name rfl).symm
  isNull_bare value := by cases value <;> simp [Data.isNull, bare, isNull]
  truthy_bare value := by
    cases value with
    | sequence items => cases items <;> simp [Data.truthy, bare, bareAll, truthy]
    | null | bool _ | integer _ | float _ | string _ | mapping _ =>
        simp [Data.truthy, bare, truthy]
  text_bare value := by cases value <;> simp [Data.text, bare, text]

end Tree

namespace Yaml

/-- Tags stay where they are. -/
def rebuild (onItem : Yaml → Yaml) (entries : List (String × Yaml)) : Yaml → Yaml
  | .sequence items => .sequence (items.map onItem)
  | .mapping _ => .mapping (entries.map fun entry => (.string entry.1, entry.2))
  | .tagged tag content => .tagged tag (content.rebuild onItem entries)
  | value => value

mutual

def bare : Yaml → Yaml
  | .sequence items => .sequence (bareAll items)
  | .mapping _ => .mapping []
  | .tagged tag content => .tagged tag (bare content)
  | value => value

def bareAll : List Yaml → List Yaml
  | [] => []
  | item :: rest => bare item :: bareAll rest

end

theorem find?_string (name : String) (entries : List (String × Yaml)) :
    find? (.string name) (entries.map fun entry => (.string entry.1, entry.2)) =
      Entries.find? name entries := by
  induction entries with
  | nil => rfl
  | cons entry rest induction =>
      by_cases same : name = entry.1 <;>
        simp [find?, isSame, Entries.find?, same, induction]

theorem isNull_rebuild (onItem : Yaml → Yaml) (entries : List (String × Yaml)) :
    ∀ value : Yaml, (value.rebuild onItem entries).isNull = value.isNull
  | .tagged _ content => isNull_rebuild onItem entries content
  | .null | .bool _ | .number _ | .string _ | .sequence _ | .mapping _ => rfl

theorem truthy_rebuild (onItem : Yaml → Yaml) (entries : List (String × Yaml)) :
    ∀ value : Yaml, (value.rebuild onItem entries).truthy = value.truthy
  | .tagged _ content => truthy_rebuild onItem entries content
  | .sequence items => by cases items <;> rfl
  | .null | .bool _ | .number _ | .string _ | .mapping _ => rfl

theorem children_rebuild (onItem : Yaml → Yaml) (entries : List (String × Yaml)) :
    ∀ value : Yaml,
      (value.rebuild onItem entries).children = value.children.map (List.map onItem)
  | .tagged _ content => children_rebuild onItem entries content
  | .null | .bool _ | .number _ | .string _ | .sequence _ | .mapping _ => rfl

theorem child_rebuild
    (onItem : Yaml → Yaml) (entries : List (String × Yaml)) (name : String) :
    ∀ value : Yaml, (value.child name = none → Entries.find? name entries = none) →
      (value.rebuild onItem entries).child name = Entries.find? name entries
  | .tagged _ content, known => child_rebuild onItem entries name content known
  | .mapping _, _ => find?_string name entries
  | .null, known | .bool _, known | .number _, known | .string _, known
  | .sequence _, known => (known rfl).symm

theorem isNull_bare : ∀ value : Yaml, value.bare.isNull = value.isNull
  | .tagged _ content => by simpa [bare, isNull] using isNull_bare content
  | .null | .bool _ | .number _ | .string _ | .sequence _ | .mapping _ => by simp [bare, isNull]

theorem truthy_bare : ∀ value : Yaml, value.bare.truthy = value.truthy
  | .tagged _ content => by simpa [bare, truthy] using truthy_bare content
  | .sequence items => by cases items <;> simp [bare, bareAll, truthy]
  | .null | .bool _ | .number _ | .string _ | .mapping _ => by simp [bare, truthy]

theorem text_bare : ∀ value : Yaml, value.bare.text = value.text
  | .tagged _ content => by simpa [bare, text] using text_bare content
  | .null | .bool _ | .number _ | .string _ | .sequence _ | .mapping _ => by simp [bare, text]

instance : Data.Rebuildable Yaml where
  rebuild := rebuild
  bare := bare
  isNull_rebuild := isNull_rebuild
  truthy_rebuild := truthy_rebuild
  children_rebuild := children_rebuild
  child_rebuild onItem entries value known name :=
    child_rebuild onItem entries name value (known name)
  isNull_bare := isNull_bare
  truthy_bare := truthy_bare
  text_bare := text_bare

end Yaml

variable {δ : Type} [Data δ] [Data.Rebuildable δ]

namespace Kind

mutual

/-- A value with only those entries of objects that its kind declares.  The fields of an object
come in the order of their declarations. -/
def declaredPart : Kind → δ → δ
  | .scalar, value => Data.Rebuildable.bare value
  | .list element, value =>
      Data.Rebuildable.rebuild (fun item => declaredPart element item) [] value
  | .object fields, value =>
      Data.Rebuildable.rebuild Data.Rebuildable.bare (declaredEntries fields (Data.child value))
        value
  | .optional kind, value => declaredPart kind value

/-- The declared parts of the values that stand under declared names. -/
def declaredEntries : List (String × Kind) → (String → Option δ) → List (String × δ)
  | [], _ => []
  | (name, kind) :: rest, below =>
      match below name with
      | some value => (name, declaredPart kind value) :: declaredEntries rest below
      | none => declaredEntries rest below

end

theorem find?_declaredEntries
    (name : String) (fields : List (String × Kind)) (below : String → Option δ) :
    Entries.find? name (declaredEntries fields below) =
      (Entries.find? name fields).bind fun kind => (below name).map kind.declaredPart := by
  induction fields with
  | nil => rfl
  | cons entry rest induction =>
      obtain ⟨head, kind⟩ := entry
      by_cases same : name = head
      · subst same
        cases entry : below name with
        | none => simp [declaredEntries, Entries.find?, entry, induction]
        | some value => simp [declaredEntries, Entries.find?, entry]
      · cases entry : below head <;>
          simp [declaredEntries, Entries.find?, entry, same, induction]

theorem isNull_declaredPart (kind : Kind) (value : δ) :
    Data.isNull (kind.declaredPart value) = Data.isNull value := by
  cases kind with
  | scalar => exact Data.Rebuildable.isNull_bare value
  | list element => exact Data.Rebuildable.isNull_rebuild _ _ value
  | object fields => exact Data.Rebuildable.isNull_rebuild _ _ value
  | optional kind => exact isNull_declaredPart kind value

theorem truthy_declaredPart (kind : Kind) (value : δ) :
    Data.truthy (kind.declaredPart value) = Data.truthy value := by
  cases kind with
  | scalar => exact Data.Rebuildable.truthy_bare value
  | list element => exact Data.Rebuildable.truthy_rebuild _ _ value
  | object fields => exact Data.Rebuildable.truthy_rebuild _ _ value
  | optional kind => exact truthy_declaredPart kind value

theorem agree_of_sameContent
    {kind : Kind} {value : δ} (content : kind.SameContent value (kind.declaredPart value)) :
    kind.Agree (some value) (some (kind.declaredPart value)) := by
  cases null : Data.isNull value with
  | true => exact .missing null ((isNull_declaredPart kind value).trans null)
  | false =>
      exact .present null ((isNull_declaredPart kind value).trans null)
        (truthy_declaredPart kind value).symm content

mutual

theorem sameContent_declaredPart :
    ∀ (kind : Kind) (value : δ), kind.SameContent value (kind.declaredPart value)
  | .scalar, value => (Data.Rebuildable.text_bare value).symm
  | .list element, value => by
      rw [declaredPart, SameContent, Data.Rebuildable.children_rebuild]
      cases Data.children value with
      | none => trivial
      | some items =>
          have each : ∀ item : δ, element.Agree (some item) (some (element.declaredPart item)) :=
            fun item => agree_of_sameContent (sameContent_declaredPart element item)
          exact List.forall₂_map_right_iff.mpr (List.forall₂_same.mpr fun item _ => each item)
  | .object fields, value => by
      rw [declaredPart, SameContent]
      intro name
      rw [Data.Rebuildable.child_rebuild]
      · rw [fieldAgrees_iff, find?_declaredEntries]
        intro kind found
        rw [found, Option.bind_some]
        cases Data.child value name with
        | none => exact .missing rfl rfl
        | some below =>
            exact agree_of_sameContent (sameContent_of_find? fields name kind found below)
      · intro name missing
        rw [find?_declaredEntries, missing]
        cases Entries.find? name fields <;> rfl
  | .optional kind, value => sameContent_declaredPart kind value

theorem sameContent_of_find? :
    ∀ (fields : List (String × Kind)) (name : String) (kind : Kind),
      Entries.find? name fields = some kind →
        ∀ value : δ, kind.SameContent value (kind.declaredPart value)
  | [], _, _, found, _ => by cases found
  | (head, first) :: rest, name, kind, found, value => by
      rw [Entries.find?] at found
      split at found
      · cases found
        exact sameContent_declaredPart first value
      · exact sameContent_of_find? rest name kind found value

end

end Kind

/-- Data with only those entries that the schema declares. -/
def Schema.declaredPart (schema : Schema) (data : δ) : δ :=
  (Kind.object schema.fields).declaredPart data

theorem Schema.agree_declaredPart (schema : Schema) (data : δ) :
    schema.Agree data (schema.declaredPart data) :=
  Kind.sameContent_declaredPart (.object schema.fields) data

/-- An accepted tree renders the same on data that agrees on its schema.  In particular the
entries that the schema does not declare may be there or not, and be whatever they are. -/
theorem Template.undeclared_unobservable
    {nodes : List (Node Path)} {schema : Schema} {template : Template}
    (accepted : Template.check nodes schema = .ok template)
    (named : ∀ path ∈ Node.pathsAll nodes, path.segments ≠ []) :
    (∀ {δ ε : Type} [Data δ] [Data ε] (first : δ) (second : ε),
        schema.Agree first second →
          ∀ sink, template.renderTo first sink = template.renderTo second sink) ∧
      ∀ {δ : Type} [Data δ] [Data.Rebuildable δ] (first second : δ),
        schema.declaredPart first = schema.declaredPart second →
          ∀ sink, template.renderTo first sink = template.renderTo second sink := by
  constructor
  · intro δ ε _ _ first second agree sink
    exact Template.renderTo_eq_of_agree accepted named agree sink
  · intro δ _ _ first second same sink
    have declared : ∀ data : δ,
        template.renderTo data sink = template.renderTo (schema.declaredPart data) sink :=
      fun data =>
        Template.renderTo_eq_of_agree accepted named (schema.agree_declaredPart data) sink
    rw [declared first, declared second, same]

theorem agenda_ignores_notes :
    agendaSchema.Agree agendaData (agendaSchema.declaredPart agendaData) ∧
      agendaSchema.declaredPart (annotatedAgendaData .null) =
        agendaSchema.declaredPart (annotatedAgendaData (.string "late")) ∧
      (∀ sink,
        agendaTemplate.renderTo agendaData sink =
          agendaTemplate.renderTo (agendaSchema.declaredPart agendaData) sink) ∧
      ∀ sink,
        agendaTemplate.renderTo (annotatedAgendaData .null) sink =
          agendaTemplate.renderTo (annotatedAgendaData (.string "late")) sink := by
  have agree := agendaSchema.agree_declaredPart agendaData
  have same : agendaSchema.declaredPart (annotatedAgendaData .null) =
      agendaSchema.declaredPart (annotatedAgendaData (.string "late")) := rfl
  obtain ⟨onAgreement, onDeclared⟩ :=
    Template.undeclared_unobservable agenda_accepted agenda_named
  exact ⟨agree, same, onAgreement _ _ agree, onDeclared _ _ same⟩

end Stencil
