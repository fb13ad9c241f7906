import Stencil.Proofs.Lookup
import Stencil.Schema.Shape

/-!
# Schemas and shape documents

A shape document describes the schema that it is read as: each mapping declares one field for each
of its keys, and nothing else.  Not every schema has a document.  Those that have one are read back
from it, and only those are read at all.
-/

namespace Stencil

/-- A name that a key could take for a name that may be absent. -/
def Schema.EndsInMark (name : String) : Prop :=
  name.toList.getLast? = some '?'

instance (name : String) : Decidable (Schema.EndsInMark name) :=
  inferInstanceAs (Decidable (_ = _))

namespace Schema

theorem splitKey_append_mark (name : String) : splitKey (name ++ "?") = (name, true) := by
  have last : (name ++ "?").toList.getLast? = some '?' := by
    rw [String.toList_append]
    exact List.getLast?_concat
  have front : (name ++ "?").toList.dropLast = name.toList := by
    rw [String.toList_append]
    exact List.dropLast_concat
  rw [splitKey, if_pos last, front, String.ofList_toList]

theorem splitKey_of_unmarked {name : String} (unmarked : ¬ EndsInMark name) :
    splitKey name = (name, false) :=
  if_neg unmarked

theorem marked_of_splitKey {key : String} (marked : EndsInMark (splitKey key).1) :
    (splitKey key).2 = true := by
  by_cases keyMarked : EndsInMark key
  · have split : splitKey key = (String.ofList key.toList.dropLast, true) := if_pos keyMarked
    rw [split]
  · rw [splitKey_of_unmarked keyMarked] at marked
    exact absurd marked keyMarked

/-- The field that a key declares with a kind. -/
def declare (key : String) (kind : Kind) : String × Kind :=
  ((splitKey key).1, if (splitKey key).2 then kind.orAbsent else kind)

end Schema

theorem SchemaError.map_eq_ok_iff
    {α β : Type} {outcome : Except SchemaError α} {next : α → β} {result : β} :
    outcome.map next = .ok result ↔ ∃ before, outcome = .ok before ∧ next before = result := by
  cases outcome <;> simp [Except.map]

namespace Kind

theorem ofShape_list (location : String) (item : Json) :
    ofShape location (.array [item]) = (ofShape (location ++ "[]") item).map .list := by
  rw [ofShape]
  cases ofShape (location ++ "[]") item <;> rfl

theorem ofShape_object (location : String) (entries : List (String × Json)) :
    ofShape location (.object entries) = (fieldsOfShape location [] entries).map .object := by
  rw [ofShape]
  cases fieldsOfShape location [] entries <;> rfl

theorem fieldsOfShape_cons
    (location : String) (fields : List (String × Kind)) (key : String) (shape : Json)
    (rest : List (String × Json)) :
    fieldsOfShape location fields ((key, shape) :: rest) =
      match ofShape (location ++ "." ++ (Schema.splitKey key).1) shape with
      | .error error => .error error
      | .ok kind =>
          if (Entries.find? (Schema.splitKey key).1 fields).isSome then
            .error (.invalidShape (location ++ "." ++ (Schema.splitKey key).1) .declaredTwice)
          else
            fieldsOfShape location
              (Entries.insert (Schema.declare key kind).1 (Schema.declare key kind).2 fields)
              rest := by
  rw [fieldsOfShape]
  rfl

mutual

/-- A shape that describes a kind.  The fields of an object are those its entries declare, in the
order of their names. -/
inductive Describes : Json → Kind → Prop where
  | scalar : Describes (.string "scalar") .scalar
  | absentScalar : Describes (.string "scalar?") (.optional .scalar)
  | list {shape : Json} {element : Kind} (item : Describes shape element) :
      Describes (.array [shape]) (.list element)
  | object {entries : List (String × Json)} {declared fields : List (String × Kind)}
      (declares : Declares entries declared) (ordered : Entries.Ordered fields)
      (same : fields.Perm declared) :
      Describes (.object entries) (.object fields)

/-- Entries that declare fields, each one of its own. -/
inductive Declares : List (String × Json) → List (String × Kind) → Prop where
  | nil : Declares [] []
  | cons {key : String} {shape : Json} {kind : Kind} {rest : List (String × Json)}
      {declared : List (String × Kind)} (first : Describes shape kind)
      (later : Declares rest declared) :
      Declares ((key, shape) :: rest) (Schema.declare key kind :: declared)

end

theorem describes_word_iff {word : String} {kind : Kind} :
    Describes (.string word) kind ↔
      word = "scalar" ∧ kind = .scalar ∨ word = "scalar?" ∧ kind = .optional .scalar := by
  constructor
  · generalize written : Json.string word = shape
    intro describes
    cases describes with
    | scalar =>
        cases written
        exact .inl ⟨rfl, rfl⟩
    | absentScalar =>
        cases written
        exact .inr ⟨rfl, rfl⟩
    | list | object => cases written
  · rintro (⟨rfl, rfl⟩ | ⟨rfl, rfl⟩)
    · exact .scalar
    · exact .absentScalar

theorem Declares.names_eq
    {entries : List (String × Json)} {declared : List (String × Kind)}
    (declares : Declares entries declared) :
    Entries.names declared = (Entries.names entries).map fun key => (Schema.splitKey key).1 := by
  cases declares with
  | nil => rfl
  | cons first later =>
      simp only [Entries.names, List.map_cons] at *
      exact congrArg _ later.names_eq

theorem Declares.exists_of_perm
    {entries others : List (String × Json)} (same : entries.Perm others)
    {declared : List (String × Kind)} (declares : Declares entries declared) :
    ∃ otherDeclared, Declares others otherDeclared ∧ declared.Perm otherDeclared := by
  induction same generalizing declared with
  | nil => exact ⟨declared, declares, .refl _⟩
  | cons entry _ induction =>
      cases declares with
      | cons first later =>
          obtain ⟨further, declares, same⟩ := induction later
          exact ⟨_, .cons first declares, same.cons _⟩
  | swap first second rest =>
      cases declares with
      | cons secondShape others =>
          cases others with
          | cons firstShape later =>
              exact ⟨_, .cons firstShape (.cons secondShape later), .swap _ _ _⟩
  | trans _ _ first second =>
      obtain ⟨middle, middleDeclares, middleSame⟩ := first declares
      obtain ⟨last, lastDeclares, lastSame⟩ := second middleDeclares
      exact ⟨last, lastDeclares, middleSame.trans lastSame⟩

mutual

/-- A shape is read as the kind that it describes. -/
theorem ofShape_eq_ok_iff :
    ∀ (location : String) (shape : Json) (kind : Kind),
      ofShape location shape = .ok kind ↔ Describes shape kind
  | location, .string word, kind => by
      rw [ofShape, describes_word_iff]
      by_cases scalar : word = "scalar"
      · simp [scalar, eq_comm]
      · by_cases absentScalar : word = "scalar?" <;> simp [scalar, absentScalar, eq_comm]
  | location, .array [item], kind => by
      rw [ofShape_list, SchemaError.map_eq_ok_iff]
      constructor
      · rintro ⟨element, read, rfl⟩
        exact .list ((ofShape_eq_ok_iff _ item element).mp read)
      · intro describes
        cases describes with
        | list describes => exact ⟨_, (ofShape_eq_ok_iff _ item _).mpr describes, rfl⟩
  | location, .array [], kind => by
      constructor <;> nofun
  | location, .array (first :: second :: rest), kind => by
      constructor <;> nofun
  | location, .object entries, kind => by
      rw [ofShape_object, SchemaError.map_eq_ok_iff]
      constructor
      · rintro ⟨fields, read, rfl⟩
        obtain ⟨declared, declares, ordered, same⟩ :=
          (fieldsOfShape_eq_ok_iff location entries [] .nil fields).mp read
        rw [List.append_nil] at same
        exact .object declares ordered same
      · intro describes
        cases describes with
        | @object _ declared fields declares ordered same =>
            refine ⟨fields, (fieldsOfShape_eq_ok_iff location entries [] .nil fields).mpr ?_, rfl⟩
            exact ⟨declared, declares, ordered, by rwa [List.append_nil]⟩
  | location, .null, kind => by
      constructor <;> nofun
  | location, .bool value, kind => by
      constructor <;> nofun
  | location, .number value, kind => by
      constructor <;> nofun

/-- Entries are read as the fields that they declare, together with those declared before. -/
theorem fieldsOfShape_eq_ok_iff :
    ∀ (location : String) (entries : List (String × Json)) (fields : List (String × Kind)),
      Entries.Ordered fields → ∀ result,
        fieldsOfShape location fields entries = .ok result ↔
          ∃ declared, Declares entries declared ∧ Entries.Ordered result ∧
            result.Perm (declared ++ fields)
  | location, [], fields, ordered, result => by
      rw [fieldsOfShape]
      constructor
      · rintro ⟨⟩
        exact ⟨[], .nil, ordered, .refl _⟩
      · rintro ⟨declared, declares, resultOrdered, same⟩
        cases declares with
        | nil => rw [resultOrdered.eq_of_perm ordered same]
  | location, (key, shape) :: rest, fields, ordered, result => by
      have reads := ofShape_eq_ok_iff (location ++ "." ++ (Schema.splitKey key).1) shape
      rw [fieldsOfShape_cons]
      constructor
      · intro read
        cases below : ofShape (location ++ "." ++ (Schema.splitKey key).1) shape with
        | error error =>
            rw [below] at read
            cases read
        | ok kind =>
            rw [below] at read
            by_cases twice : (Entries.find? (Schema.splitKey key).1 fields).isSome
            · simp only [if_pos twice] at read
              cases read
            · simp only [if_neg twice] at read
              have free : (Schema.declare key kind).1 ∉ Entries.names fields :=
                mt Entries.mem_names_iff.mp twice
              obtain ⟨declared, declares, resultOrdered, same⟩ :=
                (fieldsOfShape_eq_ok_iff location rest _ (ordered.insert _ _) result).mp read
              refine ⟨_, .cons ((reads kind).mp below) declares, resultOrdered, ?_⟩
              apply same.trans
              apply ((Entries.perm_insert _ free).append_left declared).trans
              exact List.perm_middle
      · rintro ⟨declared, declares, resultOrdered, same⟩
        cases declares with
        | @cons _ _ kind _ declared first later =>
            have distinct := ((same.map Prod.fst).nodup_iff).mp resultOrdered.nodup
            have free : (Schema.declare key kind).1 ∉ Entries.names fields := by
              intro member
              apply (List.nodup_cons.mp distinct).1
              exact List.map_subset _ (List.subset_append_right declared fields) member
            have once : ¬ (Entries.find? (Schema.splitKey key).1 fields).isSome :=
              mt Entries.mem_names_iff.mpr free
            rw [(reads kind).mpr first]
            simp only [if_neg once]
            apply (fieldsOfShape_eq_ok_iff location rest _ (ordered.insert _ _) result).mpr
            refine ⟨declared, later, resultOrdered, same.trans ?_⟩
            exact List.perm_middle.symm.trans
              ((Entries.perm_insert _ free).symm.append_left declared)

end

mutual

/-- The kind, and all kinds that it is made of. -/
def parts : Kind → List Kind
  | .scalar => [.scalar]
  | .list element => .list element :: parts element
  | .object fields => .object fields :: partsOfFields fields
  | .optional kind => .optional kind :: parts kind

def partsOfFields : List (String × Kind) → List Kind
  | [] => []
  | (_, kind) :: rest => parts kind ++ partsOfFields rest

end

/-- Something that holds of a kind at every depth. -/
def Everywhere (holds : Kind → Prop) (kind : Kind) : Prop :=
  ∀ part ∈ kind.parts, holds part

section

variable {holds : Kind → Prop}

@[simp] theorem everywhere_scalar : Everywhere holds .scalar ↔ holds .scalar := by
  simp [Everywhere, parts]

@[simp] theorem everywhere_list {element : Kind} :
    Everywhere holds (.list element) ↔ holds (.list element) ∧ Everywhere holds element := by
  simp [Everywhere, parts]

@[simp] theorem everywhere_optional {kind : Kind} :
    Everywhere holds (.optional kind) ↔ holds (.optional kind) ∧ Everywhere holds kind := by
  simp [Everywhere, parts]

theorem forall_mem_partsOfFields {fields : List (String × Kind)} :
    (∀ part ∈ partsOfFields fields, holds part) ↔ ∀ entry ∈ fields, Everywhere holds entry.2 := by
  induction fields with
  | nil => simp [partsOfFields]
  | cons entry rest induction =>
      rw [partsOfFields, List.forall_mem_append, List.forall_mem_cons, induction]
      rfl

@[simp] theorem everywhere_object {fields : List (String × Kind)} :
    Everywhere holds (.object fields) ↔
      holds (.object fields) ∧ ∀ entry ∈ fields, Everywhere holds entry.2 := by
  rw [Everywhere, parts, List.forall_mem_cons, forall_mem_partsOfFields]

theorem everywhere_and_iff {others : Kind → Prop} {kind : Kind} :
    Everywhere (fun part => holds part ∧ others part) kind ↔
      Everywhere holds kind ∧ Everywhere others kind := by
  constructor
  · intro both
    exact ⟨fun part member => (both part member).1, fun part member => (both part member).2⟩
  · rintro ⟨each, other⟩ part member
    exact ⟨each part member, other part member⟩

end

/-- The elements of a list, if they may be absent, are scalars. -/
def Listable (element : Kind) : Prop :=
  ∀ kind, element = .optional kind → kind = .scalar

/-- Nothing may be absent that may be absent already, elements may be absent if they are scalars,
and fields whose names end in a question mark may be absent. -/
def IsExpressible : Kind → Prop
  | .scalar => True
  | .list element => element.Listable
  | .object fields =>
      ∀ entry ∈ fields, Schema.EndsInMark entry.1 → entry.2.isOptional = true
  | .optional kind => kind.isOptional = false

/-- The fields of an object are in order. -/
def IsOrdered : Kind → Prop
  | .object fields => Entries.Ordered fields
  | _ => True

/-- What reading a document makes sure of. -/
def IsSound (kind : Kind) : Prop :=
  kind.IsExpressible ∧ kind.IsOrdered

end Kind

/-- The schemas that a shape document can describe. -/
def Schema.Expressible (schema : Schema) : Prop :=
  (Kind.object schema.fields).Everywhere Kind.IsExpressible

/-- The fields are in the order of their names, at every depth. -/
def Schema.InOrder (schema : Schema) : Prop :=
  (Kind.object schema.fields).Everywhere Kind.IsOrdered

namespace Kind

theorem orAbsent_of_required {kind : Kind} (required : kind.isOptional = false) :
    kind.orAbsent = .optional kind := by
  cases kind with
  | optional kind => cases required
  | scalar | list | object => rfl

theorem listable_of_required {kind : Kind} (required : kind.isOptional = false) :
    kind.Listable := by
  rintro inner rfl
  cases required

theorem isOptional_orAbsent (kind : Kind) : kind.orAbsent.isOptional = true := by
  cases kind <;> rfl

theorem everywhere_orAbsent
    {holds : Kind → Prop} {kind : Kind} (everywhere : kind.Everywhere holds)
    (absent : kind.isOptional = false → holds (.optional kind)) :
    kind.orAbsent.Everywhere holds := by
  cases kind with
  | optional kind => exact everywhere
  | scalar | list | object => exact everywhere_optional.mpr ⟨absent rfl, everywhere⟩

mutual

/-- Only sound kinds are described. -/
theorem Describes.sound
    {shape : Json} {kind : Kind} (describes : Describes shape kind) :
    kind.Everywhere IsSound ∧ kind.Listable := by
  cases describes with
  | scalar =>
      refine ⟨everywhere_scalar.mpr ⟨trivial, trivial⟩, ?_⟩
      nofun
  | absentScalar =>
      have scalar : Everywhere IsSound .scalar := everywhere_scalar.mpr ⟨trivial, trivial⟩
      refine ⟨everywhere_optional.mpr ⟨⟨rfl, trivial⟩, scalar⟩, ?_⟩
      rintro _ ⟨⟩
      rfl
  | list item =>
      obtain ⟨sound, listable⟩ := item.sound
      refine ⟨everywhere_list.mpr ⟨⟨listable, trivial⟩, sound⟩, ?_⟩
      nofun
  | object declares ordered same =>
      refine ⟨everywhere_object.mpr ⟨⟨?_, ordered⟩, ?_⟩, ?_⟩
      · intro entry member
        exact (declares.sound entry (same.subset member)).2
      · intro entry member
        exact (declares.sound entry (same.subset member)).1
      · nofun

theorem Declares.sound
    {entries : List (String × Json)} {declared : List (String × Kind)}
    (declares : Declares entries declared) :
    ∀ entry ∈ declared, entry.2.Everywhere IsSound ∧
      (Schema.EndsInMark entry.1 → entry.2.isOptional = true) := by
  cases declares with
  | nil => nofun
  | @cons key _ kind _ _ first later =>
      obtain ⟨sound, -⟩ := first.sound
      apply List.forall_mem_cons.mpr ⟨_, later.sound⟩
      unfold Schema.declare
      cases marked : (Schema.splitKey key).2 with
      | true =>
          constructor
          · apply everywhere_orAbsent sound
            intro required
            exact ⟨required, trivial⟩
          · intro _
            exact isOptional_orAbsent kind
      | false =>
          refine ⟨sound, ?_⟩
          intro endsInMark
          rw [Schema.marked_of_splitKey endsInMark] at marked
          cases marked

end

mutual

/-- The document of a kind.  What may be absent without being a field has one only if it is a
scalar. -/
def shape : Kind → Json
  | .scalar => .string "scalar"
  | .list element => .array [shape element]
  | .object fields => .object (Entries.ofList (shapesOfFields fields))
  | .optional _ => .string "scalar?"

/-- The entries of fields.  The key of a field that may be absent ends in a question mark. -/
def shapesOfFields : List (String × Kind) → List (String × Json)
  | [] => []
  | (name, .optional kind) :: rest => (name ++ "?", shape kind) :: shapesOfFields rest
  | (name, kind) :: rest => (name, shape kind) :: shapesOfFields rest

end

theorem shapesOfFields_cons
    {name : String} {kind : Kind} (required : kind.isOptional = false)
    (rest : List (String × Kind)) :
    shapesOfFields ((name, kind) :: rest) = (name, shape kind) :: shapesOfFields rest := by
  cases kind with
  | optional kind => cases required
  | scalar | list | object => rw [shapesOfFields]; nofun

mutual

/-- The document of a sound kind describes the kind. -/
theorem describes_shape :
    ∀ kind : Kind, kind.Everywhere IsSound → kind.Listable → Describes kind.shape kind
  | .scalar, _, _ => .scalar
  | .list element, sound, _ => by
      obtain ⟨⟨listable, -⟩, elementSound⟩ := everywhere_list.mp sound
      rw [shape]
      exact .list (describes_shape element elementSound listable)
  | .object fields, sound, _ => by
      obtain ⟨⟨marked, ordered⟩, fieldsSound⟩ := everywhere_object.mp sound
      have declares := declares_shapesOfFields fields fieldsSound marked
      have distinct : (Entries.names (shapesOfFields fields)).Nodup := by
        have names := ordered.nodup
        rw [declares.names_eq] at names
        apply List.Pairwise.of_map _ _ names
        intro first second different same
        exact different (congrArg (fun key => (Schema.splitKey key).1) same)
      obtain ⟨declared, inOrder, same⟩ :=
        declares.exists_of_perm (Entries.perm_ofList distinct).symm
      rw [shape]
      exact .object inOrder ordered same
  | .optional kind, _, listable => by
      rw [shape, listable kind rfl]
      exact .absentScalar

theorem declares_shapesOfFields :
    ∀ fields : List (String × Kind), (∀ entry ∈ fields, entry.2.Everywhere IsSound) →
      (∀ entry ∈ fields, Schema.EndsInMark entry.1 → entry.2.isOptional = true) →
        Declares (shapesOfFields fields) fields
  | [], _, _ => by
      rw [shapesOfFields]
      exact .nil
  | (name, kind) :: rest, sound, marked => by
      obtain ⟨firstSound, laterSound⟩ := List.forall_mem_cons.mp sound
      obtain ⟨firstMarked, laterMarked⟩ := List.forall_mem_cons.mp marked
      have later := declares_shapesOfFields rest laterSound laterMarked
      cases required : kind.isOptional with
      | false =>
          have unmarked : ¬ Schema.EndsInMark name := by
            intro endsInMark
            rw [firstMarked endsInMark] at required
            cases required
          have declared : Schema.declare name kind = (name, kind) := by
            rw [Schema.declare, Schema.splitKey_of_unmarked unmarked]
            rfl
          have first := describes_shape kind firstSound (listable_of_required required)
          have declares : Declares ((name, shape kind) :: shapesOfFields rest)
              (Schema.declare name kind :: rest) := .cons first later
          rwa [declared, ← shapesOfFields_cons required] at declares
      | true =>
          cases kind with
          | scalar | list | object => cases required
          | optional kind =>
              obtain ⟨⟨unstacked, -⟩, kindSound⟩ := everywhere_optional.mp firstSound
              have declared : Schema.declare (name ++ "?") kind = (name, .optional kind) := by
                rw [Schema.declare, Schema.splitKey_append_mark, if_pos rfl,
                  orAbsent_of_required unstacked]
              have first := describes_shape kind kindSound (listable_of_required unstacked)
              rw [shapesOfFields, ← declared]
              exact .cons first later

end

end Kind

namespace Schema

/-- The document of a schema. -/
def shape (schema : Schema) : Json :=
  (Kind.object schema.fields).shape

theorem ofShape_object (entries : List (String × Json)) :
    ofShape (.object entries) = (Kind.fieldsOfShape "" [] entries).map .mk := by
  rw [ofShape]
  cases Kind.fieldsOfShape "" [] entries <;> rfl

/-- A document is read as the schema that it describes. -/
theorem ofShape_eq_ok_iff {shape : Json} {schema : Schema} :
    ofShape shape = .ok schema ↔ Kind.Describes shape (.object schema.fields) := by
  cases shape with
  | object entries =>
      rw [← Kind.ofShape_eq_ok_iff "", ofShape_object, Kind.ofShape_object,
        SchemaError.map_eq_ok_iff, SchemaError.map_eq_ok_iff]
      obtain ⟨expected⟩ := schema
      simp
  | null | bool | number | string | array => constructor <;> nofun

/-- Shape documents and expressible schemas correspond.  Every expressible schema is read back from
its document.  Every schema that is read is expressible, and the document describes it: each
mapping is an object that has exactly one field for each key. -/
theorem shapes_correspond :
    (∀ schema : Schema, schema.Expressible → schema.InOrder →
      ofShape schema.shape = .ok schema) ∧
    ∀ (shape : Json) (schema : Schema), ofShape shape = .ok schema →
      schema.Expressible ∧ schema.InOrder ∧ Kind.Describes shape (.object schema.fields) := by
  constructor
  · intro schema expressible ordered
    have sound := Kind.everywhere_and_iff.mpr ⟨expressible, ordered⟩
    exact ofShape_eq_ok_iff.mpr (Kind.describes_shape _ sound nofun)
  · intro shape schema read
    have describes := ofShape_eq_ok_iff.mp read
    obtain ⟨expressible, ordered⟩ := Kind.everywhere_and_iff.mp describes.sound.1
    exact ⟨expressible, ordered, describes⟩

end Schema

/-- The keys of its document end in up to two question marks, and come in another order than the
fields. -/
def librarySchema : Schema where
  fields :=
    [ ("books", .list (.object [("author", .optional (.object [])), ("title", .scalar)])),
      ("open", .optional .scalar),
      ("open!", .scalar),
      ("open?", .optional (.list (.optional .scalar))) ]

def libraryShape : Json :=
  .object
    [ ("books", .array [.object [("author?", .object []), ("title", .string "scalar")]]),
      ("open!", .string "scalar"),
      ("open?", .string "scalar"),
      ("open??", .array [.string "scalar?"]) ]

theorem library_read_back :
    librarySchema.Expressible ∧ librarySchema.InOrder ∧ librarySchema.shape = libraryShape ∧
      Schema.ofShape libraryShape = .ok librarySchema ∧
      Kind.Describes libraryShape (.object librarySchema.fields) := by
  have expressible : librarySchema.Expressible := by
    simp [Schema.Expressible, librarySchema, Kind.IsExpressible, Kind.Listable, Kind.isOptional,
      Schema.EndsInMark]
  have ordered : librarySchema.InOrder := by
    simp only [Schema.InOrder, librarySchema, Kind.everywhere_object, Kind.everywhere_list,
      Kind.everywhere_optional, Kind.everywhere_scalar, Kind.IsOrdered, List.forall_mem_cons,
      List.not_mem_nil, false_implies, implies_true, and_true, true_and]
    decide
  have document : librarySchema.shape = libraryShape := by rfl
  have read := Schema.shapes_correspond.1 librarySchema expressible ordered
  rw [document] at read
  exact ⟨expressible, ordered, document, read,
    (Schema.shapes_correspond.2 libraryShape librarySchema read).2.2⟩

end Stencil
