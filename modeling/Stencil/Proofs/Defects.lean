import Stencil.Proofs.Parts
import Stencil.Proofs.Shapes

/-!
# Defects of shape documents

What is wrong with a document is stated for the parts that can be reached in it, without regard to
how it is read.  Listed in the order in which a walk through the document comes to them, the
defects decide about the result of reading: there is a schema if and only if there are none, and
otherwise the first one is reported with its place.
-/

namespace Stencil

/-- A step as it is written in locations. -/
def ShapeStep.text : ShapeStep → String
  | .entry key => "." ++ (Schema.splitKey key).1
  | .item => "[]"

/-- What is wrong with a part of a shape, and the steps that lead there. -/
structure Defect where
  trail : List ShapeStep
  fault : ShapeFault

namespace Defect

def location (defect : Defect) : String :=
  String.join (defect.trail.map ShapeStep.text)

/-- The defect of a part as one of the whole. -/
def behind (step : ShapeStep) (defect : Defect) : Defect :=
  { defect with trail := step :: defect.trail }

/-- The order in which defects are come to.  Entries are walked by their keys, and a field that is
declared twice counts after everything inside of its shape. -/
inductive Precedes : Defect → Defect → Prop where
  | sooner {first second : String} {rest otherRest : List ShapeStep} {fault otherFault : ShapeFault}
      (before : first < second) :
      Precedes { trail := .entry first :: rest, fault }
        { trail := .entry second :: otherRest, fault := otherFault }
  | inside {trail : List ShapeStep} {fault : ShapeFault}
      (other : trail ≠ [] ∨ fault ≠ .declaredTwice) :
      Precedes { trail, fault } { trail := [], fault := .declaredTwice }
  | behind {trail otherTrail : List ShapeStep} {fault otherFault : ShapeFault} (step : ShapeStep)
      (precedes : Precedes { trail, fault } { trail := otherTrail, fault := otherFault }) :
      Precedes { trail := step :: trail, fault }
        { trail := step :: otherTrail, fault := otherFault }

theorem Precedes.asymm {first second : Defect} (precedes : Precedes first second) :
    ¬ Precedes second first := by
  induction precedes with
  | sooner before =>
      intro converse
      cases converse with
      | sooner after => exact String.lt_irrefl _ (String.lt_trans before after)
      | behind => exact String.lt_irrefl _ before
  | inside other =>
      intro converse
      cases converse with
      | inside => simp at other
  | behind step _ induction =>
      intro converse
      cases converse with
      | sooner after => exact String.lt_irrefl _ after
      | behind _ precedes => exact induction precedes

end Defect

namespace Json

/-- A value that stands for no kind: neither a mapping nor an array nor one of the two words. -/
def IsUnexpected : Json → Prop
  | .object _ => False
  | .array _ => False
  | .string word => word ≠ "scalar" ∧ word ≠ "scalar?"
  | _ => True

/-- What is wrong with a shape. -/
inductive HasDefect (shape : Json) : Defect → Prop where
  | listLength {trail : List ShapeStep} {items : List Json}
      (reaches : shape.Reaches trail (.array items)) (length : items.length ≠ 1) :
      HasDefect shape { trail, fault := .listLength }
  | unexpected {trail : List ShapeStep} {part : Json} (reaches : shape.Reaches trail part)
      (unexpected : part.IsUnexpected) :
      HasDefect shape { trail, fault := .unexpected part }
  | declaredTwice {trail : List ShapeStep} {earlier later : List (String × Json)} {key : String}
      {value : Json} (reaches : shape.Reaches trail (.object (earlier ++ (key, value) :: later)))
      (twice : (Schema.splitKey key).1 ∈ earlier.map fun entry => (Schema.splitKey entry.1).1) :
      HasDefect shape { trail := trail ++ [.entry key], fault := .declaredTwice }

/-- A defect before which there is no other one. -/
def HasFirstDefect (shape : Json) (first : Defect) : Prop :=
  shape.HasDefect first ∧
    ∀ other, shape.HasDefect other → other = first ∨ first.Precedes other

/-- The defect of a key whose field is one of those declared before. -/
def redeclared (names : List String) (key : String) : List Defect :=
  if (Schema.splitKey key).1 ∈ names then
    [{ trail := [.entry key], fault := .declaredTwice }]
  else []

theorem mem_redeclared_iff {names : List String} {key : String} {defect : Defect} :
    defect ∈ redeclared names key ↔
      (Schema.splitKey key).1 ∈ names ∧
        defect = { trail := [.entry key], fault := .declaredTwice } := by
  unfold redeclared
  split <;> simp [*]

mutual

/-- The defects of a shape in the order in which a walk comes to them. -/
def defects : Json → List Defect
  | .string word =>
      if word = "scalar" ∨ word = "scalar?" then []
      else [{ trail := [], fault := .unexpected (.string word) }]
  | .array [item] => (defects item).map (Defect.behind .item)
  | .array _ => [{ trail := [], fault := .listLength }]
  | .object entries => defectsOfEntries [] entries
  | shape => [{ trail := [], fault := .unexpected shape }]

/-- The defects of entries behind others that declare the given names. -/
def defectsOfEntries (names : List String) : List (String × Json) → List Defect
  | [] => []
  | (key, shape) :: rest =>
      (defects shape).map (Defect.behind (.entry key)) ++ redeclared names key ++
        defectsOfEntries ((Schema.splitKey key).1 :: names) rest

end

theorem defectsOfEntries_append
    (names : List String) (first second : List (String × Json)) :
    defectsOfEntries names (first ++ second) =
      defectsOfEntries names first ++
        defectsOfEntries
          ((first.map fun entry => (Schema.splitKey entry.1).1).reverse ++ names) second := by
  induction first generalizing names with
  | nil => rfl
  | cons entry rest induction =>
      obtain ⟨key, shape⟩ := entry
      simp only [List.cons_append, defectsOfEntries, induction, List.map_cons,
        List.reverse_cons, List.append_assoc, List.nil_append]

theorem IsUnexpected.defects_eq {shape : Json} (unexpected : shape.IsUnexpected) :
    defects shape = [{ trail := [], fault := .unexpected shape }] := by
  cases shape with
  | null | bool | number => rw [defects] <;> nofun
  | string word =>
      rw [defects, if_neg]
      rintro (scalar | absentScalar)
      · exact unexpected.1 scalar
      · exact unexpected.2 absentScalar
  | array items => exact unexpected.elim
  | object entries => exact unexpected.elim

theorem defects_of_length {items : List Json} (length : items.length ≠ 1) :
    defects (.array items) = [{ trail := [], fault := .listLength }] := by
  rcases items with _ | ⟨first, _ | ⟨second, rest⟩⟩
  · rw [defects]; nofun
  · exact absurd rfl length
  · rw [defects]; nofun

theorem mem_defects_of_reaches
    {shape part : Json} {trail below : List ShapeStep} {fault : ShapeFault}
    (reaches : shape.Reaches trail part)
    (member : { trail := below, fault } ∈ defects part) :
    { trail := trail ++ below, fault } ∈ defects shape := by
  induction reaches with
  | here => exact member
  | @entry entries key _ _ trail contained _ induction =>
      obtain ⟨earlier, later, rfl⟩ := List.append_of_mem contained
      rw [defects, defectsOfEntries_append, defectsOfEntries]
      apply List.mem_append_right
      apply List.mem_append_left
      apply List.mem_append_left
      exact List.mem_map_of_mem (induction member)
  | item _ induction =>
      rw [defects]
      exact List.mem_map_of_mem (induction member)

theorem HasDefect.mem_defects {shape : Json} {defect : Defect} (has : shape.HasDefect defect) :
    defect ∈ defects shape := by
  cases has with
  | listLength reaches length =>
      have listed := mem_defects_of_reaches reaches (by
        rw [defects_of_length length]
        exact List.mem_singleton_self _)
      rwa [List.append_nil] at listed
  | unexpected reaches unexpected =>
      have listed := mem_defects_of_reaches reaches (by
        rw [unexpected.defects_eq]
        exact List.mem_singleton_self _)
      rwa [List.append_nil] at listed
  | @declaredTwice _ earlier later key value reaches twice =>
      apply mem_defects_of_reaches reaches
      rw [defects, defectsOfEntries_append, defectsOfEntries]
      apply List.mem_append_right
      apply List.mem_append_left
      apply List.mem_append_right
      apply mem_redeclared_iff.mpr ⟨_, rfl⟩
      rwa [List.append_nil, List.mem_reverse]

theorem HasDefect.behind
    {shape whole : Json} {step : ShapeStep}
    (reaches : ∀ {trail part}, shape.Reaches trail part → whole.Reaches (step :: trail) part)
    {defect : Defect} (has : shape.HasDefect defect) :
    whole.HasDefect (defect.behind step) := by
  cases has with
  | listLength below length => exact .listLength (reaches below) length
  | unexpected below unexpected => exact .unexpected (reaches below) unexpected
  | declaredTwice below twice => exact .declaredTwice (reaches below) twice

mutual

theorem hasDefect_of_mem :
    ∀ (shape : Json) (defect : Defect), defect ∈ defects shape → shape.HasDefect defect
  | .array [item], defect, member => by
      rw [defects] at member
      obtain ⟨below, belowMember, rfl⟩ := List.mem_map.mp member
      exact (hasDefect_of_mem item below belowMember).behind .item
  | .array [], defect, member => by
      obtain rfl := List.mem_singleton.mp member
      exact .listLength .here nofun
  | .array (first :: second :: rest), defect, member => by
      obtain rfl := List.mem_singleton.mp member
      exact .listLength .here (by simp)
  | .object entries, defect, member =>
      hasDefect_of_mem_entries [] [] entries nofun defect member
  | .string word, defect, member => by
      rw [defects] at member
      split at member
      · cases member
      · rename_i noWord
        obtain rfl := List.mem_singleton.mp member
        exact .unexpected .here (not_or.mp noWord)
  | .null, defect, member => by
      obtain rfl := List.mem_singleton.mp member
      exact .unexpected .here trivial
  | .bool value, defect, member => by
      obtain rfl := List.mem_singleton.mp member
      exact .unexpected .here trivial
  | .number value, defect, member => by
      obtain rfl := List.mem_singleton.mp member
      exact .unexpected .here trivial

theorem hasDefect_of_mem_entries :
    ∀ (names : List String) (earlier rest : List (String × Json)),
      (∀ name ∈ names, name ∈ earlier.map fun entry => (Schema.splitKey entry.1).1) →
        ∀ defect ∈ defectsOfEntries names rest, (object (earlier ++ rest)).HasDefect defect
  | names, earlier, [], declared, defect, member => by cases member
  | names, earlier, (key, shape) :: rest, declared, defect, member => by
      rw [defectsOfEntries] at member
      rcases List.mem_append.mp member with here | later
      · rcases List.mem_append.mp here with inside | twice
        · obtain ⟨below, belowMember, rfl⟩ := List.mem_map.mp inside
          have contained : (key, shape) ∈ earlier ++ (key, shape) :: rest := by simp
          exact (hasDefect_of_mem shape below belowMember).behind (.entry contained)
        · obtain ⟨again, rfl⟩ := mem_redeclared_iff.mp twice
          exact .declaredTwice .here (declared _ again)
      · rw [List.append_cons]
        apply hasDefect_of_mem_entries _ (earlier ++ [(key, shape)]) rest _ defect later
        intro name member
        rw [List.map_append, List.mem_append]
        rcases List.mem_cons.mp member with rfl | before
        · exact .inr (List.mem_singleton_self _)
        · exact .inl (declared name before)

end

theorem mem_defects_iff {shape : Json} {defect : Defect} :
    defect ∈ defects shape ↔ shape.HasDefect defect := by
  constructor
  · exact hasDefect_of_mem shape defect
  · exact HasDefect.mem_defects

theorem HasDefect.inside
    {shape : Json} {defect : Defect} (has : shape.HasDefect defect) :
    defect.trail ≠ [] ∨ defect.fault ≠ .declaredTwice := by
  cases has with
  | listLength => exact .inr nofun
  | unexpected => exact .inr nofun
  | declaredTwice => exact .inl (List.append_ne_nil_of_right_ne_nil _ nofun)

theorem exists_trail_of_mem
    {names : List String} {key : String} {shape : Json} {defect : Defect}
    (member : defect ∈ (defects shape).map (Defect.behind (.entry key)) ++ redeclared names key) :
    ∃ trail, defect.trail = .entry key :: trail := by
  rcases List.mem_append.mp member with inside | twice
  · obtain ⟨below, _, rfl⟩ := List.mem_map.mp inside
    exact ⟨below.trail, rfl⟩
  · obtain ⟨_, rfl⟩ := mem_redeclared_iff.mp twice
    exact ⟨[], rfl⟩

theorem exists_key_of_mem
    {names : List String} {entries : List (String × Json)} {defect : Defect}
    (member : defect ∈ defectsOfEntries names entries) :
    ∃ key ∈ Entries.names entries, ∃ trail, defect.trail = .entry key :: trail := by
  induction entries generalizing names with
  | nil => cases member
  | cons entry rest induction =>
      rw [defectsOfEntries] at member
      rcases List.mem_append.mp member with here | later
      · exact ⟨entry.1, List.mem_cons_self, exists_trail_of_mem here⟩
      · obtain ⟨key, contained, trail⟩ := induction later
        exact ⟨key, List.mem_cons_of_mem _ contained, trail⟩

mutual

theorem pairwise_defects :
    ∀ shape : Json, shape.InOrder → (defects shape).Pairwise Defect.Precedes
  | .array [item], ordered => by
      rw [defects, List.pairwise_map]
      exact (pairwise_defects item (inOrder_list_iff.mp ordered)).imp (.behind .item)
  | .object entries, ordered => by
      obtain ⟨entriesOrdered, each⟩ := inOrder_object_iff.mp ordered
      rw [defects]
      exact pairwise_defectsOfEntries [] entries entriesOrdered each
  | .string word, _ => by
      rw [defects]
      split
      · exact .nil
      · exact List.pairwise_singleton _ _
  | .array [], _ => List.pairwise_singleton _ _
  | .array (_ :: _ :: _), _ => List.pairwise_singleton _ _
  | .null, _ => List.pairwise_singleton _ _
  | .bool _, _ => List.pairwise_singleton _ _
  | .number _, _ => List.pairwise_singleton _ _

theorem pairwise_defectsOfEntries :
    ∀ (names : List String) (entries : List (String × Json)), Entries.Ordered entries →
      (∀ entry ∈ entries, entry.2.InOrder) →
        (defectsOfEntries names entries).Pairwise Defect.Precedes
  | _, [], _, _ => .nil
  | names, (key, shape) :: rest, ordered, each => by
      obtain ⟨first, further⟩ := List.pairwise_cons.mp ordered
      obtain ⟨shapeInOrder, restInOrder⟩ := List.forall_mem_cons.mp each
      have below := pairwise_defects shape shapeInOrder
      have later := pairwise_defectsOfEntries ((Schema.splitKey key).1 :: names) rest further
        restInOrder
      rw [defectsOfEntries, List.pairwise_append, List.pairwise_append, List.pairwise_map]
      refine ⟨⟨below.imp (.behind _), ?_, ?_⟩, later, ?_⟩
      · unfold redeclared
        split
        · exact List.pairwise_singleton _ _
        · exact .nil
      · intro defect inside twice again
        obtain ⟨below, member, rfl⟩ := List.mem_map.mp inside
        obtain ⟨_, rfl⟩ := mem_redeclared_iff.mp again
        exact .behind _ (.inside (mem_defects_iff.mp member).inside)
      · intro defect here other elsewhere
        obtain ⟨trail, defectTrail⟩ := exists_trail_of_mem here
        obtain ⟨otherKey, contained, otherTrail, elsewhere⟩ := exists_key_of_mem elsewhere
        obtain ⟨_, fault⟩ := defect
        obtain ⟨_, otherFault⟩ := other
        cases defectTrail
        cases elsewhere
        exact .sooner (first otherKey contained)

end

/-- The first defect is the one that is listed first. -/
theorem hasFirstDefect_iff {shape : Json} (ordered : shape.InOrder) {first : Defect} :
    shape.HasFirstDefect first ↔ (defects shape).head? = some first := by
  have inOrder := pairwise_defects shape ordered
  have listed : ∀ defect, shape.HasDefect defect ↔ defect ∈ defects shape :=
    fun defect => mem_defects_iff.symm
  unfold HasFirstDefect
  simp only [listed]
  cases listing : defects shape with
  | nil => simp
  | cons head rest =>
      rw [listing] at inOrder
      obtain ⟨before, -⟩ := List.pairwise_cons.mp inOrder
      rw [List.head?_cons, Option.some.injEq]
      constructor
      · rintro ⟨member, least⟩
        rcases List.mem_cons.mp member with rfl | later
        · rfl
        · rcases least head List.mem_cons_self with same | sooner
          · exact same
          · exact absurd sooner (before first later).asymm
      · rintro rfl
        refine ⟨List.mem_cons_self, ?_⟩
        intro other member
        rcases List.mem_cons.mp member with same | later
        · exact .inl same
        · exact .inr (before other later)

end Json

/-- There is a result if there are no defects, and otherwise the first one is reported with its
place, inside of a location. -/
inductive Defect.Decide {α : Type} (location : String) :
    List Defect → Except SchemaError α → Prop where
  | accepted (result : α) : Decide location [] (.ok result)
  | rejected (first : Defect) (later : List Defect) :
      Decide location (first :: later)
        (.error (.invalidShape (location ++ first.location) first.fault))

namespace Defect

variable {α β : Type} {location : String} {defects : List Defect} {outcome : Except SchemaError α}

theorem location_behind (step : ShapeStep) (defect : Defect) :
    (defect.behind step).location = step.text ++ defect.location := by
  rw [location, behind, List.map_cons, String.join_cons]
  rfl

theorem decide_here (location : String) (fault : ShapeFault) :
    Decide location [{ trail := [], fault }]
      (.error (.invalidShape location fault) : Except SchemaError α) := by
  have rejected : Decide location _ (_ : Except SchemaError α) :=
    .rejected { trail := [], fault } []
  rwa [Defect.location, List.map_nil, String.join_nil, String.append_empty] at rejected

theorem Decide.map (decided : Decide location defects outcome) (next : α → β) :
    Decide location defects (outcome.map next) := by
  cases decided with
  | accepted result => exact .accepted (next result)
  | rejected first later => exact .rejected first later

theorem Decide.append
    {first : Defect} {rest : List Defect} (decided : Decide location (first :: rest) outcome)
    (later : List Defect) :
    Decide location (first :: rest ++ later) outcome := by
  cases decided with
  | rejected => exact .rejected first _

theorem Decide.behind
    (step : ShapeStep) (decided : Decide (location ++ step.text) defects outcome) :
    Decide location (defects.map (Defect.behind step)) outcome := by
  cases decided with
  | accepted result => exact .accepted result
  | rejected first later =>
      rw [String.append_assoc, ← location_behind]
      exact .rejected _ _

end Defect

mutual

theorem Kind.decide_ofShape :
    ∀ (location : String) (shape : Json),
      Defect.Decide location shape.defects (ofShape location shape)
  | location, .string word => by
      rw [Json.defects, ofShape]
      by_cases scalar : word = "scalar"
      · rw [if_pos scalar, if_pos (.inl scalar)]
        exact .accepted Kind.scalar
      · by_cases absentScalar : word = "scalar?"
        · rw [if_neg scalar, if_pos absentScalar, if_pos (.inr absentScalar)]
          exact .accepted Kind.scalar.optional
        · rw [if_neg scalar, if_neg absentScalar, if_neg (not_or.mpr ⟨scalar, absentScalar⟩)]
          exact Defect.decide_here location _
  | location, .array [item] => by
      rw [Json.defects, ofShape_list]
      exact ((decide_ofShape (location ++ "[]") item).behind .item).map Kind.list
  | location, .array [] => Defect.decide_here location _
  | location, .array (_ :: _ :: _) => Defect.decide_here location _
  | location, .object entries => by
      rw [Json.defects, ofShape_object]
      apply Defect.Decide.map
      apply decide_fieldsOfShape
      intro name
      simp [Entries.find?]
  | location, .null => Defect.decide_here location _
  | location, .bool _ => Defect.decide_here location _
  | location, .number _ => Defect.decide_here location _

/-- The names of the fields declared before are all that counts of them. -/
theorem Kind.decide_fieldsOfShape :
    ∀ (location : String) (names : List String) (fields : List (String × Kind))
      (entries : List (String × Json)),
      (∀ name, name ∈ names ↔ (Entries.find? name fields).isSome) →
        Defect.Decide location (Json.defectsOfEntries names entries)
          (fieldsOfShape location fields entries)
  | location, names, fields, [], _ => .accepted fields
  | location, names, fields, (key, shape) :: rest, declared => by
      have under : location ++ "." ++ (Schema.splitKey key).1 =
          location ++ (ShapeStep.entry key).text := by
        rw [ShapeStep.text, String.append_assoc]
      have inside :=
        (decide_ofShape (location ++ (ShapeStep.entry key).text) shape).behind (.entry key)
      rw [Json.defectsOfEntries, fieldsOfShape_cons, under]
      generalize shape.defects.map (Defect.behind (.entry key)) = listed at inside ⊢
      generalize ofShape (location ++ (ShapeStep.entry key).text) shape = outcome at inside ⊢
      cases inside with
      | rejected first later =>
          rw [List.append_assoc]
          exact (Defect.Decide.rejected first later).append _
      | accepted kind =>
          rw [List.nil_append, Json.redeclared]
          by_cases again : (Schema.splitKey key).1 ∈ names
          · have twice := (declared _).mp again
            simp only [if_pos again, if_pos twice]
            exact ((Defect.decide_here _ _).behind (.entry key)).append _
          · have once := mt (declared _).mpr again
            simp only [if_neg again, if_neg once, List.nil_append]
            apply decide_fieldsOfShape
            intro name
            rw [List.mem_cons, Entries.find?_insert, declared name, Schema.declare]
            by_cases same : name = (Schema.splitKey key).1 <;> simp [same]

end

def Json.IsMapping (shape : Json) : Prop :=
  ∃ entries, shape = .object entries

namespace Schema

theorem decide_ofShape {shape : Json} (mapping : shape.IsMapping) :
    Defect.Decide "" shape.defects (ofShape shape) := by
  obtain ⟨entries, rfl⟩ := mapping
  rw [Json.defects, ofShape_object]
  apply Defect.Decide.map
  apply Kind.decide_fieldsOfShape
  intro name
  simp [Entries.find?]

theorem ofShape_eq_error_iff
    {shape : Json} (mapping : shape.IsMapping) (ordered : shape.InOrder) {error : SchemaError} :
    ofShape shape = .error error ↔
      ∃ first, shape.HasFirstDefect first ∧ error = .invalidShape first.location first.fault := by
  have decided := decide_ofShape mapping
  simp only [Json.hasFirstDefect_iff ordered]
  generalize shape.defects = listed at decided ⊢
  generalize ofShape shape = outcome at decided ⊢
  cases decided with
  | accepted result => simp
  | rejected first later => simp [eq_comm]

/-- The mapping that a text is read as is in order, and refused for its first defect. -/
theorem ofJsonText_eq_error_iff
    {text : String} {shape : Json} (read : Json.read text = some shape)
    (mapping : shape.IsMapping) {error : SchemaError} :
    ofJsonText text = .error error ↔
      ∃ first, shape.HasFirstDefect first ∧ error = .invalidShape first.location first.fault := by
  rw [ofJsonText, read]
  exact ofShape_eq_error_iff mapping (Json.inOrder_of_read read)

end Schema

end Stencil
