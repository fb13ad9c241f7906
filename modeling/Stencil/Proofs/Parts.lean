import Stencil.Json.Reader
import Stencil.Proofs.Lookup

/-!
# Parts of shape documents

What can be reached in a document is what is under the keys of a mapping and the item of a list.
The entries of all mappings there are in the order of their keys.  Documents that are read have
this property: it holds of everything that has been read, and of what one more lexeme makes of it.
-/

namespace Stencil

/-- A step from a shape to a part of it. -/
inductive ShapeStep where
  /-- To the shape under a key. -/
  | entry (key : String)
  /-- To the only item of a list. -/
  | item

namespace Json

/-- Steps that lead from a shape to a part of it. -/
inductive Reaches : Json → List ShapeStep → Json → Prop where
  | here {shape : Json} : Reaches shape [] shape
  | entry {entries : List (String × Json)} {key : String} {shape part : Json}
      {trail : List ShapeStep} (member : (key, shape) ∈ entries)
      (reaches : Reaches shape trail part) :
      Reaches (.object entries) (.entry key :: trail) part
  | item {shape part : Json} {trail : List ShapeStep} (reaches : Reaches shape trail part) :
      Reaches (.array [shape]) (.item :: trail) part

/-- The entries of all mappings are in the order of their keys. -/
def InOrder (shape : Json) : Prop :=
  ∀ trail entries, shape.Reaches trail (.object entries) → Entries.Ordered entries

theorem inOrder_of_word (word : String) : InOrder (.string word) := by
  intro trail entries reaches
  cases reaches

theorem inOrder_list_iff {item : Json} : InOrder (.array [item]) ↔ item.InOrder := by
  constructor
  · intro ordered trail entries reaches
    exact ordered _ entries (.item reaches)
  · intro ordered trail entries reaches
    cases reaches with
    | item reaches => exact ordered _ entries reaches

theorem inOrder_object_iff {entries : List (String × Json)} :
    InOrder (.object entries) ↔
      Entries.Ordered entries ∧ ∀ entry ∈ entries, entry.2.InOrder := by
  constructor
  · intro ordered
    refine ⟨ordered [] entries .here, ?_⟩
    intro entry member trail below reaches
    exact ordered _ below (.entry member reaches)
  · rintro ⟨ordered, each⟩ trail below reaches
    cases reaches with
    | here => exact ordered
    | entry member reaches => exact each _ member _ below reaches

theorem inOrder_array {items : List Json} (each : ∀ item ∈ items, item.InOrder) :
    InOrder (.array items) := by
  intro trail entries reaches
  cases reaches with
  | item reaches => exact each _ (List.mem_singleton_self _) _ entries reaches

/-- What has been read of an array or object. -/
def Container.InOrder : Container → Prop
  | .array items => ∀ item ∈ items, item.InOrder
  | .object entries _ => Entries.Ordered entries ∧ ∀ entry ∈ entries, entry.2.InOrder

namespace Reading

def InOrder : Reading → Prop
  | .wantValue inside => ∀ container ∈ inside, container.InOrder
  | .wantItem outside => ∀ container ∈ outside, container.InOrder
  | .wantFirstName outside => ∀ container ∈ outside, container.InOrder
  | .wantName entries outside =>
      (Container.object entries "").InOrder ∧ ∀ container ∈ outside, container.InOrder
  | .wantColon inside => ∀ container ∈ inside, container.InOrder
  | .wantMore innermost outside =>
      innermost.InOrder ∧ ∀ container ∈ outside, container.InOrder
  | .done value => value.InOrder

theorem inOrder_close {container : Container} (ordered : container.InOrder) :
    (close container).InOrder := by
  cases container with
  | array items =>
      apply inOrder_array
      intro item member
      exact ordered item (List.mem_reverse.mp member)
  | object entries name => exact inOrder_object_iff.mpr ordered

theorem inOrder_complete
    {value : Json} (valueOrdered : value.InOrder) {inside : List Container}
    (ordered : ∀ container ∈ inside, container.InOrder) :
    (complete value inside).InOrder := by
  cases inside with
  | nil => exact valueOrdered
  | cons innermost outside =>
      obtain ⟨innermostOrdered, outsideOrdered⟩ := List.forall_mem_cons.mp ordered
      cases innermost with
      | array items =>
          refine ⟨?_, outsideOrdered⟩
          exact List.forall_mem_cons.mpr ⟨valueOrdered, innermostOrdered⟩
      | object entries name =>
          refine ⟨⟨innermostOrdered.1.insert name value, ?_⟩, outsideOrdered⟩
          intro entry member
          rcases Entries.mem_insert member with rfl | before
          · exact valueOrdered
          · exact innermostOrdered.2 entry before

end Reading

/-- The values among the lexemes are neither arrays nor objects. -/
def Lexeme.InOrder (lexeme : Lexeme) : Prop :=
  ∀ value, lexeme = .scalar value → value.InOrder

theorem inOrder_of_splitLexeme
    {characters remaining : List Char} {lexeme : Lexeme}
    (found : splitLexeme characters = some (lexeme, remaining)) :
    lexeme.InOrder := by
  intro value same trail entries reaches
  subst same
  unfold splitLexeme at found
  split at found
  case h_11 =>
      split at found <;> cases found
  case h_12 =>
      split at found
      · split at found <;> cases found
        cases reaches
      · cases found
  all_goals
    cases found
    try cases reaches

theorem inOrder_of_lexemes {characters : List Char} {found : List Lexeme}
    (split : lexemes characters = some found) :
    ∀ lexeme ∈ found, lexeme.InOrder := by
  fun_induction lexemes characters generalizing found with
  | case1 =>
      cases split
      nofun
  | case2 => cases split
  | case3 characters first rest spaced lexeme remaining taken induction =>
      obtain ⟨later, laterFound, rfl⟩ := Option.map_eq_some_iff.mp split
      exact List.forall_mem_cons.mpr ⟨inOrder_of_splitLexeme taken, induction laterFound⟩

namespace Reading

theorem inOrder_of_begin
    {depth : Nat} {inside : List Container} {lexeme : Lexeme} {next : Reading}
    (ordered : ∀ container ∈ inside, container.InOrder) (lexemeOrdered : lexeme.InOrder)
    (begins : begin depth inside lexeme = some next) :
    next.InOrder := by
  unfold begin at begins
  split at begins
  · cases begins
    exact inOrder_complete (lexemeOrdered _ rfl) ordered
  · cases begins
    exact inOrder_complete (inOrder_of_word _) ordered
  · split at begins <;> cases begins
    exact ordered
  · split at begins <;> cases begins
    exact ordered
  · cases begins

/-- What has been read stays in order, whatever is read next. -/
theorem inOrder_of_step
    {depth : Nat} {reading next : Reading} {lexeme : Lexeme} (ordered : reading.InOrder)
    (lexemeOrdered : lexeme.InOrder) (stepped : reading.step depth lexeme = some next) :
    next.InOrder := by
  have noItems : (Container.array []).InOrder := List.forall_mem_nil _
  have noEntries : (Container.object [] "").InOrder := ⟨.nil, List.forall_mem_nil _⟩
  unfold step at stepped
  split at stepped
  case h_1 => exact inOrder_of_begin ordered lexemeOrdered stepped
  case h_3 =>
      exact inOrder_of_begin (List.forall_mem_cons.mpr ⟨noItems, ordered⟩) lexemeOrdered stepped
  all_goals cases stepped
  case h_2 => exact inOrder_complete (inOrder_array noItems) ordered
  case h_4 => exact inOrder_complete (inOrder_object_iff.mpr noEntries) ordered
  case h_5 => exact List.forall_mem_cons.mpr ⟨noEntries, ordered⟩
  case h_6 => exact List.forall_mem_cons.mpr ordered
  case h_7 => exact ordered
  case h_8 => exact List.forall_mem_cons.mpr ordered
  case h_9 => exact ordered
  case h_10 => exact inOrder_complete (inOrder_close ordered.1) ordered.2
  case h_11 => exact inOrder_complete (inOrder_close ordered.1) ordered.2

theorem inOrder_of_steps
    {depth : Nat} {reading last : Reading} {lexemes : List Lexeme} (ordered : reading.InOrder)
    (lexemesOrdered : ∀ lexeme ∈ lexemes, lexeme.InOrder)
    (stepped : reading.steps depth lexemes = some last) :
    last.InOrder := by
  induction lexemes generalizing reading with
  | nil =>
      cases stepped
      exact ordered
  | cons lexeme rest induction =>
      obtain ⟨lexemeOrdered, restOrdered⟩ := List.forall_mem_cons.mp lexemesOrdered
      rw [steps] at stepped
      split at stepped
      · cases stepped
      · rename_i next taken
        exact induction (inOrder_of_step ordered lexemeOrdered taken) restOrdered stepped

end Reading

theorem inOrder_of_read {text : String} {shape : Json} (read : read text = some shape) :
    shape.InOrder := by
  rw [Json.read, readNested] at read
  obtain ⟨found, split, read⟩ := Option.bind_eq_some_iff.mp read
  have start : (Reading.wantValue []).InOrder := List.forall_mem_nil _
  split at read
  · rename_i value stepped
    cases read
    exact Reading.inOrder_of_steps start (inOrder_of_lexemes split) stepped
  · cases read

end Json

end Stencil
