import Mathlib.Data.List.Forall2
import Mathlib.Data.String.Basic
import Stencil.Output

/-!
# Escaped texts

Runs of characters are cut out of a text between characters only, and the parts of an escaped text
are those runs with entities between them.  Put together, they are the characters of the text with
an entity in the place of each of the five characters that have a meaning in markup.  No part has an
angle bracket or a quotation mark, and where one has an ampersand an entity starts.
-/

namespace Stencil.Text

/-- Two places in a text that stand between its characters, with a run of them in between. -/
structure Encloses (content : String) (start stop : String.Pos.Raw)
    (before run rest : List Char) : Prop where
  whole : content.toList = before ++ run ++ rest
  start_eq : start.byteIdx = String.utf8Len before
  stop_eq : stop.byteIdx = String.utf8Len (before ++ run)

namespace Encloses

variable {content : String} {start stop : String.Pos.Raw} {character : Char}
  {before run rest : List Char}

theorem atStart (content : String) : Encloses content 0 0 [] [] content.toList where
  whole := rfl
  start_eq := rfl
  stop_eq := rfl

theorem content_eq (encloses : Encloses content start stop before run rest) :
    content = String.ofList (before ++ run ++ rest) := by
  rw [← encloses.whole, String.ofList_toList]

theorem start_le_stop (encloses : Encloses content start stop before run rest) :
    start ≤ stop := by
  rw [String.Pos.Raw.le_iff, encloses.start_eq, encloses.stop_eq, String.utf8Len_append]
  exact Nat.le_add_right _ _

theorem isValid_start (encloses : Encloses content start stop before run rest) :
    start.IsValid content := by
  apply String.Pos.Raw.isValid_iff_exists_append.mpr
  refine ⟨String.ofList before, String.ofList (run ++ rest), ?_, ?_⟩
  · rw [encloses.content_eq, ← String.ofList_append, List.append_assoc]
  · rw [String.rawEndPos_ofList, ← encloses.start_eq]

theorem isValid_stop (encloses : Encloses content start stop before run rest) :
    stop.IsValid content := by
  apply String.Pos.Raw.isValid_iff_exists_append.mpr
  refine ⟨String.ofList (before ++ run), String.ofList rest, ?_, ?_⟩
  · rw [encloses.content_eq, ← String.ofList_append]
  · rw [String.rawEndPos_ofList, ← encloses.stop_eq]

theorem extract_eq (encloses : Encloses content start stop before run rest) :
    start.extract content stop = String.ofList run := by
  have cut := String.extract_of_valid before run rest
  rwa [← encloses.content_eq, ← String.utf8Len_append, ← encloses.start_eq,
    ← encloses.stop_eq] at cut

theorem stop_eq_end (encloses : Encloses content start stop before run []) :
    stop = content.rawEndPos := by
  rw [encloses.content_eq, String.rawEndPos_ofList, List.append_nil, ← encloses.stop_eq]

/-- The run goes on with a character that stays. -/
theorem keep (encloses : Encloses content start stop before run (character :: rest)) :
    Encloses content start (stop + character) before (run ++ [character]) rest where
  whole := by simp [encloses.whole]
  start_eq := encloses.start_eq
  stop_eq := by
    rw [String.Pos.Raw.byteIdx_add_char, encloses.stop_eq]
    simp [String.utf8Len_append, Nat.add_assoc]

/-- A new run begins one byte further on, which is behind a character that is one byte wide. -/
theorem restart
    (encloses : Encloses content start stop before run (character :: rest))
    (narrow : character.utf8Size = 1) :
    Encloses content stop.inc (stop + character) (before ++ run ++ [character]) [] rest where
  whole := by simp [encloses.whole]
  start_eq := by
    rw [String.Pos.Raw.byteIdx_inc, encloses.stop_eq]
    simp [String.utf8Len_append, narrow, Nat.add_assoc]
  stop_eq := by
    rw [String.Pos.Raw.byteIdx_add_char, encloses.stop_eq]
    simp [String.utf8Len_append, Nat.add_assoc]

end Encloses

/-- The parts of an escaped text as lists of characters tell them, without counting bytes.  The
characters of the current run are given in reverse order. -/
def escapeFrom (run : List Char) : List Char → List String
  | [] => [String.ofList run.reverse]
  | character :: rest =>
      match entity? character with
      | some entity => String.ofList run.reverse :: entity :: escapeFrom [] rest
      | none => escapeFrom (character :: run) rest

theorem utf8Size_of_entity?
    {character : Char} {entity : String} (found : entity? character = some entity) :
    character.utf8Size = 1 := by
  unfold entity? at found
  split at found
  case h_6 => cases found
  all_goals rfl

/-- The part of an escaped text that a chunk stands for: an entity, or the run that a slice
encloses.  A slice that begins or ends inside of a character stands for none. -/
inductive Chunk.Holds (content : String) : Chunk → String → Prop where
  | slice {start stop : String.Pos.Raw} {before run rest : List Char}
      (encloses : Encloses content start stop before run rest) :
      Holds content (.slice start stop) (String.ofList run)
  | entity {spelling : String} : Holds content (.entity spelling) spelling

theorem Chunk.Holds.text_eq
    {content part : String} {chunk : Chunk} (holds : chunk.Holds content part) :
    chunk.text content = part := by
  cases holds with
  | slice encloses => exact encloses.extract_eq
  | entity => rfl

theorem forall₂_holds_chunksFrom
    {content : String} {start place : String.Pos.Raw} {before run rest : List Char}
    (encloses : Encloses content start place before run rest) :
    List.Forall₂ (Chunk.Holds content) (chunksFrom content start place rest)
      (escapeFrom run.reverse rest) := by
  induction rest generalizing start place before run with
  | nil =>
      rw [chunksFrom, escapeFrom, ← encloses.stop_eq_end, List.reverse_reverse]
      exact .cons (.slice encloses) .nil
  | cons character rest induction =>
      rw [chunksFrom, escapeFrom]
      cases entity : entity? character with
      | some replacement =>
          have later := induction (encloses.restart (utf8Size_of_entity? entity))
          rw [List.reverse_reverse]
          exact .cons (.slice encloses) (.cons .entity later)
      | none =>
          have later := induction encloses.keep
          rwa [List.reverse_append] at later

theorem forall₂_holds_chunks (content : String) :
    List.Forall₂ (Chunk.Holds content) (chunks content) (escapeFrom [] content.toList) :=
  forall₂_holds_chunksFrom (.atStart content)

theorem escape_eq_escapeFrom (content : String) :
    escape content = escapeFrom [] content.toList := by
  rw [escape, ← List.forall₂_eq_eq_eq, List.forall₂_map_left_iff]
  exact (forall₂_holds_chunks content).imp fun _ _ holds => holds.text_eq

theorem exists_holds_of_mem_chunks
    {content : String} {chunk : Chunk} (member : chunk ∈ chunks content) :
    ∃ part, chunk.Holds content part := by
  have both : List.Forall₂ (fun chunk part => (∃ part, Chunk.Holds content chunk part) ∧
      Chunk.Holds content chunk part) (chunks content) (escapeFrom [] content.toList) :=
    (forall₂_holds_chunks content).imp fun _ part holds => ⟨⟨part, holds⟩, holds⟩
  exact ((List.forall₂_and_left _ _).mp both).1 chunk member

/-- No slice begins or ends inside of a character. -/
theorem valid_of_mem_chunks
    {content : String} {start stop : String.Pos.Raw}
    (member : .slice start stop ∈ chunks content) :
    start ≤ stop ∧ start.IsValid content ∧ stop.IsValid content := by
  obtain ⟨part, holds⟩ := exists_holds_of_mem_chunks member
  cases holds with
  | slice encloses =>
      exact ⟨encloses.start_le_stop, encloses.isValid_start, encloses.isValid_stop⟩

/-- The characters that have a meaning in markup, with their entities. -/
def entityTable : List (Char × String) :=
  [('&', "&amp;"), ('<', "&lt;"), ('>', "&gt;"), ('"', "&quot;"), ('\'', "&#39;")]

/-- How a character is spelled in markup. -/
def spelling (character : Char) : String :=
  (entityTable.lookup character).getD (String.singleton character)

def escaped (content : String) : String :=
  String.join (content.toList.map spelling)

theorem entity?_eq_lookup (character : Char) :
    entity? character = entityTable.lookup character := by
  unfold entity?
  split
  case h_6 =>
    symm
    simp_all [entityTable, List.lookup_eq_none_iff]
  all_goals rfl

theorem join_escapeFrom (run characters : List Char) :
    String.join (escapeFrom run characters) =
      String.ofList run.reverse ++ String.join (characters.map spelling) := by
  induction characters generalizing run with
  | nil => simp [escapeFrom]
  | cons character rest induction =>
      rw [escapeFrom, List.map_cons, String.join_cons, spelling, ← entity?_eq_lookup]
      cases entity? character with
      | some replacement =>
          rw [String.join_cons, String.join_cons, induction, Option.getD_some]
          simp
      | none =>
          rw [induction, List.reverse_cons, String.ofList_append, String.append_assoc]
          rfl

theorem join_escape (content : String) : String.join (escape content) = escaped content := by
  simp [escape_eq_escapeFrom, escaped, join_escapeFrom]

/-- Characters that could end a text or a quoted attribute of markup. -/
def markupCharacters : List Char :=
  ['<', '>', '"', '\'']

def entities : List String :=
  ["&amp;", "&lt;", "&gt;", "&quot;", "&#39;"]

/-- An entity, or a run of characters that need none. -/
def IsEscaped (content : String) : Prop :=
  content ∈ entities ∨ ∀ character ∈ content.toList, entity? character = none

theorem mem_entities_of_entity?
    {character : Char} {entity : String} (found : entity? character = some entity) :
    entity ∈ entities := by
  unfold entity? at found
  split at found <;> simp_all [entities]

theorem isEscaped_reverse
    {run : List Char} (plain : ∀ character ∈ run, entity? character = none) :
    IsEscaped (String.ofList run.reverse) := by
  right
  simpa using plain

theorem isEscaped_of_mem_escapeFrom
    {run characters : List Char} (plain : ∀ character ∈ run, entity? character = none)
    {content : String} (member : content ∈ escapeFrom run characters) :
    IsEscaped content := by
  induction characters generalizing run with
  | nil =>
      obtain rfl : content = String.ofList run.reverse := by simpa [escapeFrom] using member
      exact isEscaped_reverse plain
  | cons character rest induction =>
      cases entity : entity? character with
      | some replacement =>
          simp only [escapeFrom, entity, List.mem_cons] at member
          rcases member with rfl | rfl | later
          · exact isEscaped_reverse plain
          · exact .inl (mem_entities_of_entity? entity)
          · exact induction (by simp) later
      | none =>
          simp only [escapeFrom, entity] at member
          exact induction (List.forall_mem_cons.mpr ⟨entity, plain⟩) member

theorem isEscaped_of_mem_escape
    {value content : String} (member : content ∈ escape value) : IsEscaped content := by
  rw [escape_eq_escapeFrom] at member
  exact isEscaped_of_mem_escapeFrom (by simp) member

def FreeOfMarkup (characters : List Char) : Prop :=
  ∀ character ∈ markupCharacters, character ∉ characters

theorem IsEscaped.freeOfMarkup {content : String} (escaped : IsEscaped content) :
    FreeOfMarkup content.toList := by
  intro character special member
  rcases escaped with isEntity | plain
  · have free : ∀ entity ∈ entities, ∀ character ∈ markupCharacters,
        character ∉ entity.toList := by
      simp [entities, markupCharacters]
    exact free content isEntity character special member
  · have stays := plain character member
    simp only [markupCharacters, List.mem_cons, List.not_mem_nil, or_false] at special
    rcases special with rfl | rfl | rfl | rfl <;> cases stays

/-- Every ampersand is the start of an entity. -/
def EntitiesOnly (characters : List Char) : Prop :=
  ∀ behind, '&' :: behind <:+ characters →
    ∃ entity ∈ entities, entity.toList <+: '&' :: behind

theorem entitiesOnly_of_not_mem {characters : List Char} (absent : '&' ∉ characters) :
    EntitiesOnly characters :=
  fun _ suffix => absurd (suffix.subset List.mem_cons_self) absent

theorem EntitiesOnly.append
    {first second : List Char} (firstOnly : EntitiesOnly first) (secondOnly : EntitiesOnly second) :
    EntitiesOnly (first ++ second) := by
  rintro behind ⟨before, whole⟩
  rcases List.append_eq_append_iff.mp whole with ⟨inFirst, rfl, tail⟩ | ⟨skipped, rfl, rfl⟩
  · cases inFirst with
    | nil => exact secondOnly behind ⟨[], tail⟩
    | cons character rest =>
        obtain ⟨rfl, rfl⟩ := List.cons.inj tail
        obtain ⟨entity, isEntity, starts⟩ := firstOnly rest (List.suffix_append _ _)
        exact ⟨entity, isEntity, starts.trans (List.prefix_append ('&' :: rest) second)⟩
  · exact secondOnly behind (List.suffix_append _ _)

theorem IsEscaped.entitiesOnly {content : String} (escaped : IsEscaped content) :
    EntitiesOnly content.toList := by
  rcases escaped with isEntity | plain
  · have once : ∀ entity ∈ entities, '&' ∉ entity.toList.tail := by decide
    intro behind suffix
    refine ⟨content, isEntity, ?_⟩
    cases spelled : content.toList with
    | nil => exact List.nil_prefix
    | cons character rest =>
        rw [spelled] at suffix
        rcases List.suffix_cons_iff.mp suffix with whole | later
        · obtain ⟨rfl, rfl⟩ := List.cons.inj whole
          exact List.prefix_refl _
        · have absent := once content isEntity
          rw [spelled] at absent
          exact absurd (later.subset List.mem_cons_self) absent
  · apply entitiesOnly_of_not_mem
    intro member
    cases plain '&' member

end Stencil.Text
