import Stencil.Proofs.Truncation

/-!
# Reading escaped texts

An escaped text can be read back: entities are replaced by their characters, from left to right.
This works because each entity starts with an ampersand and no ampersand of the text stays, so that
none is taken for the start of an entity.  No two texts are therefore escaped to the same one.
-/

namespace Stencil

/-- A sink ends up the same when texts are put together before they are written. -/
theorem Rendering.emitAll_eq_emit (contents : List String) :
    emitAll contents = emit (String.join contents) := by
  funext sink
  have same : String.join contents = String.join [String.join contents] := by simp
  rw [writes_emitAll contents sink, writes_emit _ sink, Sink.writeAll_congr same]

namespace Text

/-- Replaces entities by their characters, from left to right. -/
def unescapeAll : List Char → List Char
  | '&' :: 'a' :: 'm' :: 'p' :: ';' :: rest => '&' :: unescapeAll rest
  | '&' :: 'l' :: 't' :: ';' :: rest => '<' :: unescapeAll rest
  | '&' :: 'g' :: 't' :: ';' :: rest => '>' :: unescapeAll rest
  | '&' :: 'q' :: 'u' :: 'o' :: 't' :: ';' :: rest => '"' :: unescapeAll rest
  | '&' :: '#' :: '3' :: '9' :: ';' :: rest => '\'' :: unescapeAll rest
  | character :: rest => character :: unescapeAll rest
  | [] => []

def unescape (content : String) : String :=
  String.ofList (unescapeAll content.toList)

theorem unescapeAll_entity
    {character : Char} {entity : String} (listed : (character, entity) ∈ entityTable)
    (rest : List Char) :
    unescapeAll (entity.toList ++ rest) = character :: unescapeAll rest := by
  simp only [entityTable, List.mem_cons, Prod.mk.injEq, List.not_mem_nil, or_false] at listed
  rcases listed with ⟨rfl, rfl⟩ | ⟨rfl, rfl⟩ | ⟨rfl, rfl⟩ | ⟨rfl, rfl⟩ | ⟨rfl, rfl⟩ <;> rfl

/-- Every entity starts with an ampersand. -/
theorem unescapeAll_of_ne_ampersand
    {character : Char} (other : character ≠ '&') (rest : List Char) :
    unescapeAll (character :: rest) = character :: unescapeAll rest := by
  simp [unescapeAll, other]

theorem unescapeAll_spelling (character : Char) (rest : List Char) :
    unescapeAll ((spelling character).toList ++ rest) = character :: unescapeAll rest := by
  cases found : entityTable.lookup character with
  | some entity =>
      obtain ⟨before, behind, split, -⟩ := List.lookup_eq_some_iff.mp found
      have listed : (character, entity) ∈ entityTable := by simp [split]
      rw [spelling, found]
      exact unescapeAll_entity listed rest
  | none =>
      have other : character ≠ '&' := by
        rintro rfl
        cases found
      rw [spelling, found, Option.getD_none, String.toList_singleton, List.singleton_append]
      exact unescapeAll_of_ne_ampersand other rest

theorem unescapeAll_spelled (characters : List Char) :
    unescapeAll (characters.flatMap fun character => (spelling character).toList) = characters := by
  induction characters with
  | nil => rfl
  | cons character rest induction =>
      rw [List.flatMap_cons, unescapeAll_spelling, induction]

theorem unescape_spelled (content : String) :
    unescape (String.join (content.toList.map spelling)) = content := by
  rw [unescape, String.toList_join, List.flatMap_map, unescapeAll_spelled, String.ofList_toList]

/-- Escaping writes each of the five characters that have a meaning in markup as its entity and
every other character as it is, to any sink as if all of that were written at once.  What it copies
is cut out between characters.  Replacing the entities gives the text back, so that no other text
is escaped to the same one. -/
theorem unescaping_undoes_escaping (content : String) :
    String.join (escape content) = String.join (content.toList.map spelling) ∧
      Rendering.emitAll (escape content) =
        Rendering.emit (String.join (content.toList.map spelling)) ∧
      (∀ start stop, .slice start stop ∈ chunks content →
        start ≤ stop ∧ start.IsValid content ∧ stop.IsValid content) ∧
      unescape (String.join (escape content)) = content ∧
      ∀ other, String.join (escape other) = String.join (escape content) → other = content := by
  have readBack : ∀ text, unescape (String.join (escape text)) = text := by
    intro text
    rw [join_escape, escaped]
    exact unescape_spelled text
  refine ⟨join_escape content, ?_, fun _ _ => valid_of_mem_chunks, readBack content, ?_⟩
  · rw [Rendering.emitAll_eq_emit, join_escape, escaped]
  · intro other same
    rw [← readBack other, same, readBack content]

/-- The text has an entity of its own behind a character of two bytes. -/
theorem ownEntity_read_back :
    chunks "é&lt;'" =
        [.slice ⟨0⟩ ⟨2⟩, .entity "&amp;", .slice ⟨3⟩ ⟨6⟩, .entity "&#39;", .slice ⟨7⟩ ⟨7⟩] ∧
      String.join (escape "é&lt;'") = "é&amp;lt;&#39;" ∧
      (⟨3⟩ : String.Pos.Raw).IsValid "é&lt;'" ∧
      unescape "é&amp;lt;&#39;" = "é&lt;'" ∧
      String.join (escape "é<'") ≠ String.join (escape "é&lt;'") := by
  obtain ⟨-, -, slices, readBack, unique⟩ := unescaping_undoes_escaping "é&lt;'"
  have written : String.join (escape "é&lt;'") = "é&amp;lt;&#39;" := by decide
  have cut : .slice ⟨3⟩ ⟨6⟩ ∈ chunks "é&lt;'" := by decide
  rw [written] at readBack
  refine ⟨by decide, written, (slices _ _ cut).2.1, readBack, ?_⟩
  intro same
  exact absurd (unique "é<'" same) (by decide)

end Text

end Stencil
