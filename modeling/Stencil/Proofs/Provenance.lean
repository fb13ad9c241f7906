import Mathlib
import Stencil.Data.Json
import Stencil.Proofs.Escaping
import Stencil.Proofs.Writing

/-!
# Where written text comes from

What a template without raw values writes consists of copies of its texts and of parts of escaped
values.  The copies are told apart by replacing the texts of the template with other ones: they
change accordingly, and nothing else does.  Quotation marks and angle brackets stand in copies
only, and an ampersand that no text contains is the start of an entity.
-/

namespace Stencil

namespace Node

variable {ρ : Type}

mutual

/-- Whether all values are escaped. -/
def escapes : Node ρ → Bool
  | .text _ => true
  | .variable _ raw => !raw
  | .loop _ _ body => escapesAll body
  | .conditional _ thenBranch elseBranch =>
      escapesAll thenBranch &&
        (match elseBranch with
        | none => true
        | some nodes => escapesAll nodes)

def escapesAll : List (Node ρ) → Bool
  | [] => true
  | node :: rest => escapes node && escapesAll rest

end

mutual

/-- The texts of a node, in order. -/
def texts : Node ρ → List String
  | .text content => [content]
  | .variable _ _ => []
  | .loop _ _ body => textsAll body
  | .conditional _ thenBranch elseBranch =>
      textsAll thenBranch ++
        (match elseBranch with
        | none => []
        | some nodes => textsAll nodes)

def textsAll : List (Node ρ) → List String
  | [] => []
  | node :: rest => texts node ++ textsAll rest

end

mutual

/-- The node with other texts. -/
def withTexts (change : String → String) : Node ρ → Node ρ
  | .text content => .text (change content)
  | .variable path raw => .variable path raw
  | .loop path binding body => .loop path binding (withTextsAll change body)
  | .conditional path thenBranch elseBranch =>
      .conditional path (withTextsAll change thenBranch)
        (match elseBranch with
        | none => none
        | some nodes => some (withTextsAll change nodes))

def withTextsAll (change : String → String) : List (Node ρ) → List (Node ρ)
  | [] => []
  | node :: rest => withTexts change node :: withTextsAll change rest

end

theorem escapes_conditional
    (path : ρ) (thenBranch : List (Node ρ)) (elseBranch : Option (List (Node ρ))) :
    escapes (.conditional path thenBranch elseBranch) =
      (escapesAll thenBranch && escapesAll (elseBranch.getD [])) := by
  cases elseBranch <;> simp [escapes, escapesAll]

theorem texts_conditional
    (path : ρ) (thenBranch : List (Node ρ)) (elseBranch : Option (List (Node ρ))) :
    texts (.conditional path thenBranch elseBranch) =
      textsAll thenBranch ++ textsAll (elseBranch.getD []) := by
  cases elseBranch <;> simp [texts, textsAll]

theorem withTexts_conditional
    (change : String → String) (path : ρ) (thenBranch : List (Node ρ))
    (elseBranch : Option (List (Node ρ))) :
    withTexts change (.conditional path thenBranch elseBranch) =
      .conditional path (withTextsAll change thenBranch)
        (elseBranch.map (withTextsAll change)) := by
  cases elseBranch <;> simp [withTexts]

theorem getD_map_withTextsAll (change : String → String) (elseBranch : Option (List (Node ρ))) :
    (elseBranch.map (withTextsAll change)).getD [] =
      withTextsAll change (elseBranch.getD []) := by
  cases elseBranch <;> simp [withTextsAll]

theorem withTextsAll_id (nodes : List (Node ρ)) : withTextsAll id nodes = nodes := by
  induction nodes using sequence_induction with
  | nil => rw [withTextsAll]
  | text content rest later => rw [withTextsAll, withTexts, later, id]
  | «variable» path raw rest later => rw [withTextsAll, withTexts, later]
  | loop path binding body rest inside later => rw [withTextsAll, withTexts, inside, later]
  | conditional path thenBranch elseBranch rest first second later =>
      rw [withTextsAll, withTexts_conditional, first, later]
      cases elseBranch with
      | none => rfl
      | some nodes =>
          rw [Option.getD_some] at second
          rw [Option.map_some, second]

end Node

namespace Template

def escapes (template : Template) : Bool :=
  Node.escapesAll template.nodes

def texts (template : Template) : List String :=
  Node.textsAll template.nodes

def withTexts (template : Template) (change : String → String) : Template :=
  { template with nodes := Node.withTextsAll change template.nodes }

end Template

/-- A text that is written at once. -/
inductive Part where
  /-- A text of the template. -/
  | copy (content : String)
  /-- All of a value, or a part of it. -/
  | value (content : String)
  deriving DecidableEq, Repr

namespace Part

/-- What is written of a part when the texts of the template are changed. -/
def under (change : String → String) : Part → String
  | .copy content => change content
  | .value content => content

def characters (part : Part) : List Char :=
  (part.under id).toList

/-- What a part of a rendering can be, given the texts of the template and whether it escapes its
values. -/
def From (texts : List String) (escaping : Bool) : Part → Prop
  | .copy content => content ∈ texts
  | .value content => escaping = true → Text.IsEscaped content

/-- A character with these characters before it in the whole text stands inside of the part. -/
def Holds (parts : List Part) (before : List Char) (character : Char) (part : Part) : Prop :=
  ∃ earlier later start rest, parts = earlier ++ part :: later ∧
    part.characters = start ++ character :: rest ∧ before = earlier.flatMap characters ++ start

theorem toList_join (parts : List Part) :
    (String.join (parts.map (under id))).toList = parts.flatMap characters := by
  induction parts with
  | nil => rfl
  | cons part rest induction =>
      rw [List.map_cons, String.join_cons, String.toList_append, induction, List.flatMap_cons,
        characters]

/-- Every character stands inside of a part. -/
theorem exists_holds
    {parts : List Part} {before behind : List Char} {character : Char}
    (begins : before ++ character :: behind <+: parts.flatMap characters) :
    ∃ part, Holds parts before character part := by
  induction parts generalizing before with
  | nil => simp at begins
  | cons part rest induction =>
      obtain ⟨remaining, whole⟩ := begins
      rw [List.append_assoc, List.flatMap_cons] at whole
      have fromRest : ∀ skipped,
          skipped ++ character :: behind ++ remaining = rest.flatMap characters →
          ∃ other, Holds (part :: rest) (part.characters ++ skipped) character other := by
        intro skipped tail
        obtain ⟨other, earlier, later, start, following, rfl, inside, rfl⟩ :=
          induction ⟨remaining, tail⟩
        exact ⟨other, part :: earlier, later, start, following, rfl, inside, by simp⟩
      rcases List.append_eq_append_iff.mp whole with ⟨inPart, spelled, tail⟩ | ⟨skipped, rfl, tail⟩
      · cases inPart with
        | nil =>
            rw [List.append_nil] at spelled
            have found := fromRest [] tail
            rwa [List.append_nil, spelled] at found
        | cons head following =>
            obtain ⟨rfl, -⟩ := List.cons.inj tail
            exact ⟨part, [], rest, before, following, rfl, spelled, rfl⟩
      · exact fromRest skipped (by simpa using tail.symm)

theorem mem_of_holds
    {parts : List Part} {before : List Char} {character : Char} {part : Part}
    (holds : Holds parts before character part) :
    part ∈ parts ∧ character ∈ part.characters := by
  obtain ⟨earlier, later, start, rest, rfl, spelled, -⟩ := holds
  exact ⟨by simp, by simp [spelled]⟩

theorem exists_copy_holds
    {texts : List String} {parts : List Part} (origins : ∀ part ∈ parts, part.From texts true)
    {before behind : List Char} {character : Char}
    (begins : before ++ character :: behind <+: parts.flatMap characters)
    (special : character ∈ Text.markupCharacters) :
    ∃ content, Holds parts before character (.copy content) := by
  obtain ⟨part, holds⟩ := exists_holds begins
  obtain ⟨member, inside⟩ := mem_of_holds holds
  cases part with
  | copy content => exact ⟨content, holds⟩
  | value content =>
      have escaped : Text.IsEscaped content := origins _ member rfl
      exact absurd inside (escaped.freeOfMarkup character special)

theorem entitiesOnly_of_from
    {texts : List String} (free : ∀ content ∈ texts, '&' ∉ content.toList)
    {parts : List Part} (origins : ∀ part ∈ parts, part.From texts true) :
    Text.EntitiesOnly (parts.flatMap characters) := by
  induction parts with
  | nil => exact Text.entitiesOnly_of_not_mem List.not_mem_nil
  | cons part rest induction =>
      obtain ⟨origin, later⟩ := List.forall_mem_cons.mp origins
      rw [List.flatMap_cons]
      refine Text.EntitiesOnly.append ?_ (induction later)
      cases part with
      | copy content => exact Text.entitiesOnly_of_not_mem (free content origin)
      | value content =>
          have escaped : Text.IsEscaped content := origin rfl
          exact escaped.entitiesOnly

end Part

namespace Rendering

variable {α δ : Type} {texts : List String} {escaping : Bool}

/-- What an action tries to write are the same parts whatever the texts of the template are, and it
ends the same. -/
def Traced (texts : List String) (escaping : Bool)
    (action : (String → String) → Rendering Unit) : Prop :=
  ∃ (parts : List Part) (result : Except RenderError Unit),
    (∀ change, Writes (action change) (parts.map (Part.under change)) result) ∧
      RenderError.OfData result ∧ ∀ part ∈ parts, part.From texts escaping

theorem Traced.pure : Traced texts escaping fun _ => pure () :=
  ⟨[], .ok (), fun _ => writes_pure, .inl rfl, by simp⟩

theorem Traced.throw (reference : Reference) (violation : Violation) :
    Traced texts escaping fun _ => throw (.contractViolation reference.path violation) :=
  ⟨[], _, fun _ => writes_throw _, .inr ⟨_, _, rfl⟩, by simp⟩

theorem traced_part {part : Part} (origin : part.From texts escaping) :
    Traced texts escaping fun change => emit (part.under change) :=
  ⟨[part], .ok (), fun _ => writes_emit _, .inl rfl, by simpa using origin⟩

theorem Traced.bind
    {first second : (String → String) → Rendering Unit} (firstTraced : Traced texts escaping first)
    (secondTraced : Traced texts escaping second) :
    Traced texts escaping fun change => first change >>= fun _ => second change := by
  obtain ⟨parts, result, firstWrites, ends, origins⟩ := firstTraced
  rcases ends with rfl | ⟨path, violation, rfl⟩
  · obtain ⟨later, last, secondWrites, ends, laterOrigins⟩ := secondTraced
    refine ⟨parts ++ later, last, ?_, ends, List.forall_mem_append.mpr ⟨origins, laterOrigins⟩⟩
    intro change
    rw [List.map_append]
    exact (firstWrites change).bind_of_ok (secondWrites change)
  · exact ⟨parts, _, fun change => (firstWrites change).bind_of_error, .inr ⟨_, _, rfl⟩, origins⟩

theorem traced_demand
    (reference : Reference) (outcome : Except Violation α)
    {next : (String → String) → α → Rendering Unit}
    (traced : ∀ result, outcome = .ok result →
      Traced texts escaping fun change => next change result) :
    Traced texts escaping fun change => demand reference outcome >>= next change := by
  cases outcome with
  | ok result =>
      simp only [demand_ok, pure_bind]
      exact traced result rfl
  | error violation =>
      simp only [demand_error, throw_bind]
      exact .throw reference violation

theorem traced_values
    {contents : List String} (escaped : ∀ content ∈ contents, escaping = true →
      Text.IsEscaped content) :
    Traced texts escaping fun _ => emitAll contents := by
  induction contents with
  | nil => exact .pure
  | cons content rest induction =>
      obtain ⟨here, later⟩ := List.forall_mem_cons.mp escaped
      have origin : (Part.value content).From texts escaping := here
      exact (traced_part origin).bind (induction later)

theorem traced_forEach
    {action : (String → String) → Nat → δ → Rendering Unit}
    (traced : ∀ index item, Traced texts escaping fun change => action change index item)
    (index : Nat) (items : List δ) :
    Traced texts escaping fun change => forEach (action change) index items := by
  induction items generalizing index with
  | nil => exact .pure
  | cons item rest induction =>
      simp only [forEach_cons]
      exact (traced index item).bind (induction (index + 1))

end Rendering

variable {δ : Type} [Data δ]

theorem Node.traced_renderAll
    (nodes : List (Node Reference)) (stack : Stack δ) (texts : List String) (escaping : Bool)
    (contained : textsAll nodes ⊆ texts) (escapes : escaping = true → escapesAll nodes = true) :
    Rendering.Traced texts escaping fun change => renderAll (withTextsAll change nodes) stack := by
  induction nodes using sequence_induction generalizing stack with
  | nil =>
      simp only [withTextsAll, renderAll_nil]
      exact .pure
  | text content rest later =>
      simp only [textsAll, Node.texts, List.append_subset, List.cons_subset] at contained
      simp only [escapesAll, Node.escapes, Bool.true_and] at escapes
      simp only [withTextsAll, withTexts, renderAll_cons, render_text]
      have origin : (Part.copy content).From texts escaping := contained.1.1
      exact (Rendering.traced_part origin).bind (later stack contained.2 escapes)
  | «variable» reference raw rest later =>
      simp only [textsAll, Node.texts, List.nil_append] at contained
      simp only [escapesAll, Node.escapes, Bool.and_eq_true] at escapes
      simp only [withTextsAll, withTexts, renderAll_cons, render]
      refine Rendering.Traced.bind ?_ (later stack contained fun always => (escapes always).2)
      apply Rendering.traced_demand
      intro found resolved
      apply Rendering.traced_demand
      intro content text
      apply Rendering.traced_values
      intro part member always
      obtain rfl : raw = false := by simpa using (escapes always).1
      exact Text.isEscaped_of_mem_escape member
  | loop reference binding body rest inside later =>
      simp only [textsAll, Node.texts, List.append_subset] at contained
      simp only [escapesAll, Node.escapes, Bool.and_eq_true] at escapes
      simp only [withTextsAll, withTexts, renderAll_cons, render]
      refine Rendering.Traced.bind ?_ (later stack contained.2 fun always => (escapes always).2)
      apply Rendering.traced_demand
      intro found resolved
      apply Rendering.traced_demand
      intro items elements
      apply Rendering.traced_forEach
      intro index item
      exact inside _ contained.1 fun always => (escapes always).1
  | conditional reference thenBranch elseBranch rest first second later =>
      simp only [textsAll, texts_conditional, List.append_subset] at contained
      simp only [escapesAll, escapes_conditional, Bool.and_eq_true] at escapes
      simp only [withTextsAll, withTexts_conditional, renderAll_cons]
      refine Rendering.Traced.bind ?_ (later stack contained.2 fun always => (escapes always).2)
      cases resolved : stack.resolve reference with
      | error violation =>
          have stops : ∀ first second, render (.conditional reference first second) stack =
              throw (.contractViolation reference.path violation) :=
            fun _ _ => render_of_violation rfl resolved
          simp only [stops]
          exact .throw reference violation
      | ok found =>
          simp only [render_conditional resolved, getD_map_withTextsAll]
          split
          · exact first stack contained.1.1 fun always => (escapes always).1.1
          · exact second stack contained.1.2 fun always => (escapes always).1.2

namespace Template

/-- A template without raw values writes copies of its texts and parts of escaped values: with other
texts, it writes those in the place of the copies and everything else as before.  Angle brackets and
quotation marks stand inside of the copies only, however much of the text fits into the sink.  If no
text has them, the output is free of them; and if no text has an ampersand, those of an output that
is not cut off start entities. -/
theorem markup_only_in_copies
    (template : Template) (escaping : template.escapes = true) (data : δ) :
    ∃ (parts : List Part) (result : Except RenderError Unit),
      (∀ change sink, (template.withTexts change).renderTo data sink =
        concluded result (sink.writeAll (parts.map (Part.under change)))) ∧
      (∀ content, .copy content ∈ parts → content ∈ template.texts) ∧
      ∀ room,
        (∀ before character behind,
          (template.renderTo data { text := "", room }).2.text.toList =
            before ++ character :: behind →
          character ∈ Text.markupCharacters →
          ∃ content, Part.Holds parts before character (.copy content)) ∧
        ((∀ content ∈ template.texts, Text.FreeOfMarkup content.toList) →
          Text.FreeOfMarkup (template.renderTo data { text := "", room }).2.text.toList) ∧
        ((∀ content ∈ template.texts, '&' ∉ content.toList) →
          (template.renderTo data { text := "", room }).1 ≠ .error .outputFailure →
          Text.EntitiesOnly (template.renderTo data { text := "", room }).2.text.toList) := by
  obtain ⟨parts, result, writes, -, origins⟩ :=
    Node.traced_renderAll template.nodes (Stack.ofRoot data) template.texts true
      (fun _ member => member) (fun _ => escaping)
  have onAnySink : ∀ change sink, (template.withTexts change).renderTo data sink =
      concluded result (sink.writeAll (parts.map (Part.under change))) :=
    fun change => renderTo_of_writes (writes change)
  refine ⟨parts, result, onAnySink, fun content member => origins _ member, ?_⟩
  intro room
  have unchanged := writes id
  simp only [Node.withTextsAll_id] at unchanged
  obtain ⟨begins, whole⟩ := renderTo_begins unchanged room
  rw [Part.toList_join] at begins
  have inCopies : ∀ before character behind,
      (template.renderTo data { text := "", room }).2.text.toList =
        before ++ character :: behind →
      character ∈ Text.markupCharacters →
      ∃ content, Part.Holds parts before character (.copy content) := by
    intro before character behind split special
    rw [split] at begins
    exact Part.exists_copy_holds origins begins special
  refine ⟨inCopies, ?_, ?_⟩
  · intro free character special member
    obtain ⟨before, behind, split⟩ := List.append_of_mem member
    obtain ⟨content, holds⟩ := inCopies before character behind split special
    obtain ⟨copied, inside⟩ := Part.mem_of_holds holds
    exact free content (origins _ copied) character special inside
  · intro free complete
    rw [whole complete, Part.toList_join]
    exact Part.entitiesOnly_of_from free origins

end Template

def letterSchema : Schema where
  fields := [("name", .scalar), ("remarks", .list .scalar)]

def letter : List (Node Path) :=
  [ .text "Dear ", .variable { hops := 0, segments := ["name"] } false, .text ":",
    .loop { hops := 0, segments := ["remarks"] } "r"
      [ .text " ", .variable { hops := 0, segments := ["r"] } false, .text ", ",
        .variable { hops := 0, segments := ["last"] } false, .text ";" ] ]

def letterTemplate : Template where
  nodes := Node.markAll (Scope.ofSchema letterSchema) letter
  schema := letterSchema

def letterData : Json :=
  .object
    [("name", .string "<b>O'Brien</b>"), ("remarks", .array [.string "\"Q&A\"", .bool true])]

theorem letter_stays_free :
    Template.check letter letterSchema = .ok letterTemplate ∧ letterTemplate.escapes = true ∧
      letterTemplate.render letterData =
        .ok "Dear &lt;b&gt;O&#39;Brien&lt;/b&gt;: &quot;Q&amp;A&quot;, false; true, true;" ∧
      ∀ room,
        Text.FreeOfMarkup (letterTemplate.renderTo letterData { text := "", room }).2.text.toList ∧
          ((letterTemplate.renderTo letterData { text := "", room }).1 ≠ .error .outputFailure →
            Text.EntitiesOnly
              (letterTemplate.renderTo letterData { text := "", room }).2.text.toList) := by
  have escaping : letterTemplate.escapes = true := rfl
  obtain ⟨parts, result, -, -, outputs⟩ :=
    letterTemplate.markup_only_in_copies escaping letterData
  have texts : letterTemplate.texts = ["Dear ", ":", " ", ", ", ";"] := rfl
  have free : ∀ content ∈ letterTemplate.texts, Text.FreeOfMarkup content.toList := by
    simp [texts, Text.FreeOfMarkup, Text.markupCharacters]
  have plain : ∀ content ∈ letterTemplate.texts, '&' ∉ content.toList := by
    simp [texts]
  refine ⟨rfl, escaping, by cbv, ?_⟩
  intro room
  exact ⟨(outputs room).2.1 free, (outputs room).2.2 plain⟩

end Stencil
