import Stencil.Proofs.Provenance

/-!
# Sinks that run out of room

What a rendering tries to write does not depend on its sink, and neither does how it ends if all of
that fits.  A sink with room for all of the text therefore ends up like one without a limit.  Any
other sink is left with the longest beginning of the text that fits, whatever the texts are in which
it is written.
-/

namespace Stencil

namespace Sink

/-- Of the beginnings of a text that fit into a number of bytes, the longest one. -/
structure LongestFitting (room : Nat) (content kept : String) : Prop where
  begins : kept.toList <+: content.toList
  fits : kept.utf8ByteSize ≤ room
  longest : ∀ other : String, other.toList <+: content.toList → other.utf8ByteSize ≤ room →
    other.toList <+: kept.toList

def byteSize (characters : List Char) : Nat :=
  (String.ofList characters).utf8ByteSize

@[simp] theorem byteSize_nil : byteSize [] = 0 := rfl

@[simp] theorem byteSize_cons (character : Char) (rest : List Char) :
    byteSize (character :: rest) = character.utf8Size + byteSize rest := by
  simp [byteSize, String.ofList_cons]

theorem byteSize_toList (content : String) : byteSize content.toList = content.utf8ByteSize := by
  simp [byteSize]

theorem byteSize_fitting_le (room : Nat) (characters : List Char) :
    byteSize (fitting room characters) ≤ room := by
  induction characters generalizing room with
  | nil => exact Nat.zero_le room
  | cons character rest induction =>
      unfold fitting
      split
      · have tail := induction (room - character.utf8Size)
        rw [byteSize_cons]
        omega
      · exact Nat.zero_le room

theorem begins_fitting
    {room : Nat} {characters other : List Char} (begins : other <+: characters)
    (fits : byteSize other ≤ room) :
    other <+: fitting room characters := by
  induction characters generalizing room other with
  | nil =>
      rw [List.prefix_nil] at begins
      subst begins
      exact List.nil_prefix
  | cons character rest induction =>
      cases other with
      | nil => exact List.nil_prefix
      | cons head tail =>
          obtain ⟨rfl, tailBegins⟩ := List.cons_prefix_cons.mp begins
          rw [byteSize_cons] at fits
          have headFits : head.utf8Size ≤ room := by omega
          have tailFits : byteSize tail ≤ room - head.utf8Size := by omega
          rw [fitting, if_pos headFits]
          exact (List.prefix_cons_inj head).mpr (induction tailBegins tailFits)

theorem longestFitting_fitting (room : Nat) (content : String) :
    LongestFitting room content (String.ofList (fitting room content.toList)) where
  begins := by
    rw [String.toList_ofList]
    exact fitting_begins room content.toList
  fits := byteSize_fitting_le room content.toList
  longest := by
    intro other begins fits
    rw [String.toList_ofList]
    apply begins_fitting begins
    rwa [byteSize_toList]

theorem fitting_append_of_fits
    {room : Nat} {first : List Char} (fits : byteSize first ≤ room) (second : List Char) :
    fitting room (first ++ second) = first ++ fitting (room - byteSize first) second := by
  induction first generalizing room with
  | nil => simp
  | cons character rest induction =>
      rw [byteSize_cons] at fits
      have headFits : character.utf8Size ≤ room := by omega
      have tailFits : byteSize rest ≤ room - character.utf8Size := by omega
      rw [List.cons_append, fitting, if_pos headFits, induction tailFits, byteSize_cons,
        Nat.sub_sub, List.cons_append]

/-- What does not fit whole hides all that stands behind it. -/
theorem fitting_append_of_full
    {room : Nat} {first : List Char} (full : room < byteSize first) (second : List Char) :
    fitting room (first ++ second) = fitting room first := by
  induction first generalizing room with
  | nil => exact absurd full (Nat.not_lt_zero room)
  | cons character rest induction =>
      rw [byteSize_cons] at full
      rw [List.cons_append, fitting, fitting]
      split
      · have tailFull : room - character.utf8Size < byteSize rest := by omega
        rw [induction tailFull]
      · rfl

theorem writeAll_of_unlimited (written : String) (contents : List String) :
    writeAll { text := written, room := none } contents =
      (true, { text := written ++ String.join contents, room := none }) := by
  induction contents generalizing written with
  | nil => simp [writeAll]
  | cons content rest induction =>
      simp only [writeAll, write, induction, String.join_cons, String.append_assoc]

theorem writeAll_of_fits
    {room : Nat} {contents : List String}
    (fits : (String.join contents).utf8ByteSize ≤ room) (written : String) :
    writeAll { text := written, room := some room } contents =
      (true,
        { text := written ++ String.join contents,
          room := some (room - (String.join contents).utf8ByteSize) }) := by
  induction contents generalizing room written with
  | nil => simp [writeAll]
  | cons content rest induction =>
      rw [String.join_cons, String.utf8ByteSize_append] at fits
      have headFits : content.utf8ByteSize ≤ room := by omega
      have tailFits : (String.join rest).utf8ByteSize ≤ room - content.utf8ByteSize := by omega
      simp only [writeAll, write, if_pos headFits, induction tailFits, String.join_cons,
        String.append_assoc, String.utf8ByteSize_append, Nat.sub_sub]

/-- The text that is kept does not show where one text ends and the next one begins. -/
theorem writeAll_of_full
    {room : Nat} {contents : List String}
    (full : room < (String.join contents).utf8ByteSize) (written : String) :
    writeAll { text := written, room := some room } contents =
      (false,
        { text := written ++ String.ofList (fitting room (String.join contents).toList),
          room := some (room -
            (String.ofList (fitting room (String.join contents).toList)).utf8ByteSize) }) := by
  induction contents generalizing room written with
  | nil => exact absurd full (Nat.not_lt_zero room)
  | cons content rest induction =>
      rw [String.join_cons, String.utf8ByteSize_append] at full
      by_cases headFits : content.utf8ByteSize ≤ room
      · have tailFull : room - content.utf8ByteSize < (String.join rest).utf8ByteSize := by omega
        have listFits : byteSize content.toList ≤ room := by rwa [byteSize_toList]
        have cut := fitting_append_of_fits listFits (String.join rest).toList
        rw [byteSize_toList] at cut
        simp only [writeAll, write, if_pos headFits, induction tailFull, String.join_cons,
          String.toList_append, cut, String.ofList_append, String.ofList_toList,
          String.append_assoc, String.utf8ByteSize_append, Nat.sub_sub]
      · have listFull : room < byteSize content.toList := by
          rw [byteSize_toList]
          omega
        simp only [writeAll, write, if_neg headFits, String.join_cons, String.toList_append,
          fitting_append_of_full listFull]

/-- A sink ends up the same however its text is divided. -/
theorem writeAll_congr
    {first second : List String} (same : String.join first = String.join second) (sink : Sink) :
    sink.writeAll first = sink.writeAll second := by
  obtain ⟨written, room⟩ := sink
  cases room with
  | none => rw [writeAll_of_unlimited, writeAll_of_unlimited, same]
  | some room =>
      by_cases fits : (String.join first).utf8ByteSize ≤ room
      · rw [writeAll_of_fits fits, writeAll_of_fits (same ▸ fits), same]
      · have full := Nat.lt_of_not_le fits
        rw [writeAll_of_full full, writeAll_of_full (same ▸ full), same]

end Sink

/-- What the action tries to write, and how it ends, is the same for all sinks. -/
def Rendering.Fixed (action : Rendering Unit) : Prop :=
  ∃ contents result, Writes action contents result ∧ RenderError.OfData result

variable {δ : Type} [Data δ]

theorem Node.fixed_renderAll (nodes : List (Node Reference)) (stack : Stack δ) :
    Rendering.Fixed (Node.renderAll nodes stack) := by
  obtain ⟨parts, result, writes, ofData, -⟩ :=
    traced_renderAll nodes stack (textsAll nodes) false (fun _ member => member) nofun
  have unchanged := writes id
  simp only [withTextsAll_id] at unchanged
  exact ⟨_, result, unchanged, ofData⟩

namespace Template

/-- A limit only cuts off what a template writes.  There are texts that the template tries to write
to any sink, one behind the other up to the first one that does not fit; nothing is written behind
that one.  Where all of the text fits, the result is the one without a limit.  Otherwise the output
has failed, and the sink is left with the longest beginning that fits. -/
theorem renderTo_limited (template : Template) (data : δ) :
    ∃ contents result,
      RenderError.OfData result ∧
      template.renderTo data .unlimited =
        (result, { text := String.join contents, room := none }) ∧
      (∀ sink, template.renderTo data sink = concluded result (sink.writeAll contents)) ∧
      ∀ limit,
        ((String.join contents).utf8ByteSize ≤ limit →
          (template.renderTo data (.limited limit)).1 = result ∧
            (template.renderTo data (.limited limit)).2.text = String.join contents) ∧
        (limit < (String.join contents).utf8ByteSize →
          (template.renderTo data (.limited limit)).1 = .error .outputFailure ∧
            Sink.LongestFitting limit (String.join contents)
              (template.renderTo data (.limited limit)).2.text) := by
  obtain ⟨contents, result, writes, ofData⟩ :=
    Node.fixed_renderAll template.nodes (Stack.ofRoot data)
  have onAnySink := renderTo_of_writes writes
  refine ⟨contents, result, ofData, ?_, onAnySink, ?_⟩
  · rw [onAnySink, Sink.unlimited, Sink.writeAll_of_unlimited, String.empty_append]
    rfl
  · intro limit
    constructor
    · intro fits
      rw [onAnySink, Sink.limited, Sink.writeAll_of_fits fits, String.empty_append]
      exact ⟨rfl, rfl⟩
    · intro full
      rw [onAnySink, Sink.limited, Sink.writeAll_of_full full, String.empty_append]
      exact ⟨rfl, Sink.longestFitting_fitting limit _⟩

end Template

end Stencil
