import Stencil.Directive
import Stencil.Proofs.Trimming

/-!
# The grammar of paths

A path may be written in many ways: blanks may stand at every seam, and the dot behind the steps
out of loops may be left out.  `Path.Spelled` is the grammar of these ways, and a path is read
exactly from the texts that spell it.
-/

namespace Stencil

namespace Path

/-- Steps out of loops, each with blanks behind it. -/
inductive Hops : Nat → List Char → Prop where
  | none : Hops 0 []
  | hop {hops : Nat} {blanks rest : List Char} (blank : Text.Blanks blanks)
      (further : Hops hops rest) :
      Hops (hops + 1) ('.' :: '.' :: '/' :: (blanks ++ rest))

/-- Identifiers between dots, each of them between blanks. -/
inductive Names : List String → List Char → Prop where
  | last {name : String} {before after : List Char} (blankBefore : Text.Blanks before)
      (identifier : Text.isIdentifier name.toList) (blankAfter : Text.Blanks after) :
      Names [name] (before ++ (name.toList ++ after))
  | more {name : String} {names : List String} {before after later : List Char}
      (blankBefore : Text.Blanks before) (identifier : Text.isIdentifier name.toList)
      (blankAfter : Text.Blanks after) (further : Names names later) :
      Names (name :: names) (before ++ (name.toList ++ after) ++ '.' :: later)

/-- The ways in which a path may be written: steps out of loops, a dot that may be left out, and
the segments. -/
inductive Spelled (path : Path) : List Char → Prop where
  | intro {before hops dot names : List Char} (blank : Text.Blanks before)
      (hopsSpelled : Hops path.hops hops) (mayDot : dot = [] ∨ dot = ['.'])
      (namesSpelled : Names path.segments names) :
      Spelled path (before ++ (hops ++ (dot ++ names)))

/-- A character of a written path. -/
def IsCharacter (character : Char) : Prop :=
  character = '.' ∨ character = '/' ∨ Text.isIdentifierChar character

/-- What may stand in a path, however it is written. -/
def MayHold (character : Char) : Prop :=
  Text.isBlank character ∨ IsCharacter character

theorem mayHold_of_blanks {blanks : List Char} (blank : Text.Blanks blanks) :
    ∀ character ∈ blanks, MayHold character :=
  fun character member => .inl (blank character member)

theorem mayHold_of_isIdentifier {name : List Char} (identifier : Text.isIdentifier name) :
    ∀ character ∈ name, MayHold character := by
  obtain ⟨-, each⟩ := Text.isIdentifier_iff.mp identifier
  exact fun character member => .inr (.inr (.inr (each character member)))

theorem Hops.mayHold {hops : Nat} {characters : List Char} (spelled : Hops hops characters) :
    ∀ character ∈ characters, MayHold character := by
  induction spelled with
  | none => simp
  | hop blank _ induction =>
      intro character member
      simp only [List.mem_cons, List.mem_append] at member
      rcases member with rfl | rfl | rfl | between | further
      · exact .inr (.inl rfl)
      · exact .inr (.inl rfl)
      · exact .inr (.inr (.inl rfl))
      · exact mayHold_of_blanks blank character between
      · exact induction character further

namespace Names

variable {names : List String} {characters : List Char}

theorem mayHold (spelled : Names names characters) :
    ∀ character ∈ characters, MayHold character := by
  induction spelled with
  | last blankBefore identifier blankAfter =>
      simp only [List.forall_mem_append]
      exact ⟨mayHold_of_blanks blankBefore, mayHold_of_isIdentifier identifier,
        mayHold_of_blanks blankAfter⟩
  | more blankBefore identifier blankAfter _ induction =>
      simp only [List.forall_mem_append, List.forall_mem_cons]
      exact ⟨⟨mayHold_of_blanks blankBefore, mayHold_of_isIdentifier identifier,
        mayHold_of_blanks blankAfter⟩, .inr (.inl rfl), induction⟩

theorem exists_visible (spelled : Names names characters) :
    ∃ character ∈ characters, Text.isBlank character = false := by
  cases spelled with
  | last _ identifier _ | more _ identifier _ _ =>
      obtain ⟨character, member, visible⟩ := Text.exists_visible_of_isIdentifier identifier
      exact ⟨character, by simp [member], visible⟩

/-- Identifiers do not start with a dot. -/
theorem head_ne_dot (spelled : Names names characters) : characters.head? ≠ some '.' := by
  have notDot : ∀ {before name : List Char} (rest : List Char), Text.Blanks before →
      Text.isIdentifier name → (before ++ (name ++ rest)).head? ≠ some '.' := by
    intro before name rest blank identifier dot
    cases before with
    | nil => exact absurd (Text.head_append_of_isIdentifier identifier rest '.' dot) (by decide)
    | cons character before =>
        obtain rfl : character = '.' := by simpa using dot
        exact absurd (blank '.' List.mem_cons_self) (by decide)
  cases spelled with
  | last blank identifier _ => exact notDot _ blank identifier
  | more blank identifier _ _ =>
      rw [List.append_assoc, List.append_assoc]
      exact notDot _ blank identifier

theorem append_blanks
    (spelled : Names names characters) {after : List Char} (blank : Text.Blanks after) :
    Names names (characters ++ after) := by
  induction spelled with
  | last blankBefore identifier blankAfter =>
      rw [List.append_assoc, List.append_assoc]
      exact .last blankBefore identifier (blankAfter.append blank)
  | more blankBefore identifier blankAfter _ induction =>
      rw [List.append_assoc, List.cons_append]
      exact .more blankBefore identifier blankAfter induction

theorem trimStart (spelled : Names names characters) : Names names (Text.trimStart characters) := by
  cases spelled with
  | last blankBefore identifier blankAfter =>
      rw [Text.trimStart_identifier blankBefore identifier]
      exact .last Text.blanks_nil identifier blankAfter
  | more blankBefore identifier blankAfter further =>
      have trimmed := Names.more Text.blanks_nil identifier blankAfter further
      rw [List.append_assoc, List.append_assoc, Text.trimStart_identifier blankBefore identifier]
      rwa [List.nil_append, List.append_assoc] at trimmed

theorem trimEnd (spelled : Names names characters) : Names names (Text.trimEnd characters) := by
  induction spelled with
  | last blankBefore identifier blankAfter =>
      rw [Text.trimEnd_identifier _ identifier, Text.trimEnd_of_blanks blankAfter]
      exact .last blankBefore identifier Text.blanks_nil
  | more blankBefore identifier blankAfter _ induction =>
      rw [Text.trimEnd_visible _ _ (by decide)]
      exact .more blankBefore identifier blankAfter induction

/-- The pieces of a text between dots, without blanks, are the identifiers it spells. -/
theorem map_trim_splitAt (spelled : Names names characters) :
    (Text.splitAt '.' characters).map Text.trim = names.map String.toList := by
  have noDot : ∀ {before name after : List Char}, Text.Blanks before →
      Text.isIdentifier name → Text.Blanks after → '.' ∉ before ++ (name ++ after) := by
    intro before name after blankBefore identifier blankAfter
    simp only [List.mem_append, not_or]
    exact ⟨blankBefore.not_mem (by decide),
      Text.not_mem_of_isIdentifier identifier '.' (by decide), blankAfter.not_mem (by decide)⟩
  induction spelled with
  | last blankBefore identifier blankAfter =>
      rw [Text.splitAt_of_not_mem (noDot blankBefore identifier blankAfter), List.map_singleton,
        Text.trim_identifier blankBefore identifier blankAfter, List.map_singleton]
  | more blankBefore identifier blankAfter _ induction =>
      rw [Text.splitAt_append (noDot blankBefore identifier blankAfter), List.map_cons,
        Text.trim_identifier blankBefore identifier blankAfter, induction, List.map_cons]

theorem isIdentifier (spelled : Names names characters) :
    ∀ name ∈ names, Text.isIdentifier name.toList := by
  induction spelled with
  | last _ identifier _ => simpa using identifier
  | more _ identifier _ _ induction => exact List.forall_mem_cons.mpr ⟨identifier, induction⟩

/-- Pieces between dots that are identifiers but for blanks are spelled by their text. -/
theorem of_splitAt
    (identifiers : ∀ piece ∈ Text.splitAt '.' characters, Text.isIdentifier (Text.trim piece)) :
    Names (((Text.splitAt '.' characters).map Text.trim).map String.ofList) characters := by
  generalize split : Text.splitAt '.' characters = pieces at identifiers
  induction pieces generalizing characters with
  | nil => exact absurd split (Text.splitAt_ne_nil _ _)
  | cons piece rest induction =>
      obtain ⟨identifier, others⟩ := List.forall_mem_cons.mp identifiers
      obtain ⟨before, after, blankBefore, blankAfter, whole⟩ := Text.exists_trim piece
      rw [List.append_assoc] at whole
      have named : Text.isIdentifier (String.ofList (Text.trim piece)).toList := by
        rwa [String.toList_ofList]
      rcases Text.splitAt_cases '.' characters with ⟨-, single⟩ | ⟨first, later, -, rfl, several⟩
      · rw [single] at split
        cases split
        have spelled := Names.last blankBefore named blankAfter
        rw [String.toList_ofList, ← whole] at spelled
        exact spelled
      · rw [several] at split
        obtain ⟨rfl, behind⟩ := List.cons.inj split
        have spelled := Names.more blankBefore named blankAfter (induction behind others)
        rw [String.toList_ofList, ← whole] at spelled
        exact spelled

end Names

theorem Spelled.mayHold
    {path : Path} {characters : List Char} (spelled : path.Spelled characters) :
    ∀ character ∈ characters, MayHold character := by
  cases spelled with
  | intro blank hopsSpelled mayDot namesSpelled =>
      simp only [List.forall_mem_append]
      refine ⟨mayHold_of_blanks blank, hopsSpelled.mayHold, ?_, namesSpelled.mayHold⟩
      rcases mayDot with rfl | rfl
      · simp
      · simp [MayHold, IsCharacter]

theorem Spelled.ne_nil
    {path : Path} {characters : List Char} (spelled : path.Spelled characters) :
    characters ≠ [] := by
  cases spelled with
  | intro _ _ _ namesSpelled =>
      obtain ⟨character, member, -⟩ := namesSpelled.exists_visible
      apply List.ne_nil_of_mem
      simp only [List.mem_append]
      exact .inr (.inr (.inr member))

/-- At the start of a path only blanks are trimmed. -/
theorem exists_trimStart_eq
    {before hops dot characters : List Char} {count : Nat} {names : List String}
    (blank : Text.Blanks before) (hopsSpelled : Hops count hops) (mayDot : dot = [] ∨ dot = ['.'])
    (spelled : Names names characters) :
    ∃ rest, Text.trimStart (before ++ (hops ++ (dot ++ characters))) = hops ++ (dot ++ rest) ∧
      Names names rest := by
  rw [Text.trimStart_append blank]
  cases hopsSpelled with
  | hop _ _ => exact ⟨characters, rfl, spelled⟩
  | none =>
      rcases mayDot with rfl | rfl
      · exact ⟨Text.trimStart characters, rfl, spelled.trimStart⟩
      · exact ⟨characters, rfl, spelled⟩

end Path

namespace Directive

theorem dropDot_of_head {characters : List Char} (noDot : characters.head? ≠ some '.') :
    dropDot characters = characters := by
  unfold dropDot
  split
  · exact absurd rfl noDot
  · rfl

theorem splitHops_of_not_hop
    {characters : List Char} (other : ¬ ['.', '.', '/'] <+: characters) :
    splitHops characters = (0, characters) := by
  unfold splitHops
  split
  · simp at other
  · rfl

theorem not_hop_of_head
    {dot characters : List Char} (mayDot : dot = [] ∨ dot = ['.'])
    (noDot : characters.head? ≠ some '.') :
    ¬ ['.', '.', '/'] <+: dot ++ characters := by
  rintro ⟨rest, whole⟩
  apply noDot
  rcases mayDot with rfl | rfl
  · rw [← List.nil_append characters, ← whole]
    rfl
  · obtain rfl : '.' :: '/' :: rest = characters := (List.cons.inj whole).2
    rfl

/-- All steps out of loops are counted, and the dot behind them is dropped. -/
theorem exists_splitHops_eq
    {hops dot characters : List Char} {count : Nat} {names : List String}
    (hopsSpelled : Path.Hops count hops) (mayDot : dot = [] ∨ dot = ['.'])
    (spelled : Path.Names names characters) :
    ∃ remaining, splitHops (hops ++ (dot ++ characters)) = (count, remaining) ∧
      Path.Names names (dropDot remaining) := by
  induction hopsSpelled generalizing characters with
  | none =>
      refine ⟨dot ++ characters, ?_, ?_⟩
      · rw [List.nil_append]
        exact splitHops_of_not_hop (not_hop_of_head mayDot spelled.head_ne_dot)
      · rcases mayDot with rfl | rfl
        · rwa [List.nil_append, dropDot_of_head spelled.head_ne_dot]
        · exact spelled
  | @hop count blanks rest blank further induction =>
      obtain ⟨behind, start, spelledBehind⟩ :=
        Path.exists_trimStart_eq blank further mayDot spelled
      obtain ⟨remaining, split, named⟩ := induction spelledBehind
      refine ⟨remaining, ?_, named⟩
      have opened : '.' :: '.' :: '/' :: (blanks ++ rest) ++ (dot ++ characters) =
          '.' :: '.' :: '/' :: (blanks ++ (rest ++ (dot ++ characters))) := by simp
      rw [opened, splitHops, start, split]

theorem readPath_of_spelled
    {path : Path} {characters : List Char} (spelled : path.Spelled characters) :
    readPath characters = .ok path := by
  obtain ⟨count, names⟩ := path
  cases spelled with
  | @intro before hops dot body blank hopsSpelled mayDot namesSpelled =>
      obtain ⟨rest, start, restSpelled⟩ :=
        Path.exists_trimStart_eq blank hopsSpelled mayDot namesSpelled
      have trimmed : Text.trim (before ++ (hops ++ (dot ++ body))) =
          hops ++ (dot ++ Text.trimEnd rest) := by
        rw [Text.trim, start, ← List.append_assoc,
          Text.trimEnd_append_visible _ restSpelled.exists_visible, List.append_assoc]
      obtain ⟨remaining, split, named⟩ :=
        exists_splitHops_eq hopsSpelled mayDot restSpelled.trimEnd
      have visible : Text.trim (dropDot remaining) ≠ [] := by
        rw [ne_eq, Text.trim_eq_nil_iff]
        intro allBlank
        obtain ⟨character, member, notBlank⟩ := named.exists_visible
        exact allBlank.not_mem notBlank member
      have checked : (names.map String.toList).all Text.isIdentifier := by
        simpa using named.isIdentifier
      simp only [readPath, trimmed, split, named.map_trim_splitAt, checked]
      simp [visible]

theorem exists_hops_of_splitHops (characters : List Char) :
    ∃ hops, Path.Hops (splitHops characters).1 hops ∧
      characters = hops ++ (splitHops characters).2 := by
  fun_induction splitHops characters with
  | case1 rest hops remaining split induction =>
      rw [split] at induction
      obtain ⟨written, spelled, whole⟩ := induction
      obtain ⟨blanks, blank, start⟩ := Text.exists_blanks_trimStart rest
      refine ⟨'.' :: '.' :: '/' :: (blanks ++ written), .hop blank spelled, ?_⟩
      rw [start, whole]
      simp
  | case2 other _ => exact ⟨[], .none, rfl⟩

theorem exists_dot_of_dropDot (characters : List Char) :
    ∃ dot, (dot = [] ∨ dot = ['.']) ∧ characters = dot ++ dropDot characters := by
  unfold dropDot
  split
  · exact ⟨['.'], .inr rfl, rfl⟩
  · exact ⟨[], .inl rfl, rfl⟩

theorem spelled_of_readPath
    {path : Path} {characters : List Char} (read : readPath characters = .ok path) :
    path.Spelled characters := by
  obtain ⟨before, after, blankBefore, blankAfter, whole⟩ := Text.exists_trim characters
  obtain ⟨hops, hopsSpelled, split⟩ := exists_hops_of_splitHops (Text.trim characters)
  obtain ⟨dot, mayDot, body⟩ := exists_dot_of_dropDot (splitHops (Text.trim characters)).2
  simp only [readPath] at read
  split at read
  · cases read
  · split at read
    · rename_i identifiers
      cases read
      have each : ∀ piece ∈ Text.splitAt '.' (dropDot (splitHops (Text.trim characters)).2),
          Text.isIdentifier (Text.trim piece) := by
        simpa using identifiers
      have named := (Path.Names.of_splitAt each).append_blanks blankAfter
      have seams : characters =
          before ++ (hops ++ (dot ++ (dropDot (splitHops (Text.trim characters)).2 ++ after))) := by
        rw [← List.append_assoc dot, ← body, ← List.append_assoc hops, ← split,
          ← List.append_assoc before]
        exact whole
      -- Only now may the trimmed text be forgotten, which `characters` occurs in.
      generalize splitHops (Text.trim characters) = found at hopsSpelled mayDot named seams
      rw [seams]
      exact .intro blankBefore hopsSpelled mayDot named
    · cases read

theorem readPath_eq_ok_iff {path : Path} {characters : List Char} :
    readPath characters = .ok path ↔ path.Spelled characters :=
  ⟨spelled_of_readPath, readPath_of_spelled⟩

/-- Blanks around a path change nothing, not even a fault. -/
theorem readPath_congr
    {first second : List Char} (trimmed : Text.trim first = Text.trim second) :
    readPath first = readPath second := by
  rw [readPath, readPath, trimmed]

end Directive

end Stencil
