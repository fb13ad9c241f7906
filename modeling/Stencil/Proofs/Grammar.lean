import Stencil.Proofs.PathGrammar
import Stencil.Token

/-!
# The grammar of directives

`Directive.Spelled` is the grammar of what may stand between two markers: a path, perhaps behind an
exclamation mark, or a keyword and what belongs to it, where a keyword ends at a blank or a dot.
A directive is read exactly from the texts that spell it.
-/

namespace Stencil

/-- A name that a loop can give to its elements. -/
def IsBinding (name : String) : Prop :=
  Text.isIdentifier name.toList ∧ Metadata.isReserved name = false

namespace Directive

/-- The ways in which the binding of a loop may be written, from its first bar on. -/
inductive Barred (name : String) : List Char → Prop where
  | intro {before after behind : List Char} (blankBefore : Text.Blanks before)
      (binding : IsBinding name) (blankAfter : Text.Blanks after)
      (blankBehind : Text.Blanks behind) :
      Barred name ('|' :: (before ++ (name.toList ++ after) ++ '|' :: behind))

/-- A path behind a keyword: its first character shows where the keyword ends. -/
structure Behind (path : Path) (characters : List Char) : Prop where
  spelled : path.Spelled characters
  apart : ∃ first rest, characters = first :: rest ∧ (Text.isBlank first ∨ first = '.')

/-- The grammar of directives: what may stand between the two markers of a kind. -/
inductive Spelled : Directive → Marker → List Char → Prop where
  | escaped {path : Path} {characters : List Char} (spelled : path.Spelled characters) :
      Spelled (.variable path false) .value characters
  | raw {path : Path} {before characters : List Char} (blank : Text.Blanks before)
      (spelled : path.Spelled characters) :
      Spelled (.variable path true) .value (before ++ '!' :: characters)
  | loop {path : Path} {name : String} {before characters barred : List Char}
      (blank : Text.Blanks before) (behind : Behind path characters)
      (binding : Barred name barred) :
      Spelled (.loop path name) .block (before ++ ("for".toList ++ (characters ++ barred)))
  | conditional {path : Path} {before characters : List Char} (blank : Text.Blanks before)
      (behind : Behind path characters) :
      Spelled (.conditional path) .block (before ++ ("if".toList ++ characters))
  | otherwise {before after : List Char} (blankBefore : Text.Blanks before)
      (blankAfter : Text.Blanks after) :
      Spelled .otherwise .block (before ++ ("else".toList ++ after))
  | closeLoop {before after : List Char} (blankBefore : Text.Blanks before)
      (blankAfter : Text.Blanks after) :
      Spelled (.close .loop) .block (before ++ ("endfor".toList ++ after))
  | closeConditional {before after : List Char} (blankBefore : Text.Blanks before)
      (blankAfter : Text.Blanks after) :
      Spelled (.close .conditional) .block (before ++ ("endif".toList ++ after))

theorem betweenBars_eq_some_iff {characters inner : List Char} :
    betweenBars characters = some inner ↔ characters = '|' :: (inner ++ ['|']) := by
  constructor
  · intro between
    unfold betweenBars at between
    split at between
    · rename_i rest
      split at between
      · rename_i last
        cases between
        rw [List.dropLast_append_getLast? '|' last]
      · cases between
    · cases between
  · rintro rfl
    simp [betweenBars]

theorem readBinding_congr
    {first second : List Char} (trimmed : Text.trim first = Text.trim second) :
    readBinding first = readBinding second := by
  rw [readBinding, readBinding, trimmed]

theorem isBinding_of_readBinding
    {characters : List Char} {name : String} (read : readBinding characters = .ok name) :
    IsBinding name := by
  unfold readBinding at read
  simp only at read
  split at read
  · cases read
  · split at read
    · cases read
    · rename_i identifier
      split at read
      · cases read
      · rename_i free
        cases read
        constructor
        · simpa using identifier
        · simpa using free

theorem readBinding_eq_ok_iff {bound : List Char} {name : String} :
    readBinding ('|' :: bound) = .ok name ↔ Barred name ('|' :: bound) := by
  have visible : Text.isBlank '|' = false := by decide
  have trimmed : Text.trim ('|' :: bound) = '|' :: Text.trimEnd bound :=
    Text.trim_visible [] bound visible
  constructor
  · intro read
    have binding := isBinding_of_readBinding read
    rw [readBinding, trimmed] at read
    cases between : betweenBars ('|' :: Text.trimEnd bound) with
    | none => simp [between] at read
    | some inner =>
        have named : name = String.ofList (Text.trim inner) := by
          simp only [between] at read
          split at read
          · cases read
          · split at read
            · cases read
            · exact (Except.ok.inj read).symm
        obtain ⟨before, after, blankBefore, blankAfter, padded⟩ := Text.exists_trim inner
        obtain ⟨behind, blankBehind, whole⟩ := Text.exists_blanks_trimEnd bound
        have barred := Barred.intro blankBefore binding blankAfter blankBehind
        have ends := (List.cons.inj (betweenBars_eq_some_iff.mp between)).2
        have seams : bound = inner ++ '|' :: behind := by
          rw [whole, ends, List.append_assoc, List.singleton_append]
        have inside : before ++ (name.toList ++ after) = inner := by
          rw [named, String.toList_ofList, ← List.append_assoc, ← padded]
        rwa [inside, ← seams] at barred
  · intro barred
    generalize barredFrom : '|' :: bound = characters at barred
    cases barred with
    | @intro before after behind blankBefore binding blankAfter blankBehind =>
        obtain ⟨identifier, free⟩ := binding
        obtain rfl := (List.cons.inj barredFrom).2
        have between : betweenBars
            ('|' :: Text.trimEnd (before ++ (name.toList ++ after) ++ '|' :: behind)) =
              some (before ++ (name.toList ++ after)) := by
          rw [Text.trimEnd_visible _ _ visible, Text.trimEnd_of_blanks blankBehind,
            betweenBars_eq_some_iff]
        have inner := Text.trim_identifier blankBefore identifier blankAfter
        rw [readBinding, trimmed, between]
        simp [inner, identifier, free]

theorem splitAtBar {written : List Char} (noBar : '|' ∉ written) (bound : List Char) :
    (written ++ '|' :: bound).takeWhile (· ≠ '|') = written ∧
      (written ++ '|' :: bound).dropWhile (· ≠ '|') = '|' :: bound := by
  have passes : ∀ character ∈ written, decide (character ≠ '|') = true := by
    intro character member
    apply decide_eq_true
    rintro rfl
    exact noBar member
  rw [List.takeWhile_append_of_pos passes, List.dropWhile_append_of_pos passes]
  simp

theorem exists_parts_of_readLoop
    {rest : List Char} {found : Directive} (read : readLoop rest = .ok found) :
    ∃ path binding, readPath (rest.takeWhile (· ≠ '|')) = .ok path ∧
      readBinding (rest.dropWhile (· ≠ '|')) = .ok binding ∧ found = .loop path binding := by
  unfold readLoop at read
  simp only at read
  split at read
  · cases read
  · cases pathRead : readPath (rest.takeWhile (· ≠ '|')) with
    | error fault =>
        rw [pathRead] at read
        cases read
    | ok path =>
        cases bindingRead : readBinding (rest.dropWhile (· ≠ '|')) with
        | error fault =>
            rw [pathRead, bindingRead] at read
            cases read
        | ok binding =>
            rw [pathRead, bindingRead] at read
            cases read
            exact ⟨path, binding, rfl, rfl, rfl⟩

theorem readLoop_of_bar {written : List Char} (noBar : '|' ∉ written) (bound : List Char) :
    readLoop (written ++ '|' :: bound) = do
      let path ← readPath written
      let binding ← readBinding ('|' :: bound)
      return .loop path binding := by
  obtain ⟨front, behind⟩ := splitAtBar noBar bound
  rw [readLoop, front, behind]
  rfl

theorem readLoop_of_not_mem {rest : List Char} (noBar : '|' ∉ rest) :
    readLoop rest = .error .missingBinding := by
  have none : rest.dropWhile (· ≠ '|') = [] := by
    rw [List.dropWhile_eq_nil_iff]
    intro character member
    apply decide_eq_true
    rintro rfl
    exact noBar member
  rw [readLoop, none]
  rfl

theorem readLoop_trim (rest : List Char) : readLoop (Text.trim rest) = readLoop rest := by
  by_cases bar : '|' ∈ rest
  · obtain ⟨written, bound, rfl, noBar⟩ := List.eq_append_cons_of_mem bar
    have visible : Text.isBlank '|' = false := by decide
    have noBarTrimmed : '|' ∉ Text.trimStart written :=
      fun member => noBar ((List.dropWhile_sublist _).subset member)
    have binding : readBinding ('|' :: Text.trimEnd bound) = readBinding ('|' :: bound) := by
      have kept : Text.trimEnd ('|' :: bound) = '|' :: Text.trimEnd bound :=
        Text.trimEnd_visible [] bound visible
      rw [← kept]
      exact readBinding_congr (Text.trim_trimEnd _)
    rw [Text.trim_visible _ _ visible, readLoop_of_bar noBarTrimmed, readLoop_of_bar noBar,
      readPath_congr (Text.trim_trimStart written), binding]
  · have noBarTrimmed : '|' ∉ Text.trim rest := by
      obtain ⟨before, after, -, -, whole⟩ := Text.exists_trim rest
      intro member
      apply bar
      rw [whole]
      simp [member]
    rw [readLoop_of_not_mem bar, readLoop_of_not_mem noBarTrimmed]

theorem not_mem_of_spelled
    {path : Path} {characters : List Char} (spelled : path.Spelled characters) {character : Char}
    (foreign : ¬ Path.MayHold character) :
    character ∉ characters :=
  fun member => foreign (spelled.mayHold character member)

theorem not_mayHold_bar : ¬ Path.MayHold '|' := by
  unfold Path.MayHold Path.IsCharacter
  decide

theorem not_mayHold_exclamation : ¬ Path.MayHold '!' := by
  unfold Path.MayHold Path.IsCharacter
  decide

theorem readLoop_eq_ok_iff {rest : List Char} {found : Directive} :
    readLoop rest = .ok found ↔
      ∃ path name written barred, found = .loop path name ∧ rest = written ++ barred ∧
        path.Spelled written ∧ Barred name barred := by
  constructor
  · intro read
    by_cases bar : '|' ∈ rest
    · obtain ⟨written, bound, rfl, noBar⟩ := List.eq_append_cons_of_mem bar
      obtain ⟨path, name, pathRead, bindingRead, rfl⟩ := exists_parts_of_readLoop read
      obtain ⟨front, behind⟩ := splitAtBar noBar bound
      rw [front] at pathRead
      rw [behind] at bindingRead
      exact ⟨path, name, written, '|' :: bound, rfl, rfl, spelled_of_readPath pathRead,
        readBinding_eq_ok_iff.mp bindingRead⟩
    · rw [readLoop_of_not_mem bar] at read
      cases read
  · rintro ⟨path, name, written, barred, rfl, rfl, spelled, binding⟩
    obtain ⟨bound, rfl⟩ : ∃ bound, barred = '|' :: bound := by
      cases binding
      exact ⟨_, rfl⟩
    rw [readLoop_of_bar (not_mem_of_spelled spelled not_mayHold_bar),
      readPath_of_spelled spelled, readBinding_eq_ok_iff.mpr binding]
    rfl

/-- Reads what follows a keyword. -/
def Keyword.readRest (keyword : Keyword) (rest : List Char) : Except Fault Directive :=
  match keyword with
  | .open .loop => readLoop rest
  | .open .conditional => (readPath rest).map .conditional
  | .otherwise => readBare .otherwise rest keyword.written
  | .close kind => readBare (.close kind) rest keyword.written

theorem Keyword.isIdentifier_written (keyword : Keyword) :
    Text.isIdentifier keyword.written.toList := by
  rcases keyword with (_ | _) | _ | (_ | _) <;> decide

theorem Keyword.ofWord?_eq_some_iff {word : String} {keyword : Keyword} :
    ofWord? word = some keyword ↔ keyword.written = word := by
  constructor
  · intro found
    simpa using List.find?_some found
  · rintro rfl
    rcases keyword with (_ | _) | _ | (_ | _) <;> decide

/-- The keyword of a block directive and what follows it. -/
theorem splitKeyword
    {word rest : List Char} (inside : ∀ character ∈ word, endsKeyword character = false)
    (ends : ∀ character ∈ rest.head?, endsKeyword character) :
    (word ++ rest).takeWhile (fun character => !endsKeyword character) = word ∧
      (word ++ rest).dropWhile (fun character => !endsKeyword character) = rest := by
  have passes : ∀ character ∈ word, (!endsKeyword character) = true := by
    intro character member
    rw [inside character member]
    rfl
  rw [List.takeWhile_append_of_pos passes, List.dropWhile_append_of_pos passes]
  cases rest with
  | nil => simp
  | cons character rest =>
      have stop : endsKeyword character := ends character rfl
      simp [stop]

theorem endsKeyword_of_isIdentifierChar
    {character : Char} (identifier : Text.isIdentifierChar character) :
    endsKeyword character = false := by
  have blank := Text.isBlank_of_isIdentifierChar identifier
  have dot := Text.ne_of_isIdentifierChar identifier '.' (by decide)
  have bar := Text.ne_of_isIdentifierChar identifier '|' (by decide)
  simp [endsKeyword, blank, dot, bar]

theorem readBlock_keyword
    {before rest : List Char} (blank : Text.Blanks before) (keyword : Keyword)
    (ends : ∀ character ∈ rest.head?, endsKeyword character) :
    readBlock (before ++ (keyword.written.toList ++ rest)) =
      keyword.readRest (Text.trim rest) := by
  have letters := keyword.isIdentifier_written
  have trimmed : Text.trim (before ++ (keyword.written.toList ++ rest)) =
      keyword.written.toList ++ Text.trimEnd rest := by
    rw [Text.trim, Text.trimStart_identifier blank letters]
    exact Text.trimEnd_identifier [] letters rest
  have endsTrimmed : ∀ character ∈ (Text.trimEnd rest).head?, endsKeyword character := by
    obtain ⟨after, -, whole⟩ := Text.exists_blanks_trimEnd rest
    intro character head
    apply ends character
    rw [whole]
    exact List.mem_head?_append_of_mem_head? head
  have inside : ∀ character ∈ keyword.written.toList, endsKeyword character = false :=
    fun character member =>
      endsKeyword_of_isIdentifierChar ((Text.isIdentifier_iff.mp letters).2 character member)
  obtain ⟨word, behind⟩ := splitKeyword inside endsTrimmed
  have known := Keyword.ofWord?_eq_some_iff.mpr (Eq.refl keyword.written)
  simp only [readBlock, trimmed, word, behind, String.ofList_toList, known, Text.trim_trimEnd]
  rcases keyword with (_ | _) | _ | _ <;> rfl

theorem exists_keyword_of_readBlock
    {inner : List Char} {found : Directive} (read : readBlock inner = .ok found) :
    ∃ (before : List Char) (keyword : Keyword) (rest : List Char), Text.Blanks before ∧
      inner = before ++ (keyword.written.toList ++ rest) ∧
      (∀ character ∈ rest.head?, endsKeyword character) ∧
      keyword.readRest (Text.trim rest) = .ok found := by
  obtain ⟨before, after, blankBefore, blankAfter, whole⟩ := Text.exists_trim inner
  have divided : (Text.trim inner).takeWhile (fun character => !endsKeyword character) ++
      (Text.trim inner).dropWhile (fun character => !endsKeyword character) = Text.trim inner :=
    List.takeWhile_append_dropWhile
  simp only [readBlock] at read
  generalize (Text.trim inner).takeWhile (fun character => !endsKeyword character) = word
    at read divided
  generalize dropped : (Text.trim inner).dropWhile (fun character => !endsKeyword character) = rest
    at read divided
  have ends : ∀ character ∈ (rest ++ after).head?, endsKeyword character := by
    intro character head
    cases rest with
    | nil => simp [endsKeyword, blankAfter character (List.mem_of_mem_head? head)]
    | cons first behind =>
        obtain rfl : first = character := by simpa using head
        have stopped := List.head?_dropWhile_not (fun character => !endsKeyword character)
          (Text.trim inner)
        rw [dropped] at stopped
        simpa using stopped
  have padded : Text.trim (rest ++ after) = Text.trim rest :=
    Text.trim_padded Text.blanks_nil blankAfter rest
  cases known : Keyword.ofWord? (String.ofList word) with
  | none =>
      simp only [known] at read
      split at read <;> cases read
  | some keyword =>
      have written := Keyword.ofWord?_eq_some_iff.mp known
      refine ⟨before, keyword, rest ++ after, blankBefore, ?_, ends, ?_⟩
      · rw [written, String.toList_ofList, ← List.append_assoc word, divided,
          ← List.append_assoc before]
        exact whole
      · rw [padded, ← read, known, ← written]
        rcases keyword with (_ | _) | _ | _ <;> rfl

theorem Behind.endsKeyword
    {path : Path} {written : List Char} (behind : Behind path written) (more : List Char) :
    ∀ character ∈ (written ++ more).head?, endsKeyword character := by
  obtain ⟨first, rest, rfl, apart⟩ := behind.apart
  intro character head
  obtain rfl : first = character := by simpa using head
  rcases apart with blank | rfl
  · simp [Directive.endsKeyword, blank]
  · decide

theorem behind_of_ends
    {path : Path} {written : List Char} (spelled : path.Spelled written) {more : List Char}
    (ends : ∀ character ∈ (written ++ more).head?, endsKeyword character) :
    Behind path written where
  spelled := spelled
  apart := by
    obtain ⟨first, rest, rfl⟩ := List.exists_cons_of_ne_nil spelled.ne_nil
    have ending := ends first rfl
    have noBar : first ≠ '|' := by
      rintro rfl
      exact not_mem_of_spelled spelled not_mayHold_bar List.mem_cons_self
    refine ⟨first, rest, rfl, ?_⟩
    simpa [endsKeyword, noBar] using ending

theorem exists_readPath_of_map
    {characters : List Char} {build : Path → Directive} {found : Directive}
    (read : (readPath characters).map build = .ok found) :
    ∃ path, readPath characters = .ok path ∧ found = build path := by
  cases result : readPath characters with
  | error fault =>
      rw [result] at read
      cases read
  | ok path =>
      rw [result] at read
      cases read
      exact ⟨path, rfl, rfl⟩

theorem readBare_trim_eq_ok_iff
    {directive found : Directive} {rest : List Char} {word : String} :
    readBare directive (Text.trim rest) word = .ok found ↔
      found = directive ∧ Text.Blanks rest := by
  rw [← Text.trim_eq_nil_iff, readBare]
  split
  · rename_i empty
    simp [List.isEmpty_iff.mp empty, eq_comm]
  · rename_i more
    simp [List.isEmpty_iff.not.mp more]

theorem ends_of_blanks {rest : List Char} (blank : Text.Blanks rest) :
    ∀ character ∈ rest.head?, endsKeyword character := by
  intro character head
  simp [endsKeyword, blank character (List.mem_of_mem_head? head)]

theorem spelled_of_readBlock
    {inner : List Char} {found : Directive} (read : readBlock inner = .ok found) :
    found.Spelled .block inner := by
  obtain ⟨before, keyword, rest, blank, rfl, ends, restRead⟩ := exists_keyword_of_readBlock read
  rcases keyword with (_ | _) | _ | (_ | _)
  · rw [Keyword.readRest, readLoop_trim, readLoop_eq_ok_iff] at restRead
    obtain ⟨path, name, written, barred, rfl, rfl, spelled, binding⟩ := restRead
    exact .loop blank (behind_of_ends spelled ends) binding
  · rw [Keyword.readRest, readPath_congr (Text.trim_trim rest)] at restRead
    obtain ⟨path, pathRead, rfl⟩ := exists_readPath_of_map restRead
    rw [← List.append_nil rest] at ends
    exact .conditional blank (behind_of_ends (spelled_of_readPath pathRead) ends)
  · obtain ⟨rfl, blankRest⟩ := readBare_trim_eq_ok_iff.mp restRead
    exact .otherwise blank blankRest
  · obtain ⟨rfl, blankRest⟩ := readBare_trim_eq_ok_iff.mp restRead
    exact .closeLoop blank blankRest
  · obtain ⟨rfl, blankRest⟩ := readBare_trim_eq_ok_iff.mp restRead
    exact .closeConditional blank blankRest

theorem readBlock_of_spelled
    {inner : List Char} {found : Directive} (spelled : found.Spelled .block inner) :
    readBlock inner = .ok found := by
  cases spelled with
  | @loop path name before characters barred blank behind binding =>
      have read := readBlock_keyword blank (.open .loop) (behind.endsKeyword barred)
      rw [Keyword.readRest, readLoop_trim] at read
      exact read.trans (readLoop_eq_ok_iff.mpr ⟨_, _, _, _, rfl, rfl, behind.spelled, binding⟩)
  | @conditional path before characters blank behind =>
      have ends := behind.endsKeyword []
      rw [List.append_nil] at ends
      have read := readBlock_keyword blank (.open .conditional) ends
      rw [Keyword.readRest, readPath_congr (Text.trim_trim characters),
        readPath_of_spelled behind.spelled] at read
      exact read
  | otherwise blankBefore blankAfter =>
      have read := readBlock_keyword blankBefore .otherwise (ends_of_blanks blankAfter)
      exact read.trans (readBare_trim_eq_ok_iff.mpr ⟨rfl, blankAfter⟩)
  | closeLoop blankBefore blankAfter =>
      have read := readBlock_keyword blankBefore (.close .loop) (ends_of_blanks blankAfter)
      exact read.trans (readBare_trim_eq_ok_iff.mpr ⟨rfl, blankAfter⟩)
  | closeConditional blankBefore blankAfter =>
      have read := readBlock_keyword blankBefore (.close .conditional) (ends_of_blanks blankAfter)
      exact read.trans (readBare_trim_eq_ok_iff.mpr ⟨rfl, blankAfter⟩)

theorem readValue_raw {inner rest : List Char} (raw : Text.trimStart inner = '!' :: rest) :
    readValue inner = (readPath rest).map (.variable · true) := by
  rw [readValue, raw]
  rfl

theorem readValue_escaped
    {inner : List Char} (escaped : ∀ rest, Text.trimStart inner ≠ '!' :: rest) :
    readValue inner = (readPath inner).map (.variable · false) := by
  unfold readValue
  split
  · rename_i rest raw
    exact absurd raw (escaped rest)
  · rfl

theorem spelled_of_readValue
    {inner : List Char} {found : Directive} (read : readValue inner = .ok found) :
    found.Spelled .value inner := by
  by_cases raw : ∃ rest, Text.trimStart inner = '!' :: rest
  · obtain ⟨rest, raw⟩ := raw
    rw [readValue_raw raw] at read
    obtain ⟨path, pathRead, rfl⟩ := exists_readPath_of_map read
    obtain ⟨before, blank, whole⟩ := Text.exists_blanks_trimStart inner
    rw [whole, raw]
    exact .raw blank (spelled_of_readPath pathRead)
  · rw [readValue_escaped (not_exists.mp raw)] at read
    obtain ⟨path, pathRead, rfl⟩ := exists_readPath_of_map read
    exact .escaped (spelled_of_readPath pathRead)

theorem readValue_of_spelled
    {inner : List Char} {found : Directive} (spelled : found.Spelled .value inner) :
    readValue inner = .ok found := by
  cases spelled with
  | escaped path =>
      have escaped : ∀ rest, Text.trimStart inner ≠ '!' :: rest := by
        intro rest raw
        have member : '!' ∈ Text.trimStart inner := by simp [raw]
        exact not_mem_of_spelled path not_mayHold_exclamation
          ((List.dropWhile_sublist _).subset member)
      rw [readValue_escaped escaped, readPath_of_spelled path]
      rfl
  | @raw path before characters blank spelled =>
      have raw : Text.trimStart (before ++ '!' :: characters) = '!' :: characters := by
        rw [Text.trimStart_append blank]
        rfl
      rw [readValue_raw raw, readPath_of_spelled spelled]
      rfl

/-- A directive is read exactly from the ways in which it is spelled. -/
theorem read_eq_ok_iff {marker : Marker} {inner : List Char} {found : Directive} :
    marker.read inner = .ok found ↔ found.Spelled marker inner := by
  cases marker with
  | value => exact ⟨spelled_of_readValue, readValue_of_spelled⟩
  | block => exact ⟨spelled_of_readBlock, readBlock_of_spelled⟩

theorem Spelled.unique
    {marker : Marker} {inner : List Char} {found other : Directive}
    (spelled : found.Spelled marker inner) (spelledOther : other.Spelled marker inner) :
    other = found := by
  have read := read_eq_ok_iff.mpr spelled
  rw [read_eq_ok_iff.mpr spelledOther] at read
  exact Except.ok.inj read

end Directive

end Stencil
