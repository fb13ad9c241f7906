import Mathlib.Data.List.Induction
import Stencil.Proofs.Printing

/-!
# The spans of tokens

The tokens of a template have spans that make up the template, one behind the other.  A text is
its own span; that of a directive starts at the place of the directive and ends with the first
closing marker.  Where reading fails, all that stands before the fault can be read, and what
follows a directive that is closed does not matter.  A directive that the reader has come to is
accepted exactly if what stands between its markers spells one.
-/

namespace Stencil

namespace Position

/-- The place behind a text, counted over the text as a whole. -/
def behind (before : List Char) : Position where
  offset := (String.ofList before).utf8ByteSize
  line := before.count '\n' + 1
  column := (before.reverse.takeWhile (· ≠ '\n')).length + 1

theorem after_append (place : Position) (first second : List Char) :
    place.after (first ++ second) = (place.after first).after second :=
  List.foldl_append

theorem advance_behind (before : List Char) (character : Char) :
    (behind before).advance character = behind (before ++ [character]) := by
  by_cases newline : character = '\n'
  · simp [advance, behind, newline]
    rfl
  · simp [advance, behind, newline]

theorem after_behind (before characters : List Char) :
    (behind before).after characters = behind (before ++ characters) := by
  induction characters using List.reverseRecOn with
  | nil => simp [after]
  | append_singleton characters character induction =>
      rw [after_append, induction, ← List.append_assoc, ← advance_behind]
      rfl

theorem start_eq_behind : start = behind [] := rfl

end Position

/-- Of all closing markers behind an opening one, that behind `inner` is the first. -/
def Marker.ClosesFirst (marker : Marker) (inner rest : List Char) : Prop :=
  ∀ other, other ++ marker.closer <+: inner ++ marker.closer ++ rest →
    inner.length ≤ other.length

theorem Marker.ClosesAfter.closesFirst
    {marker : Marker} {inner : List Char} (closes : marker.ClosesAfter inner)
    (rest : List Char) :
    marker.ClosesFirst inner rest := by
  intro other earlier
  by_contra shorter
  apply closes
  have whole : inner ++ marker.closer ++ rest =
      (inner ++ marker.closer.dropLast) ++ (marker.closer.drop 1 ++ rest) := by
    cases marker <;> simp [closer]
  have short : (other ++ marker.closer).length ≤ (inner ++ marker.closer.dropLast).length := by
    cases marker <;> simp [closer] <;> omega
  rw [whole] at earlier
  have within := List.prefix_of_prefix_length_le earlier (List.prefix_append _ _) short
  exact (List.suffix_append other marker.closer).isInfix.trans within.isInfix

/-- Tokens cover a text that stands behind `before`, each with a span that begins where the one
before it ends. -/
inductive Token.Cover : List Char → List Token → List Char → Prop where
  | nil {before : List Char} : Cover before [] []
  | text {before later : List Char} {content : String} {rest : List Token}
      (nonempty : content ≠ "") (plain : Marker.Plain content.toList)
      (apart : ∀ next ∈ rest.head?, ¬ next.IsText)
      (cover : Cover (before ++ content.toList) rest later) :
      Cover before (.text content :: rest) (content.toList ++ later)
  | directive {before inner later : List Char} {found : Directive} {rest : List Token}
      (closes : found.marker.ClosesFirst inner later)
      (read : found.marker.read inner = .ok found)
      (cover : Cover (before ++ (found.marker.opener ++ inner ++ found.marker.closer)) rest later) :
      Cover before (found.token (.behind before) :: rest)
        (found.marker.opener ++ inner ++ found.marker.closer ++ later)

namespace Directive

theorem marker_of_read
    {marker : Marker} {inner : List Char} {found : Directive}
    (read : marker.read inner = .ok found) :
    found.marker = marker :=
  (read_eq_ok_iff.mp read).marker_eq

end Directive

namespace Token

theorem cover_of_ofPieces
    {pieces : List Piece} (wellCut : Piece.WellCut pieces) {before : List Char}
    {tokens : List Token} (read : ofPieces (.behind before) pieces = .ok tokens) :
    Cover before tokens (pieces.flatMap Piece.source) := by
  induction wellCut generalizing before tokens with
  | nil =>
      cases read
      exact .nil
  | @text run rest nonempty plain seam _ induction =>
      obtain ⟨content, rfl⟩ : ∃ content : String, run = content.toList :=
        ⟨String.ofList run, String.toList_ofList.symm⟩
      obtain ⟨token, others, tokenRead, othersRead, rfl⟩ := exists_of_ofPieces_cons read
      cases tokenRead
      rw [Position.after_behind] at othersRead
      rw [String.ofList_toList, List.flatMap_cons]
      refine .text (by simpa using nonempty) plain ?_ (induction othersRead)
      intro next head isText
      cases rest with
      | nil =>
          cases othersRead
          cases head
      | cons follower rest =>
          obtain ⟨first, _, firstRead, _, rfl⟩ := exists_of_ofPieces_cons othersRead
          obtain rfl : first = next := by simpa using head
          exact (seam follower rfl).2 (isText_of_token firstRead isText)
  | @directive marker inner rest closes _ induction =>
      obtain ⟨token, others, tokenRead, othersRead, rfl⟩ := exists_of_ofPieces_cons read
      cases found : marker.read inner with
      | error fault => simp [Piece.token, found] at tokenRead
      | ok directive =>
          simp only [Piece.token, found, Except.ok.injEq] at tokenRead
          subst tokenRead
          obtain rfl := Directive.marker_of_read found
          rw [Position.after_behind] at othersRead
          exact .directive (closes.closesFirst _) found (induction othersRead)
  | unclosed => cases read

theorem ofPieces_append (place : Position) (first second : List Piece) :
    ofPieces place (first ++ second) =
      match ofPieces place first with
      | .error error => .error error
      | .ok tokens =>
          match ofPieces (place.after (first.flatMap Piece.source)) second with
          | .error error => .error error
          | .ok others => .ok (tokens ++ others) := by
  induction first generalizing place with
  | nil =>
      simp only [List.nil_append, ofPieces, List.flatMap_nil, Position.after, List.foldl_nil]
      cases ofPieces place second <;> rfl
  | cons piece rest induction =>
      rw [List.cons_append, ofPieces, ofPieces, induction, List.flatMap_cons,
        Position.after_append]
      cases piece.token place with
      | error error => rfl
      | ok token =>
          cases ofPieces (place.after piece.source) rest with
          | error error => rfl
          | ok tokens =>
              simp only
              cases ofPieces ((place.after piece.source).after (rest.flatMap Piece.source))
                second <;> rfl

/-- Reading that fails has come to a piece that is no token, behind pieces that are. -/
theorem exists_of_ofPieces_error
    {pieces : List Piece} {place : Position} {error : LexError}
    (stopped : ofPieces place pieces = .error error) :
    ∃ first piece rest tokens, pieces = first ++ piece :: rest ∧
      ofPieces place first = .ok tokens ∧
      piece.token (place.after (first.flatMap Piece.source)) = .error error := by
  induction pieces generalizing place with
  | nil => cases stopped
  | cons piece rest induction =>
      rw [ofPieces] at stopped
      split at stopped
      · rename_i failed
        cases stopped
        exact ⟨[], piece, rest, [], rfl, rfl, failed⟩
      · rename_i token read
        split at stopped
        · rename_i restStopped
          cases stopped
          obtain ⟨first, fault, others, tokens, rfl, firstRead, failed⟩ := induction restStopped
          refine ⟨piece :: first, fault, others, token :: tokens, rfl, ?_, ?_⟩
          · rw [ofPieces, read, firstRead]
          · rwa [List.flatMap_cons, Position.after_append]
        · cases stopped

end Token

/-- A text that starts with a directive at fault: it is never closed, or what stands in it is
none. -/
inductive LexError.Faults : LexError → List Char → Prop where
  | unterminated {place : Position} {marker : Marker} {inside : List Char}
      (stays : ¬ marker.closer <:+: inside) :
      Faults (.unterminated place) (marker.opener ++ inside)
  | invalid {fault : Directive.Fault} {place : Position} {marker : Marker}
      {inner later : List Char} (closes : marker.ClosesFirst inner later)
      (unread : marker.read inner = .error fault) :
      Faults (.invalid fault place) (marker.opener ++ inner ++ marker.closer ++ later)

namespace Token

theorem exists_of_token_error
    {piece : Piece} {place : Position} {error : LexError}
    (failed : piece.token place = .error error) :
    (∃ marker inner, piece = .unclosed marker inner ∧ error = .unterminated place) ∨
      ∃ marker inner fault, piece = .directive marker inner ∧
        marker.read inner = .error fault ∧ error = .invalid fault place := by
  cases piece with
  | text run => cases failed
  | unclosed marker inner =>
      cases failed
      exact .inl ⟨marker, inner, rfl, rfl⟩
  | directive marker inner =>
      cases unread : marker.read inner with
      | ok found => simp [Piece.token, unread] at failed
      | error fault =>
          simp only [Piece.token, unread, Except.error.injEq] at failed
          exact .inr ⟨marker, inner, fault, rfl, unread, failed.symm⟩

theorem faults_of_token
    {piece : Piece} {rest : List Piece} (wellCut : Piece.WellCut (piece :: rest))
    {place : Position} {error : LexError} (failed : piece.token place = .error error) :
    error.place = place ∧ error.Faults ((piece :: rest).flatMap Piece.source) := by
  obtain ⟨marker, inner, rfl, rfl⟩ | ⟨marker, inner, fault, rfl, unread, rfl⟩ :=
    exists_of_token_error failed
  · cases wellCut with
    | unclosed stays =>
        rw [List.flatMap_singleton, Piece.source]
        exact ⟨rfl, .unterminated stays⟩
  · cases wellCut with
    | directive closes _ =>
        rw [List.flatMap_cons, Piece.source]
        exact ⟨rfl, .invalid (closes.closesFirst _) unread⟩

/-- A closed directive at fault is found behind what can be read, whatever follows it. -/
theorem read_eq_error_of_directive
    {first rest : List Piece} {marker : Marker} {inner : List Char} {tokens : List Token}
    {error : LexError} (wellCut : Piece.WellCut (first ++ .directive marker inner :: rest))
    (firstRead : ofPieces .start first = .ok tokens)
    (failed : (Piece.directive marker inner).token
      (Position.start.after (first.flatMap Piece.source)) = .error error)
    (later : List Char) {source : String}
    (covered : source.toList =
      first.flatMap Piece.source ++ ((Piece.directive marker inner).source ++ later)) :
    Token.read source = .error error := by
  obtain ⟨firstCut, closed, meets, directiveCut⟩ := wellCut.of_append (List.cons_ne_nil _ _)
  have laterCut : Piece.WellCut (.directive marker inner :: Piece.cut later) := by
    cases directiveCut with
    | directive closes _ => exact .directive closes (Piece.wellCut_cut later)
  have pieces : Piece.cut source.toList = first ++ .directive marker inner :: Piece.cut later := by
    apply Piece.cut_eq_iff.mpr
    constructor
    · exact firstCut.append closed meets laterCut
    · rw [covered, List.flatMap_append, List.flatMap_cons, Piece.cut_source]
  rw [Token.read, pieces, ofPieces_append, firstRead]
  simp only [ofPieces, failed]

theorem cover_of_read
    {source : String} {tokens : List Token} (read : Token.read source = .ok tokens) :
    Cover [] tokens source.toList := by
  rw [Token.read, Position.start_eq_behind] at read
  have cover := cover_of_ofPieces (Piece.wellCut_cut source.toList) read
  rwa [Piece.cut_source] at cover

/-- A template that cannot be read is divided in front of the directive at fault. -/
theorem exists_of_read_error
    {source : String} {error : LexError} (stopped : Token.read source = .error error) :
    ∃ before behind, source = before ++ behind ∧
      error.place = .behind before.toList ∧
      (∃ tokens, Token.read before = .ok tokens) ∧
      error.Faults behind.toList ∧
      ∀ fault place, error = .invalid fault place →
        ∀ more, Token.read (source ++ more) = .error error := by
  have wellCut := Piece.wellCut_cut source.toList
  have whole := Piece.cut_source source.toList
  obtain ⟨first, piece, rest, tokens, pieces, firstRead, failed⟩ :=
    exists_of_ofPieces_error stopped
  rw [pieces] at wellCut whole
  obtain ⟨firstCut, -, -, secondCut⟩ := wellCut.of_append (List.cons_ne_nil _ _)
  obtain ⟨placed, faults⟩ := faults_of_token secondCut failed
  rw [List.flatMap_append] at whole
  refine ⟨String.ofList (first.flatMap Piece.source),
    String.ofList ((piece :: rest).flatMap Piece.source), ?_, ?_, ⟨tokens, ?_⟩, ?_, ?_⟩
  · rw [← String.ofList_append, whole, String.ofList_toList]
  · rw [placed, Position.start_eq_behind, Position.after_behind, String.toList_ofList,
      List.nil_append]
  · rw [Token.read, String.toList_ofList, firstCut.cut_eq, firstRead]
  · rwa [String.toList_ofList]
  · rintro fault place rfl more
    obtain ⟨_, _, _, impossible⟩ | ⟨marker, inner, _, rfl, _, _⟩ := exists_of_token_error failed
    · cases impossible
    · apply read_eq_error_of_directive wellCut firstRead failed
        (rest.flatMap Piece.source ++ more.toList)
      rw [String.toList_append, ← whole, List.flatMap_cons]
      simp only [List.append_assoc]

-- Of three braces the first two open the directive.
example :
    Token.read "é\n\x7b\x7b\x7b .x \x7d\x7d" =
      .error (.invalid (.invalidPath "\x7b .x") { offset := 3, line := 2, column := 1 }) := by
  cbv

/-- The reader has come to an opening marker behind tokens it has read, and a closing marker
follows.  It goes on behind the directive if what stands between the markers spells one, with that
directive as its token, and it fails at the opening marker if not. -/
theorem directive_read_as_spelled
    {source : String} {first rest : List Piece} {marker : Marker} {inner : List Char}
    {tokens : List Token}
    (reached : Piece.cut source.toList = first ++ .directive marker inner :: rest)
    (firstRead : ofPieces .start first = .ok tokens) :
    ∃ before later,
      source.toList = before ++ (marker.opener ++ inner ++ marker.closer ++ later) ∧
      marker.ClosesFirst inner later ∧
      ((∃ found : Directive, found.Spelled marker inner ∧
          (∀ other : Directive, other.Spelled marker inner → other = found) ∧
          Token.read source =
            (ofPieces (.behind (before ++ (marker.opener ++ inner ++ marker.closer))) rest).map
              fun others => tokens ++ found.token (.behind before) :: others) ∨
        (∀ found : Directive, ¬ found.Spelled marker inner) ∧
          ∃ fault, Token.read source = .error (.invalid fault (.behind before))) := by
  have whole := Piece.cut_source source.toList
  have wellCut := Piece.wellCut_cut source.toList
  rw [reached] at whole wellCut
  rw [List.flatMap_append, List.flatMap_cons, Piece.source] at whole
  obtain ⟨-, -, -, directiveCut⟩ := wellCut.of_append (List.cons_ne_nil _ _)
  have closes : marker.ClosesFirst inner (rest.flatMap Piece.source) := by
    cases directiveCut with
    | directive closes _ => exact closes.closesFirst _
  refine ⟨first.flatMap Piece.source, rest.flatMap Piece.source, whole.symm, closes, ?_⟩
  have goesOn := ofPieces_append .start first (.directive marker inner :: rest)
  rw [← reached, firstRead, Position.start_eq_behind, Position.after_behind,
    List.nil_append] at goesOn
  rw [Token.read, Position.start_eq_behind, goesOn]
  simp only [ofPieces, Piece.token, Piece.source, Position.after_behind]
  cases read : marker.read inner with
  | ok found =>
      have spelled := Directive.read_eq_ok_iff.mp read
      refine .inl ⟨found, spelled, fun other => spelled.unique, ?_⟩
      cases ofPieces (.behind (first.flatMap Piece.source ++
        (marker.opener ++ inner ++ marker.closer))) rest <;> rfl
  | error fault =>
      refine .inr ⟨?_, fault, rfl⟩
      intro found spelled
      rw [Directive.read_eq_ok_iff.mpr spelled] at read
      cases read

end Token

theorem Directive.eq_of_token_eq
    {found : Directive} {place other : Position} (directive : Directive)
    (same : directive.token place = found.token other) : found = directive := by
  cases directive <;> cases found <;> simp_all [token]

/-- A loop whose keyword ends at a dot, with blanks at other seams. -/
def openRooms : String :=
  "Hall\x7b% for../.rooms . open|room |%\x7d"

def rawRoom : String :=
  "\x7b\x7b ! room .name\x7d\x7d"

/-- A loop that gives its elements a name of the metadata. -/
def lastRooms : String :=
  "\x7b% for .rooms |last| %\x7d"

theorem cut_openRooms :
    Piece.cut openRooms.toList =
      [.text "Hall".toList] ++ [.directive .block " for../.rooms . open|room |".toList] := by
  cbv

theorem read_openRooms :
    Token.read openRooms =
      .ok [.text "Hall", .opening .loop { hops := 1, segments := ["rooms", "open"] } (some "room")
        { offset := 4, line := 1, column := 5 }] := by
  cbv

theorem cut_rawRoom :
    Piece.cut rawRoom.toList = [] ++ [.directive .value " ! room .name".toList] := by
  cbv

theorem read_rawRoom :
    Token.read rawRoom =
      .ok [.variable { hops := 0, segments := ["room", "name"] } true .start] := by
  cbv

theorem cut_lastRooms :
    Piece.cut lastRooms.toList = [] ++ [.directive .block " for .rooms |last| ".toList] := by
  cbv

theorem read_lastRooms :
    Token.read lastRooms = .error (.invalid (.reservedBinding "last") .start) := by
  cbv

theorem openRooms_spelled :
    ((Directive.loop { hops := 1, segments := ["rooms", "open"] } "room").Spelled .block
        " for../.rooms . open|room |".toList ∧
      Token.read openRooms =
        .ok [.text "Hall", .opening .loop { hops := 1, segments := ["rooms", "open"] } (some "room")
          { offset := 4, line := 1, column := 5 }]) ∧
    ((Directive.variable { hops := 0, segments := ["room", "name"] } true).Spelled .value
        " ! room .name".toList ∧
      Token.read rawRoom =
        .ok [.variable { hops := 0, segments := ["room", "name"] } true .start]) ∧
    (∀ found : Directive, ¬ found.Spelled .block " for .rooms |last| ".toList) ∧
      Token.read lastRooms = .error (.invalid (.reservedBinding "last") .start) := by
  have hallRead : Token.ofPieces .start [.text "Hall".toList] = .ok [.text "Hall"] := by cbv
  refine ⟨⟨?_, read_openRooms⟩, ⟨?_, read_rawRoom⟩, ?_, read_lastRooms⟩
  · obtain ⟨_, _, -, -, ⟨found, spelled, -, goesOn⟩ | ⟨-, _, rejected⟩⟩ :=
      Token.directive_read_as_spelled cut_openRooms hallRead
    · have tokens := Except.ok.inj (read_openRooms.symm.trans goesOn)
      have token := (List.cons.inj (List.cons.inj tokens).2).1
      have same := Directive.eq_of_token_eq
        (.loop { hops := 1, segments := ["rooms", "open"] } "room") token
      exact same ▸ spelled
    · cases read_openRooms.symm.trans rejected
  · obtain ⟨_, _, -, -, ⟨found, spelled, -, goesOn⟩ | ⟨-, _, rejected⟩⟩ :=
      Token.directive_read_as_spelled cut_rawRoom rfl
    · have tokens := Except.ok.inj (read_rawRoom.symm.trans goesOn)
      have token := (List.cons.inj tokens).1
      have same := Directive.eq_of_token_eq
        (.variable { hops := 0, segments := ["room", "name"] } true) token
      exact same ▸ spelled
    · cases read_rawRoom.symm.trans rejected
  · obtain ⟨_, _, -, -, ⟨_, _, -, accepted⟩ | ⟨refused, -⟩⟩ :=
      Token.directive_read_as_spelled cut_lastRooms rfl
    · cases read_lastRooms.symm.trans accepted
    · exact refused

end Stencil
