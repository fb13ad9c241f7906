import Stencil.Proofs.Meaning
import Stencil.Proofs.Printing
import Stencil.Proofs.Truncation
import Stencil.Template

/-!
# Templates one behind the other

Unless a marker arises where they meet, two texts that compile also compile when the second one is
put behind the first.  Only two runs of text can grow together there.  What the whole renders is
what the first template renders and behind that, if the first one does not fail, what the second
one renders.
-/

namespace Stencil

/-- One sequence behind another.  Where two texts meet there may be a single one instead. -/
inductive Joined {τ α : Type} [Append τ] (text : τ → α) : List α → List α → List α → Prop where
  | apart (first second : List α) : Joined text first second (first ++ second)
  | merged (before later : List α) (last next : τ) :
      Joined text (before ++ [text last]) (text next :: later)
        (before ++ text (last ++ next) :: later)

/-- No opening marker arises between two texts. -/
def Marker.Apart (first second : List Char) : Prop :=
  first.getLast? = some '\x7b' → second.head? ≠ some '\x7b' ∧ second.head? ≠ some '%'

theorem Marker.Apart.tail
    {character : Char} {rest second : List Char} (apart : Apart (character :: rest) second) :
    Apart rest second := by
  intro last
  apply apart
  cases rest with
  | nil => cases last
  | cons next rest => simpa using last

theorem Marker.Plain.append
    {first second : List Char} (firstPlain : Plain first) (secondPlain : Plain second)
    (apart : Apart first second) :
    Plain (first ++ second) := by
  induction first with
  | nil => exact secondPlain
  | cons character rest induction =>
      refine Plain.cons ?_ (induction firstPlain.tail apart.tail)
      intro marker starts
      cases rest with
      | nil =>
          cases second with
          | nil => cases marker <;> simp [opener] at starts
          | cons next second =>
              cases marker <;> simp [opener] at starts
              all_goals
                obtain ⟨rfl, rfl⟩ := starts
                simpa using apart rfl
      | cons next rest =>
          have inside : marker.opener <+: character :: next :: rest := by
            apply List.prefix_of_prefix_length_le starts (List.prefix_append _ second)
            cases marker <;> simp [opener]
          exact firstPlain marker inside.isInfix

namespace Piece

theorem getLast?_flatMap_source {run : List Char} (nonempty : run ≠ []) (before : List Piece) :
    ((before ++ [text run]).flatMap source).getLast? = run.getLast? := by
  rw [List.flatMap_append, List.flatMap_singleton, source]
  exact List.getLast?_append_of_ne_nil _ nonempty

/-- A text that starts with a directive starts with a brace. -/
theorem head?_of_not_isText
    {piece : Piece} {rest : List Piece} (directive : ¬ piece.IsText) :
    ((piece :: rest).flatMap source).head? = some '\x7b' := by
  cases piece with
  | text run => exact absurd trivial directive
  | directive marker inner => cases marker <;> rfl
  | unclosed marker inner => cases marker <;> rfl

/-- Two runs that meet are cut as one. -/
theorem wellCut_merged
    {before later : List Piece} {last next : List Char}
    (firstCut : WellCut (before ++ [text last])) (secondCut : WellCut (text next :: later))
    (apart : Marker.Apart last next) :
    WellCut (before ++ text (last ++ next) :: later) := by
  obtain ⟨beforeCut, closed, meets, lastCut⟩ := firstCut.of_append (List.cons_ne_nil _ _)
  have run : WellCut (text (last ++ next) :: later) := by
    cases lastCut with
    | text lastNonempty lastPlain _ _ =>
        cases secondCut with
        | text nonempty plain seam laterCut =>
            refine .text (by simp [nonempty]) (lastPlain.append plain apart) ?_ laterCut
            intro piece head
            rw [List.getLast?_append_of_ne_nil _ nonempty]
            exact seam piece head
  refine beforeCut.append closed ?_ run
  intro earlier isLast
  exact absurd trivial (meets earlier isLast (text last) rfl).2

/-- Where no marker arises, either nothing changes at the seam or two runs meet there. -/
theorem meets_or_exists_of_apart
    {first second : List Piece} (firstCut : WellCut first)
    (apart : Marker.Apart (first.flatMap source) (second.flatMap source)) :
    Meets first second ∨
      ∃ before later last next, first = before ++ [text last] ∧ second = text next :: later ∧
        Marker.Apart last next := by
  by_cases meets : Meets first second
  · exact .inl meets
  · right
    simp only [Meets, not_forall] at meets
    obtain ⟨last, isLast, piece, head, seam⟩ := meets
    obtain ⟨before, rfl⟩ := List.getLast?_eq_some_iff.mp isLast
    obtain ⟨later, rfl⟩ := List.head?_eq_some_iff.mp head
    obtain ⟨-, -, -, lastCut⟩ := firstCut.of_append (List.cons_ne_nil _ _)
    have nonempty : last ≠ [] := by
      cases lastCut with
      | text nonempty _ _ _ => exact nonempty
    rw [Marker.Apart, getLast?_flatMap_source nonempty] at apart
    cases piece with
    | text next =>
        refine ⟨before, later, last, next, rfl, rfl, ?_⟩
        intro brace
        cases next with
        | nil => simp
        | cons character next => exact apart brace
    | directive marker inner =>
        have brace : last.getLast? = some '\x7b' := by simpa [IsText] using seam
        exact absurd (head?_of_not_isText id) (apart brace).1
    | unclosed marker inner =>
        have brace : last.getLast? = some '\x7b' := by simpa [IsText] using seam
        exact absurd (head?_of_not_isText id) (apart brace).1

/-- Behind pieces that are closed the cut starts anew, except that a run goes on. -/
theorem joined_cut
    {first second : List Piece} (firstCut : WellCut first)
    (closed : ∀ piece ∈ first, piece.IsClosed) (secondCut : WellCut second)
    (apart : Marker.Apart (first.flatMap source) (second.flatMap source)) :
    Joined text first second (cut (first.flatMap source ++ second.flatMap source)) := by
  rcases meets_or_exists_of_apart firstCut apart with
    meets | ⟨before, later, last, next, rfl, rfl, runsApart⟩
  · have wellCut := firstCut.append closed meets secondCut
    rw [← List.flatMap_append, wellCut.cut_eq]
    exact .apart first second
  · have wellCut := wellCut_merged firstCut secondCut runsApart
    have covered : (before ++ [text last]).flatMap source ++ (text next :: later).flatMap source =
        (before ++ text (last ++ next) :: later).flatMap source := by
      simp [source]
    rw [covered, wellCut.cut_eq]
    exact .merged before later last next

end Piece

/-- The token of a piece as it would be at the start of a text. -/
def Piece.spelled? : Piece → Option Token
  | .text run => some (.text (String.ofList run))
  | .directive marker inner => (marker.read inner).toOption.map (Directive.token .start)
  | .unclosed _ _ => none

theorem Piece.isClosed_of_map_spelled?
    {pieces : List Piece} {spelled : List Token}
    (spells : pieces.map Piece.spelled? = spelled.map some) :
    ∀ piece ∈ pieces, piece.IsClosed := by
  intro piece member
  have read : piece.spelled? ∈ spelled.map some := by
    rw [← spells]
    exact List.mem_map_of_mem member
  cases piece with
  | text run => trivial
  | directive marker inner => trivial
  | unclosed marker inner => simp [spelled?] at read

namespace Token

theorem unplaced_directive (found : Directive) (place : Position) :
    (found.token place).unplaced = found.token .start := by
  cases found <;> rfl

theorem spelled?_of_token
    {piece : Piece} {place : Position} {token : Token} (read : piece.token place = .ok token) :
    piece.spelled? = some token.unplaced := by
  cases piece with
  | text run =>
      cases read
      rfl
  | unclosed marker inner => cases read
  | directive marker inner =>
      cases found : marker.read inner with
      | error fault => simp [Piece.token, found] at read
      | ok directive =>
          simp only [Piece.token, found, Except.ok.injEq] at read
          subst read
          simp [Piece.spelled?, found, Except.toOption, unplaced_directive]

theorem exists_token_of_spelled?
    {piece : Piece} {spelled : Token} (spells : piece.spelled? = some spelled) (place : Position) :
    ∃ token, piece.token place = .ok token ∧ token.unplaced = spelled := by
  cases piece with
  | text run =>
      cases spells
      exact ⟨_, rfl, rfl⟩
  | unclosed marker inner => cases spells
  | directive marker inner =>
      cases found : marker.read inner with
      | error fault => simp [Piece.spelled?, found, Except.toOption] at spells
      | ok directive =>
          simp only [Piece.spelled?, found, Except.toOption, Option.map_some,
            Option.some.injEq] at spells
          exact ⟨directive.token place, by simp [Piece.token, found],
            by rw [unplaced_directive, spells]⟩

theorem map_spelled?_of_ofPieces
    {place : Position} {pieces : List Piece} {tokens : List Token}
    (read : ofPieces place pieces = .ok tokens) :
    pieces.map Piece.spelled? = (tokens.map unplaced).map some := by
  induction pieces generalizing place tokens with
  | nil =>
      cases read
      rfl
  | cons piece rest induction =>
      obtain ⟨token, others, tokenRead, othersRead, rfl⟩ := exists_of_ofPieces_cons read
      simp [spelled?_of_token tokenRead, induction othersRead]

theorem exists_ofPieces_of_map_spelled?
    {pieces : List Piece} {spelled : List Token}
    (spells : pieces.map Piece.spelled? = spelled.map some) (place : Position) :
    ∃ tokens, ofPieces place pieces = .ok tokens ∧ tokens.map unplaced = spelled := by
  induction pieces generalizing place spelled with
  | nil =>
      obtain rfl : spelled = [] := by simpa using spells.symm
      exact ⟨[], rfl, rfl⟩
  | cons piece rest induction =>
      rw [List.map_cons] at spells
      obtain ⟨first, others, rfl, same, restSpells⟩ := List.map_eq_cons_iff.mp spells.symm
      obtain ⟨token, read, tokenSpelled⟩ := exists_token_of_spelled? same.symm place
      obtain ⟨tokens, restRead, restSpelled⟩ :=
        induction restSpells.symm (place.after piece.source)
      refine ⟨token :: tokens, ?_, by rw [List.map_cons, tokenSpelled, restSpelled]⟩
      rw [ofPieces, read, restRead]

end Token

namespace Node

/-- Where the tokens stand is of no importance to the tree. -/
theorem reads_iff {source : String} {nodes : List (Node Path)} :
    Reads source nodes ↔
      (Piece.cut source.toList).map Piece.spelled? = (tokensAll nodes).map some := by
  constructor
  · rintro ⟨tokens, read, built⟩
    have canonical := Token.allCanonical_of_ofPieces (Piece.wellCut_cut source.toList) read
    rw [Token.map_spelled?_of_ofPieces read, unplaced_of_ofTokens canonical.bound built]
  · intro spells
    obtain ⟨tokens, read, flat⟩ := Token.exists_ofPieces_of_map_spelled? spells .start
    exact ⟨tokens, read, ofTokens_of_unplaced flat⟩

theorem exists_of_tokensAll_eq_cons
    {nodes : List (Node Path)} {content : String} {rest : List Token}
    (flat : tokensAll nodes = .text content :: rest) :
    ∃ later, nodes = .text content :: later ∧ tokensAll later = rest := by
  cases nodes with
  | nil => simp [tokensAll] at flat
  | cons node later =>
      obtain ⟨first, others, spelled, isText⟩ := exists_tokens_eq_cons node
      rw [tokensAll] at flat
      obtain rfl : first = .text content := by
        rw [spelled] at flat
        exact (List.cons.inj flat).1
      cases node with
      | text own =>
          simp only [tokens, List.singleton_append, List.cons.injEq, Token.text.injEq] at flat
          obtain ⟨rfl, rfl⟩ := flat
          exact ⟨later, rfl, rfl⟩
      | «variable» | loop | conditional => exact (isText.mp trivial).elim

/-- A node has a last token, which is a text if the node is one. -/
theorem exists_tokens_eq_concat (node : Node Path) :
    ∃ rest last, tokens node = rest ++ [last] ∧ (last.IsText ↔ node.IsText) := by
  cases node with
  | text content => exact ⟨[], _, rfl, Iff.rfl⟩
  | «variable» path raw => exact ⟨[], _, rfl, Iff.rfl⟩
  | loop path binding body => exact ⟨_ :: tokensAll body, _, rfl, Iff.rfl⟩
  | conditional path thenBranch elseBranch =>
      refine ⟨.opening .conditional path none .start ::
        (tokensAll thenBranch ++ elseTokens elseBranch), .closing .conditional .start, ?_, Iff.rfl⟩
      rw [tokens_conditional, List.cons_append, List.append_assoc]

theorem exists_of_tokensAll_eq_concat
    {nodes : List (Node Path)} {content : String} {rest : List Token}
    (flat : tokensAll nodes = rest ++ [.text content]) :
    ∃ before, nodes = before ++ [.text content] ∧ tokensAll before = rest := by
  rcases nodes.eq_nil_or_concat with rfl | ⟨before, node, rfl⟩
  · simp [tokensAll] at flat
  · obtain ⟨others, last, spelled, isText⟩ := exists_tokens_eq_concat node
    rw [List.concat_eq_append] at flat ⊢
    rw [tokensAll_append, tokensAll_singleton] at flat
    obtain rfl : last = .text content := by
      rw [spelled, ← List.append_assoc] at flat
      exact (List.append_inj' flat rfl).2 |> List.singleton_inj.mp
    cases node with
    | text own =>
        obtain ⟨rfl, same⟩ := List.append_inj' flat rfl
        obtain rfl : own = content := by simpa [tokens] using same
        exact ⟨before, rfl, rfl⟩
    | «variable» | loop | conditional => exact (isText.mp trivial).elim

/-- Unless a marker arises between them, a text behind another one has the tree of the first and
that of the second, one behind the other. -/
theorem exists_joined_reads
    {first second : String} {firstNodes secondNodes : List (Node Path)}
    (firstReads : Reads first firstNodes) (secondReads : Reads second secondNodes)
    (apart : Marker.Apart first.toList second.toList) :
    ∃ nodes, Joined Node.text firstNodes secondNodes nodes ∧ Reads (first ++ second) nodes := by
  have firstCut := Piece.wellCut_cut first.toList
  have secondCut := Piece.wellCut_cut second.toList
  rw [reads_iff] at firstReads secondReads
  have closed := Piece.isClosed_of_map_spelled? firstReads
  simp only [reads_iff, String.toList_append]
  rw [← Piece.cut_source first.toList, ← Piece.cut_source second.toList] at apart
  have joined := Piece.joined_cut firstCut closed secondCut apart
  rw [Piece.cut_source, Piece.cut_source] at joined
  generalize Piece.cut first.toList = firstPieces at firstReads joined
  generalize Piece.cut second.toList = secondPieces at secondReads joined
  generalize Piece.cut (first.toList ++ second.toList) = pieces at joined
  cases joined with
  | apart =>
      refine ⟨firstNodes ++ secondNodes, .apart _ _, ?_⟩
      rw [List.map_append, firstReads, secondReads, tokensAll_append, List.map_append]
  | merged before later last next =>
      rw [List.map_append] at firstReads
      obtain ⟨beforeTokens, _, firstFlat, beforeReads, lastReads⟩ :=
        List.map_eq_append_iff.mp firstReads.symm
      rw [List.map_cons] at secondReads
      obtain ⟨_, laterTokens, secondFlat, nextReads, laterReads⟩ :=
        List.map_eq_cons_iff.mp secondReads.symm
      obtain rfl := Option.some.inj nextReads
      obtain ⟨_, rfl, lastSpelled⟩ := List.map_eq_singleton_iff.mp lastReads
      obtain rfl := Option.some.inj lastSpelled
      obtain ⟨beforeNodes, rfl, rfl⟩ := exists_of_tokensAll_eq_concat firstFlat
      obtain ⟨laterNodes, rfl, rfl⟩ := exists_of_tokensAll_eq_cons secondFlat
      refine ⟨_, .merged beforeNodes laterNodes (String.ofList last) (String.ofList next), ?_⟩
      rw [List.map_append, List.map_cons, ← beforeReads, ← laterReads, tokensAll_append, tokensAll,
        tokens, List.map_append, List.map_append, ← String.ofList_append]
      rfl

end Node

theorem Rendering.emit_append (first second : String) :
    emit (first ++ second) = emit first >>= fun _ => emit second := by
  funext sink
  have whole := writes_emit (first ++ second) sink
  have parts := (writes_emit first).bind_of_ok (writes_emit second) sink
  have same : String.join [first ++ second] = String.join ([first] ++ [second]) := by simp
  rw [whole, parts, Sink.writeAll_congr same]

namespace Node

theorem typeErrorsAll_joined
    {first second whole : List (Node Path)} (joined : Joined Node.text first second whole)
    (scope : Scope) :
    typeErrorsAll scope whole = typeErrorsAll scope first ++ typeErrorsAll scope second := by
  cases joined with
  | apart => exact typeErrorsAll_append scope first second
  | merged before later last next =>
      simp [typeErrorsAll_append, typeErrorsAll, typeErrors]

theorem markAll_joined
    {first second whole : List (Node Path)} (joined : Joined Node.text first second whole)
    (scope : Scope) :
    Joined Node.text (markAll scope first) (markAll scope second) (markAll scope whole) := by
  cases joined with
  | apart =>
      rw [markAll_append]
      exact .apart _ _
  | merged before later last next =>
      simp only [markAll_append, markAll, mark]
      exact .merged _ _ last next

variable {δ : Type} [Data δ]

theorem renderAll_joined
    {first second whole : List (Node Reference)} (joined : Joined Node.text first second whole)
    (stack : Stack δ) :
    renderAll whole stack = renderAll first stack >>= fun _ => renderAll second stack := by
  cases joined with
  | apart => exact renderAll_append first second stack
  | merged before later last next =>
      simp only [renderAll_append, renderAll_cons, renderAll_nil, render_text,
        Rendering.emit_append, bind_assoc, pure_bind]

end Node

namespace Template

variable {δ : Type} [Data δ]

theorem compile_eq_ok_iff {source : String} {schema : Schema} {template : Template} :
    compile source schema = .ok template ↔
      ∃ nodes, Node.Reads source nodes ∧ check nodes schema = .ok template := by
  constructor
  · intro compiled
    unfold compile at compiled
    split at compiled
    · cases compiled
    · rename_i tokens read
      split at compiled
      · cases compiled
      · rename_i nodes built
        split at compiled
        · cases compiled
        · rename_i accepted checked
          cases compiled
          exact ⟨nodes, ⟨tokens, read, built⟩, checked⟩
  · rintro ⟨nodes, ⟨tokens, read, built⟩, checked⟩
    simp only [compile, read, built, checked]

/-- What a template writes to a sink without a limit, and how it ends. -/
def outcome (template : Template) (data : δ) : Outcome :=
  let (result, sink) := template.renderTo data .unlimited
  { text := sink.text, result }

theorem renderTo_of_unlimited (template : Template) (data : δ) (written : String) :
    template.renderTo data { text := written, room := none } =
      ((template.outcome data).result,
        { text := written ++ (template.outcome data).text, room := none }) := by
  obtain ⟨contents, result, writes, -⟩ := Node.fixed_renderAll template.nodes (Stack.ofRoot data)
  simp only [outcome, renderTo_of_writes writes, Sink.unlimited, Sink.writeAll_of_unlimited,
    concluded, String.empty_append]

theorem renderTo_joined
    {first second whole : Template} (joined : Joined Node.text first.nodes second.nodes whole.nodes)
    (data : δ) (sink : Sink) :
    whole.renderTo data sink =
      match first.renderTo data sink with
      | (.ok (), middle) => second.renderTo data middle
      | (.error error, after) => (.error error, after) := by
  simp only [renderTo, Node.renderAll_joined joined, Rendering.bind_apply]
  cases Node.renderAll first.nodes (Stack.ofRoot data) sink <;> rfl

theorem outcome_joined
    {first second whole : Template} (joined : Joined Node.text first.nodes second.nodes whole.nodes)
    (data : δ) :
    whole.outcome data = (first.outcome data).andThen (second.outcome data) := by
  have start := renderTo_of_unlimited first data ""
  rw [String.empty_append] at start
  have runs := renderTo_joined joined data { text := "", room := none }
  rw [start] at runs
  rw [outcome, Sink.unlimited, runs, Outcome.andThen]
  cases (first.outcome data).result with
  | ok =>
      simp only
      rw [renderTo_of_unlimited second data (first.outcome data).text]
  | error error => rfl

/-- A text without opening markers is a tree of its own. -/
theorem exists_reads_of_plain {source : String} (plain : Marker.Plain source.toList) :
    ∃ nodes, Node.Reads source nodes ∧ (nodes = [.text source] ∨ nodes = [] ∧ source = "") := by
  by_cases empty : source = ""
  · subst empty
    exact ⟨[], ⟨[], by simp [Token.read, Piece.cut, Token.ofPieces], rfl⟩, .inr ⟨rfl, rfl⟩⟩
  · have nonempty : source.toList ≠ [] := by simpa using empty
    have wellCut : Piece.WellCut [.text source.toList] := .text nonempty plain (by simp) .nil
    have pieces := wellCut.cut_eq
    rw [List.flatMap_singleton, Piece.source] at pieces
    refine ⟨[.text source], Node.reads_iff.mpr ?_, .inl rfl⟩
    rw [pieces]
    simp [Piece.spelled?, Node.tokensAll, Node.tokens]

theorem exists_compile_of_plain
    {source : String} (plain : Marker.Plain source.toList) (schema : Schema) :
    ∃ template, compile source schema = .ok template ∧
      ∀ {δ : Type} [Data δ] (data : δ), template.render data = .ok source := by
  obtain ⟨nodes, reads, rfl | ⟨rfl, rfl⟩⟩ := exists_reads_of_plain plain
  · refine ⟨_, compile_eq_ok_iff.mpr ⟨_, reads, rfl⟩, ?_⟩
    intro δ _ data
    have emitted : Rendering.emit source .unlimited = .ok () { text := source, room := none } := by
      simp [Rendering.emit_of_unlimited, Sink.unlimited]
    simp only [render, renderTo, Node.markAll, Node.mark, Node.renderAll_cons, Node.renderAll_nil,
      Node.render_text, Rendering.bind_of_ok emitted]
    rfl
  · refine ⟨_, compile_eq_ok_iff.mpr ⟨_, reads, rfl⟩, ?_⟩
    intro δ _ data
    simp only [render, renderTo, Node.markAll, Node.renderAll_nil]
    rfl

/-- Texts that compile can be put one behind the other, unless an opening marker arises between
them.  The whole renders what the first one renders, and behind that what the second one renders
if the first one does not fail.  A text without opening markers renders itself. -/
theorem compile_append :
    (∀ (first second : String) (schema : Schema) (firstTemplate secondTemplate : Template),
      compile first schema = .ok firstTemplate → compile second schema = .ok secondTemplate →
      (first.toList.getLast? = some '\x7b' →
        second.toList.head? ≠ some '\x7b' ∧ second.toList.head? ≠ some '%') →
      ∃ whole, compile (first ++ second) schema = .ok whole ∧
        ∀ {δ : Type} [Data δ] (data : δ),
          whole.outcome data = (firstTemplate.outcome data).andThen (secondTemplate.outcome data) ∧
            ∀ sink, whole.renderTo data sink =
              match firstTemplate.renderTo data sink with
              | (.ok (), middle) => secondTemplate.renderTo data middle
              | (.error error, after) => (.error error, after)) ∧
      ∀ source : String, Marker.Plain source.toList → ∀ schema,
        ∃ template, compile source schema = .ok template ∧
          ∀ {δ : Type} [Data δ] (data : δ), template.render data = .ok source := by
  constructor
  · intro first second schema firstTemplate secondTemplate firstCompiled secondCompiled apart
    obtain ⟨firstNodes, firstReads, firstChecked⟩ := compile_eq_ok_iff.mp firstCompiled
    obtain ⟨secondNodes, secondReads, secondChecked⟩ := compile_eq_ok_iff.mp secondCompiled
    obtain ⟨nodes, joined, reads⟩ := Node.exists_joined_reads firstReads secondReads apart
    obtain ⟨firstTyped, rfl⟩ := check_eq_ok_iff.mp firstChecked
    obtain ⟨secondTyped, rfl⟩ := check_eq_ok_iff.mp secondChecked
    have typed : Node.typeErrorsAll (Scope.ofSchema schema) nodes = [] := by
      rw [Node.typeErrorsAll_joined joined, firstTyped, secondTyped, List.nil_append]
    have marked := Node.markAll_joined joined (Scope.ofSchema schema)
    refine ⟨_, compile_eq_ok_iff.mpr ⟨nodes, reads, check_eq_ok_iff.mpr ⟨typed, rfl⟩⟩, ?_⟩
    intro δ _ data
    exact ⟨outcome_joined marked data, renderTo_joined marked data⟩
  · intro source plain schema
    exact exists_compile_of_plain plain schema

end Template

def guestsSchema : Schema where
  fields := [("guests", .list .scalar), ("host", .scalar)]

def guestsSource : String :=
  "\x7b% for .guests |g| %\x7d\x7b\x7b g \x7d\x7d, \x7b% endfor %\x7d\x7b"

def guestsTemplate : Template where
  nodes :=
    [ .loop { hops := 0, steps := [⟨"guests", false⟩] } "g"
        [.variable { hops := 0, steps := [⟨"g", false⟩] } false, .text ", "],
      .text "\x7b" ]
  schema := guestsSchema

def hostSource : String :=
  "\x7d \x7b\x7b! .host \x7d\x7d!"

def hostTemplate : Template where
  nodes := [.text "\x7d ", .variable { hops := 0, steps := [⟨"host", false⟩] } true, .text "!"]
  schema := guestsSchema

/-- There are guests, but there is no host. -/
def guestsData : Json :=
  .object [("guests", .array [.string "A & B", .bool true])]

theorem guests_compile : Template.compile guestsSource guestsSchema = .ok guestsTemplate := by
  cbv

theorem host_compiles : Template.compile hostSource guestsSchema = .ok hostTemplate := by
  cbv

/-- The first text ends in a brace, but the second one does not start with another. -/
theorem guests_before_host :
    Template.compile guestsSource guestsSchema = .ok guestsTemplate ∧
      Template.compile hostSource guestsSchema = .ok hostTemplate ∧
      guestsSource.toList.getLast? = some '\x7b' ∧ hostSource.toList.head? = some '\x7d' ∧
      (∃ whole, Template.compile (guestsSource ++ hostSource) guestsSchema = .ok whole ∧
        whole.outcome guestsData =
          { text := "A &amp; B, true, \x7b\x7d "
            result := .error (.contractViolation { hops := 0, segments := ["host"] }
              (.missing ".host")) }) ∧
      Marker.Plain "%\x7d \x7b \x7b".toList ∧
      ∃ plain, Template.compile "%\x7d \x7b \x7b" guestsSchema = .ok plain ∧
        plain.render guestsData = .ok "%\x7d \x7b \x7b" := by
  have head : hostSource.toList.head? = some '\x7d' := by decide
  obtain ⟨whole, compiled, renders⟩ :=
    Template.compile_append.1 _ _ _ _ _ guests_compile host_compiles
      (fun _ => by rw [head]; decide)
  have plain := Marker.plain_splitAtOpener "%\x7d \x7b \x7b".toList
  obtain ⟨template, plainCompiled, plainRenders⟩ :=
    Template.compile_append.2 "%\x7d \x7b \x7b" plain guestsSchema
  refine ⟨guests_compile, host_compiles, by decide, head, ⟨whole, compiled, ?_⟩, plain, template,
    plainCompiled, plainRenders guestsData⟩
  rw [(renders guestsData).1]
  cbv

end Stencil
