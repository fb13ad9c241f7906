import Mathlib
import Stencil.Proofs.Flattening
import Stencil.Proofs.Spelling

/-!
# Printing and reading

A tree is printed in a canonical form.  A tree is canonical if reading could have given it: paths
and bindings can be written, and texts are cut the way a template is cut.  Reading the printed form
of a canonical tree gives the tree back, and every tree that is read is canonical.
-/

namespace Stencil

/-- A text that a template is cut into.  Only at the end of the template may it end in a brace. -/
structure IsRun (isLast : Bool) (content : String) : Prop where
  nonempty : content ≠ ""
  plain : Marker.Plain content.toList
  noBrace : isLast = false → content.toList.getLast? ≠ some '\x7b'

namespace Node

mutual

def written : Node Path → String
  | .text content => content
  | .variable path false => "\x7b\x7b " ++ path.text ++ " \x7d\x7d"
  | .variable path true => "\x7b\x7b! " ++ path.text ++ " \x7d\x7d"
  | .loop path binding body =>
      "\x7b% for " ++ path.text ++ " |" ++ binding ++ "| %\x7d" ++ writtenAll body ++
        "\x7b% endfor %\x7d"
  | .conditional path thenBranch elseBranch =>
      "\x7b% if " ++ path.text ++ " %\x7d" ++ writtenAll thenBranch ++
        (match elseBranch with
        | none => ""
        | some nodes => "\x7b% else %\x7d" ++ writtenAll nodes) ++
        "\x7b% endif %\x7d"

def writtenAll : List (Node Path) → String
  | [] => ""
  | node :: rest => written node ++ writtenAll rest

end

def IsText : Node Path → Prop
  | .text _ => True
  | _ => False

mutual

/-- A node that reading could have given, at the end of a template or not.  The branches of a block
are not at the end, because the directive that closes it follows. -/
def Canonical : Bool → Node Path → Prop
  | isLast, .text content => IsRun isLast content
  | _, .variable path _ => path.IsCanonical
  | _, .loop path binding body =>
      path.IsCanonical ∧ IsBinding binding ∧ AllCanonical false body
  | _, .conditional path thenBranch elseBranch =>
      path.IsCanonical ∧ AllCanonical false thenBranch ∧
        (match elseBranch with
        | none => True
        | some nodes => AllCanonical false nodes)

/-- A sequence of such nodes.  No text follows another one. -/
def AllCanonical : Bool → List (Node Path) → Prop
  | _, [] => True
  | isLast, node :: rest =>
      Canonical (isLast && rest.isEmpty) node ∧
        (node.IsText → ∀ next ∈ rest.head?, ¬ next.IsText) ∧ AllCanonical isLast rest

end

/-- Reading a template gives a sequence of nodes. -/
def Reads (source : String) (nodes : List (Node Path)) : Prop :=
  ∃ tokens, Token.read source = .ok tokens ∧ Node.ofTokens tokens = .ok nodes

end Node

namespace Token

def IsText : Token → Prop
  | .text _ => True
  | _ => False

def Canonical (isLast : Bool) : Token → Prop
  | .text content => IsRun isLast content
  | .variable path _ _ => path.IsCanonical
  | .opening .loop path binding _ =>
      path.IsCanonical ∧ ∃ name, binding = some name ∧ IsBinding name
  | .opening .conditional path binding _ => path.IsCanonical ∧ binding = none
  | .otherwise _ => True
  | .closing _ _ => True

def AllCanonical : List Token → Prop
  | [] => True
  | token :: rest =>
      token.Canonical rest.isEmpty ∧
        (token.IsText → ∀ next ∈ rest.head?, ¬ next.IsText) ∧ AllCanonical rest

@[simp] theorem isText_unplaced {token : Token} : token.unplaced.IsText ↔ token.IsText := by
  cases token <;> rfl

@[simp] theorem canonical_unplaced {token : Token} {isLast : Bool} :
    token.unplaced.Canonical isLast ↔ token.Canonical isLast := by
  cases token with
  | opening kind path binding place => cases kind <;> rfl
  | text | «variable» | otherwise | closing => rfl

theorem allCanonical_map_unplaced {tokens : List Token} :
    AllCanonical (tokens.map unplaced) ↔ AllCanonical tokens := by
  induction tokens with
  | nil => rfl
  | cons token rest induction =>
      cases rest with
      | nil => simp [AllCanonical]
      | cons next rest => simpa [AllCanonical] using fun _ _ => induction

theorem Canonical.bound {token : Token} {isLast : Bool} (canonical : token.Canonical isLast) :
    token.Bound := by
  cases token with
  | opening kind path binding place =>
      cases kind with
      | loop =>
          obtain ⟨-, name, rfl, -⟩ := canonical
          rfl
      | conditional => exact canonical.2
  | text | «variable» | otherwise | closing => trivial

theorem AllCanonical.bound {tokens : List Token} (canonical : AllCanonical tokens) :
    ∀ token ∈ tokens, token.Bound := by
  induction tokens with
  | nil => simp
  | cons token rest induction =>
      obtain ⟨first, -, later⟩ := canonical
      exact List.forall_mem_cons.mpr ⟨first.bound, induction later⟩

end Token

namespace Node

/-- A node has a first token, which is a text if the node is one. -/
theorem exists_tokens_eq_cons (node : Node Path) :
    ∃ first rest, tokens node = first :: rest ∧ (first.IsText ↔ node.IsText) := by
  cases node with
  | text content => exact ⟨_, _, rfl, Iff.rfl⟩
  | «variable» path raw => exact ⟨_, _, rfl, Iff.rfl⟩
  | loop path binding body => exact ⟨_, _, rfl, Iff.rfl⟩
  | conditional path thenBranch elseBranch => exact ⟨_, _, tokens_conditional _ _ _, Iff.rfl⟩

theorem isEmpty_tokensAll_append (nodes : List (Node Path)) (rest : List Token) :
    (tokensAll nodes ++ rest).isEmpty = (rest.isEmpty && nodes.isEmpty) := by
  cases nodes with
  | nil => simp [tokensAll]
  | cons node others =>
      obtain ⟨first, behind, spelled, -⟩ := exists_tokens_eq_cons node
      simp [tokensAll, spelled]

theorem head?_tokensAll_append
    (nodes : List (Node Path)) {rest : List Token}
    (directive : ∀ next ∈ rest.head?, ¬ next.IsText) :
    (∀ next ∈ (tokensAll nodes ++ rest).head?, ¬ next.IsText) ↔
      ∀ next ∈ nodes.head?, ¬ next.IsText := by
  cases nodes with
  | nil => simpa [tokensAll] using directive
  | cons node others =>
      obtain ⟨first, behind, spelled, same⟩ := exists_tokens_eq_cons node
      simp [tokensAll, spelled, same]

/-- Nodes are canonical in front of a directive or at the end if their tokens are. -/
theorem allCanonical_tokensAll_append
    (nodes : List (Node Path)) {rest : List Token}
    (directive : ∀ next ∈ rest.head?, ¬ next.IsText) :
    Token.AllCanonical (tokensAll nodes ++ rest) ↔
      AllCanonical rest.isEmpty nodes ∧ Token.AllCanonical rest := by
  induction nodes using sequence_induction generalizing rest with
  | nil => simp [tokensAll, AllCanonical]
  | text content others induction =>
      have follows := head?_tokensAll_append others directive
      rw [tokensAll, tokens, List.singleton_append, List.cons_append, Token.AllCanonical,
        isEmpty_tokensAll_append, follows, induction directive, AllCanonical, Canonical,
        Token.Canonical]
      simp [Token.IsText, IsText, and_assoc]
  | «variable» path raw others induction =>
      rw [tokensAll, tokens, List.singleton_append, List.cons_append, Token.AllCanonical,
        induction directive, AllCanonical, Canonical, Token.Canonical]
      simp [Token.IsText, IsText, and_assoc]
  | loop path binding body others inside induction =>
      have closing : ∀ next ∈
          (.closing .loop .start :: (tokensAll others ++ rest) : List Token).head?,
          ¬ next.IsText := by
        simp [Token.IsText]
      have inside := inside closing
      simp only [tokensAll, tokens, List.cons_append, List.append_assoc, List.nil_append,
        Token.AllCanonical, inside, induction directive, AllCanonical, Canonical, Token.Canonical]
      simp [Token.IsText, IsText, and_assoc]
  | conditional path thenBranch elseBranch others first second induction =>
      have closing : ∀ next ∈
          (.closing .conditional .start :: (tokensAll others ++ rest) : List Token).head?,
          ¬ next.IsText := by
        simp [Token.IsText]
      have otherwise : ∀ next ∈ (.otherwise .start :: (tokensAll (elseBranch.getD []) ++
          .closing .conditional .start :: (tokensAll others ++ rest)) : List Token).head?,
          ¬ next.IsText := by
        simp [Token.IsText]
      cases elseBranch with
      | none =>
          simp only [tokensAll, tokens, List.cons_append, List.append_assoc, List.nil_append,
            Token.AllCanonical, first closing, induction directive, AllCanonical, Canonical,
            Token.Canonical]
          simp [Token.IsText, IsText, and_assoc]
      | some nodes =>
          simp only [Option.getD_some] at second otherwise
          simp only [tokensAll, tokens, List.cons_append, List.append_assoc, List.nil_append,
            Token.AllCanonical, first otherwise, second closing, induction directive,
            AllCanonical, Canonical, Token.Canonical]
          simp [Token.IsText, IsText, and_assoc]

end Node

def Directive.piece (directive : Directive) : Piece :=
  .directive directive.marker directive.inner.toList

namespace Token

def piece : Token → Piece
  | .text content => .text content.toList
  | .variable path raw _ => (Directive.variable path raw).piece
  | .opening .loop path binding _ => (Directive.loop path (binding.getD "")).piece
  | .opening .conditional path _ _ => (Directive.conditional path).piece
  | .otherwise _ => Directive.otherwise.piece
  | .closing kind _ => (Directive.close kind).piece

@[simp] theorem isText_piece {token : Token} : token.piece.IsText ↔ token.IsText := by
  cases token with
  | opening kind path binding place => cases kind <;> rfl
  | text | «variable» | otherwise | closing => rfl

/-- A canonical token other than a text is that of a directive that can be written. -/
theorem Canonical.exists_directive
    {token : Token} {isLast : Bool} (canonical : token.Canonical isLast)
    (directive : ¬ token.IsText) :
    ∃ found : Directive, found.IsCanonical ∧ token.piece = found.piece ∧
      ∀ place, (found.token place).unplaced = token.unplaced := by
  cases token with
  | text content => exact absurd trivial directive
  | «variable» path raw place => exact ⟨.variable path raw, canonical, rfl, fun _ => rfl⟩
  | opening kind path binding place =>
      cases kind with
      | loop =>
          obtain ⟨written, name, rfl, named⟩ := canonical
          exact ⟨.loop path name, ⟨written, named⟩, rfl, fun _ => rfl⟩
      | conditional =>
          obtain ⟨written, rfl⟩ := canonical
          exact ⟨.conditional path, written, rfl, fun _ => rfl⟩
  | otherwise place => exact ⟨.otherwise, trivial, rfl, fun _ => rfl⟩
  | closing kind place => exact ⟨.close kind, trivial, rfl, fun _ => rfl⟩

theorem AllCanonical.wellCut {tokens : List Token} (canonical : AllCanonical tokens) :
    Piece.WellCut (tokens.map piece) := by
  induction tokens with
  | nil => exact .nil
  | cons token rest induction =>
      obtain ⟨first, apart, later⟩ := canonical
      by_cases isText : token.IsText
      · cases token with
        | text content =>
            refine .text (by simpa using first.nonempty) first.plain ?_ (induction later)
            intro next head
            cases rest with
            | nil => cases head
            | cons follower rest =>
                obtain rfl : follower.piece = next := by simpa using head
                exact ⟨first.noBrace rfl, by simpa using apart trivial follower rfl⟩
        | «variable» | opening | otherwise | closing => exact isText.elim
      · obtain ⟨directive, written, spelled, -⟩ := first.exists_directive isText
        rw [List.map_cons, spelled]
        exact .directive
          (Marker.closesAfter_of_not_mem (Directive.brace_not_mem_inner written) _)
          (induction later)

/-- A canonical token is read from its piece, at whatever place. -/
theorem Canonical.exists_token
    {token : Token} {isLast : Bool} (canonical : token.Canonical isLast) (place : Position) :
    ∃ actual, token.piece.token place = .ok actual ∧ actual.unplaced = token.unplaced := by
  by_cases isText : token.IsText
  · cases token with
    | text content => exact ⟨.text content, by simp [piece, Piece.token], rfl⟩
    | «variable» | opening | otherwise | closing => exact isText.elim
  · obtain ⟨directive, written, spelled, same⟩ := canonical.exists_directive isText
    refine ⟨directive.token place, ?_, same place⟩
    simp [spelled, Directive.piece, Piece.token, Directive.read_inner written]

theorem AllCanonical.exists_ofPieces
    {tokens : List Token} (canonical : AllCanonical tokens) (place : Position) :
    ∃ actual, ofPieces place (tokens.map piece) = .ok actual ∧
      actual.map unplaced = tokens.map unplaced := by
  induction tokens generalizing place with
  | nil => exact ⟨[], rfl, rfl⟩
  | cons token rest induction =>
      obtain ⟨first, -, later⟩ := canonical
      obtain ⟨found, read, same⟩ := first.exists_token place
      obtain ⟨others, restRead, restSame⟩ := induction later (place.after token.piece.source)
      refine ⟨found :: others, ?_, by simp [same, restSame]⟩
      rw [List.map_cons, ofPieces, read, restRead]

/-- What canonical tokens are written as is read back. -/
theorem AllCanonical.exists_read
    {tokens : List Token} (canonical : AllCanonical tokens) {source : String}
    (written : source.toList = (tokens.map piece).flatMap Piece.source) :
    ∃ actual, Token.read source = .ok actual ∧ actual.map unplaced = tokens.map unplaced := by
  rw [Token.read, written, canonical.wellCut.cut_eq]
  exact canonical.exists_ofPieces .start

theorem canonical_of_directive
    {marker : Marker} {inner : List Char} {place : Position} {token : Token}
    (read : (Piece.directive marker inner).token place = .ok token) (isLast : Bool) :
    token.Canonical isLast ∧ ¬ token.IsText := by
  cases found : marker.read inner with
  | error fault => simp [Piece.token, found] at read
  | ok directive =>
      simp only [Piece.token, found, Except.ok.injEq] at read
      subst read
      have canonical := Directive.isCanonical_of_read found
      cases directive with
      | «variable» path raw => exact ⟨canonical, id⟩
      | loop path binding => exact ⟨⟨canonical.1, binding, rfl, canonical.2⟩, id⟩
      | conditional path => exact ⟨⟨canonical, rfl⟩, id⟩
      | otherwise => exact ⟨trivial, id⟩
      | close kind => exact ⟨trivial, id⟩

theorem exists_of_ofPieces_cons
    {place : Position} {piece : Piece} {rest : List Piece} {tokens : List Token}
    (read : ofPieces place (piece :: rest) = .ok tokens) :
    ∃ token others, piece.token place = .ok token ∧
      ofPieces (place.after piece.source) rest = .ok others ∧ tokens = token :: others := by
  rw [ofPieces] at read
  split at read
  · cases read
  · rename_i token tokenRead
    split at read
    · cases read
    · rename_i others othersRead
      cases read
      exact ⟨token, others, tokenRead, othersRead, rfl⟩

/-- A token that is a text comes from a run of text. -/
theorem isText_of_token
    {place : Position} {piece : Piece} {token : Token} (read : piece.token place = .ok token)
    (isText : token.IsText) :
    piece.IsText := by
  cases piece with
  | text run => trivial
  | directive marker inner => exact absurd isText (canonical_of_directive read true).2
  | unclosed marker inner => cases read

/-- The tokens of pieces that are cut well are canonical. -/
theorem allCanonical_of_ofPieces
    {pieces : List Piece} (wellCut : Piece.WellCut pieces) {place : Position}
    {tokens : List Token} (read : ofPieces place pieces = .ok tokens) :
    AllCanonical tokens := by
  induction wellCut generalizing place tokens with
  | nil =>
      cases read
      trivial
  | @text run rest nonempty plain seam _ induction =>
      obtain ⟨token, others, tokenRead, othersRead, rfl⟩ := exists_of_ofPieces_cons read
      cases tokenRead
      have later := induction othersRead
      cases rest with
      | nil =>
          cases othersRead
          refine ⟨⟨by simpa using nonempty, by simpa using plain, by simp⟩, by simp, trivial⟩
      | cons next rest =>
          obtain ⟨noBrace, notText⟩ := seam next rfl
          obtain ⟨follower, _, followerRead, _, rfl⟩ := exists_of_ofPieces_cons othersRead
          refine ⟨⟨by simpa using nonempty, by simpa using plain, by simpa using noBrace⟩, ?_,
            later⟩
          intro _ head same isText
          obtain rfl : follower = head := by simpa using same
          exact notText (isText_of_token followerRead isText)
  | directive _ _ induction =>
      obtain ⟨token, others, tokenRead, othersRead, rfl⟩ := exists_of_ofPieces_cons read
      obtain ⟨canonical, directive⟩ := canonical_of_directive tokenRead others.isEmpty
      exact ⟨canonical, fun isText => absurd isText directive, induction othersRead⟩
  | unclosed => cases read

end Token

namespace Node

theorem toList_writtenAll (nodes : List (Node Path)) :
    (writtenAll nodes).toList = ((tokensAll nodes).map Token.piece).flatMap Piece.source := by
  induction nodes using sequence_induction with
  | nil => rfl
  | text content rest induction =>
      simp [writtenAll, written, tokensAll, tokens, Token.piece, Piece.source, induction]
  | «variable» path raw rest induction =>
      cases raw <;>
        simp [writtenAll, written, tokensAll, tokens, Token.piece, Directive.piece, Piece.source,
          Directive.marker, Directive.inner, Marker.opener, Marker.closer, induction]
  | loop path binding body rest inside induction =>
      simp [writtenAll, written, tokensAll, tokens, Token.piece, Directive.piece, Piece.source,
        Directive.marker, Directive.inner, Marker.opener, Marker.closer, BlockKind.keyword, inside,
        induction]
  | conditional path thenBranch elseBranch rest first second induction =>
      cases elseBranch <;>
        simp_all [writtenAll, written, tokensAll, tokens, Token.piece, Directive.piece,
          Piece.source, Directive.marker, Directive.inner, Marker.opener, Marker.closer,
          BlockKind.keyword]

theorem allCanonical_tokensAll_iff {nodes : List (Node Path)} :
    Token.AllCanonical (tokensAll nodes) ↔ AllCanonical true nodes := by
  have split := @allCanonical_tokensAll_append nodes [] (by simp)
  simpa [Token.AllCanonical] using split

theorem reads_written
    {nodes : List (Node Path)} (canonical : AllCanonical true nodes) :
    Reads (writtenAll nodes) nodes := by
  have tokensCanonical := allCanonical_tokensAll_iff.mpr canonical
  obtain ⟨tokens, read, same⟩ := tokensCanonical.exists_read (toList_writtenAll nodes)
  rw [map_unplaced_tokensAll] at same
  exact ⟨tokens, read, ofTokens_of_unplaced same⟩

theorem canonical_of_reads
    {source : String} {nodes : List (Node Path)} (reads : Reads source nodes) :
    AllCanonical true nodes := by
  obtain ⟨tokens, read, built⟩ := reads
  have canonical := Token.allCanonical_of_ofPieces (Piece.wellCut_cut source.toList) read
  have flat := unplaced_of_ofTokens canonical.bound built
  rw [← Token.allCanonical_map_unplaced, flat] at canonical
  exact allCanonical_tokensAll_iff.mp canonical

/-- Every canonical tree is read from its printed form, and every tree that is read from a
template is canonical, so that printing it and reading it again changes nothing. -/
theorem reading_undoes_printing :
    (∀ nodes, AllCanonical true nodes → Reads (writtenAll nodes) nodes) ∧
      ∀ source nodes, Reads source nodes →
        AllCanonical true nodes ∧ Reads (writtenAll nodes) nodes := by
  constructor
  · intro nodes canonical
    exact reads_written canonical
  · intro source nodes reads
    have canonical := canonical_of_reads reads
    exact ⟨canonical, reads_written canonical⟩

end Node

def rowsNodes : List (Node Path) :=
  [.text "Rows: ",
   .loop { hops := 0, segments := ["table", "rows"] } "row"
     [.conditional { hops := 1, segments := ["notes"] }
        [.variable { hops := 2, segments := ["title"] } true, .text "\x7d\x7b -"] (some []),
      .variable { hops := 0, segments := ["row"] } false],
   .conditional { hops := 0, segments := ["more"] } [.text "..."] none,
   .text "\x7b"]

/-- The tree above, but not as it is printed. -/
def rowsSource : String :=
  "Rows: \x7b%for table.rows|row|%\x7d\x7b%if../notes%\x7d\x7b\x7b!../../title\x7d\x7d\x7d\x7b -" ++
    "\x7b%else%\x7d\x7b%endif%\x7d\x7b\x7b row \x7d\x7d\x7b%endfor%\x7d" ++
    "\x7b%\n if . more %\x7d...\x7b% endif %\x7d\x7b"

theorem rows_read_back :
    (Node.AllCanonical true rowsNodes ∧ Node.Reads (Node.writtenAll rowsNodes) rowsNodes) ∧
      Node.Reads rowsSource rowsNodes ∧
        Node.AllCanonical true rowsNodes ∧ Node.Reads (Node.writtenAll rowsNodes) rowsNodes := by
  have table : Path.IsCanonical { hops := 0, segments := ["table", "rows"] } :=
    ⟨by decide, by decide⟩
  have notes : Path.IsCanonical { hops := 1, segments := ["notes"] } := ⟨by decide, by decide⟩
  have title : Path.IsCanonical { hops := 2, segments := ["title"] } := ⟨by decide, by decide⟩
  have row : Path.IsCanonical { hops := 0, segments := ["row"] } := ⟨by decide, by decide⟩
  have more : Path.IsCanonical { hops := 0, segments := ["more"] } := ⟨by decide, by decide⟩
  have binding : IsBinding "row" := ⟨by decide, by decide⟩
  have start : IsRun false "Rows: " :=
    ⟨by decide, Marker.plain_splitAtOpener "Rows: ".toList, by decide⟩
  have dash : IsRun false "\x7d\x7b -" :=
    ⟨by decide, Marker.plain_splitAtOpener "\x7d\x7b -".toList, by decide⟩
  have dots : IsRun false "..." :=
    ⟨by decide, Marker.plain_splitAtOpener "...".toList, by decide⟩
  have brace : IsRun true "\x7b" :=
    ⟨by decide, Marker.plain_splitAtOpener "\x7b".toList, by decide⟩
  have canonical : Node.AllCanonical true rowsNodes := by
    simp [rowsNodes, Node.AllCanonical, Node.Canonical, Node.IsText, *]
  have reads : Node.Reads rowsSource rowsNodes := ⟨_, by cbv, rfl⟩
  exact ⟨⟨canonical, Node.reading_undoes_printing.1 rowsNodes canonical⟩, reads,
    Node.reading_undoes_printing.2 rowsSource rowsNodes reads⟩

end Stencil
