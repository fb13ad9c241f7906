import Stencil.Proofs.Counterparts

/-!
# Renaming the binding of a loop

The binding of a loop may be given another name, together with the paths in the body that start at
it.  Checking and rendering look names up in the same order, so one argument covers both: a path
that is renamed finds the loop under its new name, and every other path finds what it found before.
-/

namespace Stencil

/-- A path inside of loops with the given bindings, innermost first, that starts at the binding of
a loop around all of them: it stays inside of that loop, and none of the loops that it does not
leave has the same binding. -/
def Path.StartsOutside (path : Path) (bindings : List String) (binding : String) : Prop :=
  path.segments.head? = some binding ∧ path.hops ≤ bindings.length ∧
    binding ∉ bindings.drop path.hops

instance (path : Path) (bindings : List String) (binding : String) :
    Decidable (path.StartsOutside bindings binding) :=
  inferInstanceAs (Decidable (_ ∧ _ ∧ _))

/-- The path with another name for the binding of the loop around all loops with the given
bindings, if it starts there. -/
def Path.rename (binding fresh : String) (bindings : List String) (path : Path) : Path :=
  if path.StartsOutside bindings binding then
    { path with segments := fresh :: path.segments.tail }
  else path

namespace Node

mutual

/-- A node inside of loops with the given bindings, innermost first, with another name for the
binding of a loop around all of them. -/
def rename (binding fresh : String) (bindings : List String) : Node Path → Node Path
  | .text content => .text content
  | .variable path raw => .variable (path.rename binding fresh bindings) raw
  | .loop path inner body =>
      .loop (path.rename binding fresh bindings) inner
        (renameAll binding fresh (inner :: bindings) body)
  | .conditional path thenBranch elseBranch =>
      .conditional (path.rename binding fresh bindings)
        (renameAll binding fresh bindings thenBranch)
        (match elseBranch with
        | none => none
        | some nodes => some (renameAll binding fresh bindings nodes))

def renameAll (binding fresh : String) (bindings : List String) :
    List (Node Path) → List (Node Path)
  | [] => []
  | node :: rest => rename binding fresh bindings node :: renameAll binding fresh bindings rest

end

theorem rename_conditional
    (binding fresh : String) (names : List String) (path : Path) (thenBranch : List (Node Path))
    (elseBranch : Option (List (Node Path))) :
    rename binding fresh names (.conditional path thenBranch elseBranch) =
      .conditional (path.rename binding fresh names) (renameAll binding fresh names thenBranch)
        (elseBranch.map (renameAll binding fresh names)) := by
  cases elseBranch <;> simp [rename]

end Node

@[simp] theorem Path.hops_rename
    (path : Path) (binding fresh : String) (bindings : List String) :
    (path.rename binding fresh bindings).hops = path.hops := by
  unfold rename
  split <;> rfl

/-- What a loop offers to a search for names: its binding, and what stands for the reserved
names. -/
structure Offer (α : Type) where
  binding : String
  element : α
  metadata : Metadata → α

namespace Offer

variable {α : Type}

/-- Searches loops for a name, innermost first.  What no loop offers is looked up outside. -/
def search (outside : String → α) (name : String) : List (Offer α) → α
  | [] => outside name
  | innermost :: outer =>
      if innermost.binding = name then innermost.element
      else
        match Metadata.ofName? name with
        | some metadata => innermost.metadata metadata
        | none => search outside name outer

theorem search_append_of_free
    (outside : String → α) {name : String} (plain : Metadata.isReserved name = false)
    {inner : List (Offer α)} (free : name ∉ inner.map binding) (outer : List (Offer α)) :
    search outside name (inner ++ outer) = search outside name outer := by
  have noMetadata : Metadata.ofName? name = none := by
    simpa [Metadata.isReserved] using plain
  induction inner with
  | nil => rfl
  | cons innermost others induction =>
      rw [List.map_cons, List.mem_cons, not_or] at free
      rw [List.cons_append, search, if_neg (Ne.symm free.1), noMetadata]
      exact induction free.2

theorem search_append_congr
    (outside : String → α) {name : String} {inner outer others : List (Offer α)}
    (same : name ∉ inner.map binding → search outside name outer = search outside name others) :
    search outside name (inner ++ outer) = search outside name (inner ++ others) := by
  induction inner with
  | nil => exact same List.not_mem_nil
  | cons innermost further induction =>
      rw [List.cons_append, List.cons_append, search, search]
      by_cases bound : innermost.binding = name
      · rw [if_pos bound, if_pos bound]
      · rw [if_neg bound, if_neg bound]
        cases Metadata.ofName? name with
        | some metadata => rfl
        | none =>
            apply induction
            intro free
            apply same
            rw [List.map_cons, List.mem_cons, not_or]
            exact ⟨Ne.symm bound, free⟩

/-- Once a loop has another name for its binding, a path that is renamed with it finds what it
found before. -/
theorem parallel_rename
    (outside : String → α) (offer : Offer α) {fresh : String} {inner : List (Offer α)}
    (plain : Metadata.isReserved offer.binding = false)
    (freshPlain : Metadata.isReserved fresh = false) (unbound : fresh ∉ inner.map binding)
    (outer : List (Offer α)) {path : Path} (unused : path.segments.head? ≠ some fresh) :
    Path.Parallel
      (fun first second =>
        search outside first ((inner ++ offer :: outer).drop path.hops) =
          search outside second
            ((inner ++ { offer with binding := fresh } :: outer).drop path.hops))
      path.segments (path.rename offer.binding fresh (inner.map binding)).segments := by
  by_cases starts : path.StartsOutside (inner.map binding) offer.binding
  · obtain ⟨first, inRange, free⟩ := starts
    obtain ⟨rest, segments⟩ := List.head?_eq_some_iff.mp first
    have renamed : (path.rename offer.binding fresh (inner.map binding)).segments =
        fresh :: rest := by
      rw [Path.rename, if_pos ⟨first, inRange, free⟩, segments]
      rfl
    rw [List.length_map] at inRange
    rw [← List.map_drop] at free
    have stillUnbound : fresh ∉ (inner.drop path.hops).map binding := fun member =>
      unbound (List.map_subset binding (List.drop_subset path.hops inner) member)
    rw [segments, renamed]
    apply Path.Parallel.named
    rw [List.drop_append_of_le_length inRange, List.drop_append_of_le_length inRange,
      search_append_of_free outside plain free,
      search_append_of_free outside freshPlain stillUnbound, search, search, if_pos rfl,
      if_pos rfl]
  · rw [Path.rename, if_neg starts]
    cases segments : path.segments with
    | nil => exact .unnamed
    | cons first rest =>
        apply Path.Parallel.named
        by_cases inRange : path.hops ≤ inner.length
        · rw [List.drop_append_of_le_length inRange, List.drop_append_of_le_length inRange]
          apply search_append_congr
          intro free
          have notBinding : offer.binding ≠ first := by
            intro same
            apply starts
            refine ⟨by rw [segments, same, List.head?_cons], by rwa [List.length_map], ?_⟩
            rwa [← List.map_drop, same]
          have notFresh : fresh ≠ first := by
            intro same
            apply unused
            rw [segments, same, List.head?_cons]
          rw [search, search, if_neg notBinding, if_neg notFresh]
        · -- The path leaves the loop as well, and is not renamed.
          have left : inner.length + 1 ≤ path.hops := Nat.lt_of_not_le inRange
          have leaves (innermost : Offer α) :
              (inner ++ innermost :: outer).drop path.hops =
                outer.drop (path.hops - (inner.length + 1)) := by
            rw [List.append_cons, List.drop_append, List.drop_eq_nil_of_le (by simpa using left),
              List.nil_append, List.length_append, List.length_singleton]
          rw [leaves, leaves]

end Offer

def LoopScope.offer (loop : LoopScope) : Offer (Option (Option Kind)) where
  binding := loop.binding
  element := some loop.element
  metadata := fun _ => some (some .scalar)

def Frame.offer {δ : Type} (frame : Frame δ) : Offer (Found δ) where
  binding := frame.binding
  element := .value frame.element
  metadata := frame.metadata

/-- A scope searches its loops, and the fields of the schema outside of them. -/
theorem Scope.findIn_eq_search (fields : List (String × Kind)) (name : String)
    (loops : List LoopScope) :
    findIn fields name loops =
      Offer.search (fun name => (Entries.find? name fields).map some) name
        (loops.map LoopScope.offer) := by
  induction loops with
  | nil => rfl
  | cons innermost outer induction =>
      rw [findIn, List.map_cons, Offer.search, induction, Metadata.isReserved]
      cases Metadata.ofName? name <;> rfl

/-- A stack searches the running loops, and the fields of the data outside of them. -/
theorem Stack.findIn_eq_search
    {δ : Type} [Data δ] (root : δ) (name : String) (frames : List (Frame δ)) :
    findIn root name frames =
      Offer.search (fun name => .ofOption (Data.child root name)) name
        (frames.map Frame.offer) := by
  induction frames with
  | nil => rfl
  | cons innermost outer induction =>
      simp only [findIn, List.map_cons, Offer.search, induction, eq_comm (a := name)]
      rfl

theorem Scope.find_leave_eq_search (scope : Scope) (hops : Nat) (name : String) :
    (scope.leave hops).find name =
      Offer.search (fun name => (Entries.find? name scope.fields).map some) name
        ((scope.loops.map LoopScope.offer).drop hops) := by
  rw [find, findIn_eq_search, leave, List.map_drop]

theorem Stack.findIn_drop_eq_search
    {δ : Type} [Data δ] (stack : Stack δ) (hops : Nat) (name : String) :
    findIn stack.root name (stack.frames.drop hops) =
      Offer.search (fun name => .ofOption (Data.child stack.root name)) name
        ((stack.frames.map Frame.offer).drop hops) := by
  rw [findIn_eq_search, List.map_drop]

/-- A path and what becomes of it when the binding of a loop around loops with the given bindings
is renamed, the new name being free here. -/
structure Path.RenamesTo (binding fresh : String) (bindings : List String)
    (path renamed : Path) : Prop where
  renamed : renamed = path.rename binding fresh bindings
  unused : path.segments.head? ≠ some fresh
  unbound : fresh ∉ bindings

section

variable {binding fresh : String} (plain : Metadata.isReserved binding = false)
  (freshPlain : Metadata.isReserved fresh = false)
include plain freshPlain

theorem Scope.mirrors_rename (outer : Scope) (element : Option Kind) :
    (outer.enter binding element).Mirrors (Path.RenamesTo binding fresh)
      (outer.enter fresh element) := by
  rintro loops path _ ⟨rfl, unused, unbound⟩
  have names : (loops.map LoopScope.offer).map Offer.binding = loops.map LoopScope.binding := by
    rw [List.map_map]
    rfl
  apply resolve_alike
  · simp [inside, enter]
  · simp only [find_leave_eq_search, Path.hops_rename, inside, enter, List.map_append,
      List.map_cons, ← names]
    exact Offer.parallel_rename _ (LoopScope.offer { binding, element }) plain freshPlain
      (names ▸ unbound) _ unused

theorem Stack.mirrors_rename
    {δ : Type} [Data δ] (outer : Stack δ) (element : δ) (index length : Nat) :
    (outer.enter binding element index length).Mirrors (Path.RenamesTo binding fresh)
      (outer.enter fresh element index length) := by
  rintro frames path _ ⟨rfl, unused, unbound⟩
  have names : (frames.map Frame.offer).map Offer.binding = frames.map Frame.binding := by
    rw [List.map_map]
    rfl
  apply resolve_eq_ok_iff_of_parallel
  · simp [inside, enter]
  · simp only [findIn_drop_eq_search, Path.hops_rename, ← names]
    simp only [inside, enter, List.map_append, List.map_cons]
    exact Offer.parallel_rename _ (Frame.offer { binding, element, index, length }) plain freshPlain
      (names ▸ unbound) _ unused

end

theorem Node.counterparts_renameAll
    {binding fresh : String} {names : List String} {nodes : List (Node Path)}
    (outside : fresh ∉ names) (unbound : fresh ∉ bindingsAll nodes)
    (unused : ∀ path ∈ pathsAll nodes, path.segments.head? ≠ some fresh) :
    Counterparts (Path.RenamesTo binding fresh) names nodes
      (renameAll binding fresh names nodes) := by
  induction nodes using sequence_induction generalizing names with
  | nil =>
      rw [renameAll]
      exact .nil
  | text content rest later =>
      rw [renameAll, rename]
      exact .text (later outside unbound unused)
  | «variable» path raw rest later =>
      simp only [pathsAll, paths, List.cons_append, List.nil_append,
        List.forall_mem_cons] at unused
      rw [renameAll, rename]
      exact .variable ⟨rfl, unused.1, outside⟩ (later outside unbound unused.2)
  | loop path inner body rest inside later =>
      simp only [pathsAll, paths, List.cons_append, List.forall_mem_cons,
        List.forall_mem_append] at unused
      simp only [bindingsAll, bindings, List.cons_append, List.mem_cons, List.mem_append,
        not_or] at unbound
      have outsideBody : fresh ∉ inner :: names := by
        rw [List.mem_cons, not_or]
        exact ⟨unbound.1, outside⟩
      rw [renameAll, rename]
      exact .loop ⟨rfl, unused.1, outside⟩ (inside outsideBody unbound.2.1 unused.2.1)
        (later outside unbound.2.2 unused.2.2)
  | conditional path thenBranch elseBranch rest first second later =>
      simp only [pathsAll, paths_conditional, List.cons_append, List.append_assoc,
        List.forall_mem_cons, List.forall_mem_append] at unused
      simp only [bindingsAll, bindings_conditional, List.mem_append, not_or] at unbound
      have otherwise := second outside unbound.1.2 unused.2.2.1
      rw [renameAll, rename_conditional]
      refine .conditional ⟨rfl, unused.1, outside⟩ (first outside unbound.1.1 unused.2.1) ?_
        (later outside unbound.2 unused.2.2.2)
      cases elseBranch with
      | none => exact .nil
      | some nodes => exact otherwise

/-- The binding of a loop is a matter of the loop alone.  Where a loop of an accepted tree and the
paths that start at its binding are given a name that is neither reserved nor used in its body, the
tree is still accepted, and it renders the same texts. -/
theorem Template.exists_check_of_rename
    {surroundings : Surroundings Path} {path : Path} {binding fresh : String}
    {body : List (Node Path)} {schema : Schema} {template : Template}
    (accepted : Template.check (surroundings.fill [.loop path binding body]) schema = .ok template)
    (plain : Metadata.isReserved binding = false) (freshPlain : Metadata.isReserved fresh = false)
    (unbound : fresh ∉ Node.bindingsAll body)
    (unused : ∀ inner ∈ Node.pathsAll body, inner.segments.head? ≠ some fresh) :
    ∃ renamed,
      Template.check (surroundings.fill [.loop path fresh (Node.renameAll binding fresh [] body)])
        schema = .ok renamed ∧
      ∀ {δ : Type} [Data δ] (data : δ) content,
        template.render data = .ok content ↔ renamed.render data = .ok content := by
  obtain ⟨correct, rfl⟩ := check_eq_ok_iff.mp accepted
  let scope := surroundings.scope (Scope.ofSchema schema)
  have counterparts : Node.Counterparts (Path.RenamesTo binding fresh) [] body
      (Node.renameAll binding fresh [] body) :=
    Node.counterparts_renameAll List.not_mem_nil unbound unused
  have mirrors := scope.mirrors_rename plain freshPlain (scope.elementKind path)
  have renamedCorrect :
      Node.typeErrorsAll (Scope.ofSchema schema)
        (surroundings.fill [.loop path fresh (Node.renameAll binding fresh [] body)]) = [] := by
    apply Surroundings.typeErrorsAll_fill_eq_nil correct
    intro loopCorrect
    simp only [Node.typeErrorsAll, Node.typeErrors, List.append_eq_nil_iff] at loopCorrect ⊢
    have body := counterparts.typeErrorsAll_eq_nil_iff mirrors [] rfl
    exact ⟨⟨loopCorrect.1.1, body.mp loopCorrect.1.2⟩, trivial⟩
  refine ⟨_, check_eq_ok_iff.mpr ⟨renamedCorrect, rfl⟩, ?_⟩
  intro δ _ data content
  apply render_eq_ok_iff_of_matches
  rw [Surroundings.markAll_fill, Surroundings.markAll_fill]
  apply Surroundings.matches_fill
  intro stack
  simp only [Node.markAll, Node.mark, Node.renderAll_cons]
  apply Rendering.Matches.bind
  · apply Node.matches_loop fun found => Iff.rfl
    intro item index length
    have running := stack.mirrors_rename plain freshPlain item index length
    exact counterparts.matches_renderAll mirrors running [] [] rfl rfl
  · intro done
    exact .refl _

/-- Tables of rows of texts. -/
def tablesSchema : Schema where
  fields := [("tables", .list (.list (.list .scalar)))]

/-- The loop over all tables, with a place in its body. -/
def tablesLoop : Surroundings Path :=
  .inBody [] { hops := 0, segments := ["tables"] } "row" (.between [] [.text ";"]) []

/-- The loop over the texts of a row, in the body of a loop over rows. -/
def rowLoop (row : String) : Node Path :=
  .loop { hops := 0, segments := [row] } "row"
    [ .variable { hops := 0, segments := ["row"] } false,
      .variable { hops := 1, segments := ["index"] } false,
      .conditional { hops := 1, segments := [row] } [.text "+"] none,
      .conditional { hops := 2, segments := ["row"] } [.text "!"] none ]

def tablesTemplate : Template where
  nodes :=
    [ .loop { hops := 0, steps := [⟨"tables", false⟩] } "row"
        [ .loop { hops := 0, steps := [⟨"row", false⟩] } "row"
            [ .loop { hops := 0, steps := [⟨"row", false⟩] } "row"
                [ .variable { hops := 0, steps := [⟨"row", false⟩] } false,
                  .variable { hops := 1, steps := [⟨"index", false⟩] } false,
                  .conditional { hops := 1, steps := [⟨"row", false⟩] } [.text "+"] none,
                  .conditional { hops := 2, steps := [⟨"row", false⟩] } [.text "!"] none ] ],
          .text ";" ] ]
  schema := tablesSchema

def tablesData : Json :=
  .object
    [ ("tables", .array
        [ .array [.array [.string "a", .string "b"], .array [.string "c"]],
          .array [] ]) ]

/-- All three loops bind the same name.  With another name for the one in the middle, two of the
four paths that start at this name go along with it. -/
theorem tables_render_renamed :
    let path : Path := { hops := 0, segments := ["row"] }
    Template.check (tablesLoop.fill [.loop path "row" [rowLoop "row"]]) tablesSchema =
        .ok tablesTemplate ∧
      Metadata.isReserved "row" = false ∧ Metadata.isReserved "line" = false ∧
      "line" ∉ Node.bindingsAll [rowLoop "row"] ∧
      (∀ inner ∈ Node.pathsAll [rowLoop "row"], inner.segments.head? ≠ some "line") ∧
      ∃ renamed,
        Template.check (tablesLoop.fill [.loop path "line" [rowLoop "line"]]) tablesSchema =
          .ok renamed ∧
        renamed.render tablesData = .ok "a0+!b0+!c1+!;;" := by
  intro path
  have accepted : Template.check (tablesLoop.fill [.loop path "row" [rowLoop "row"]])
      tablesSchema = .ok tablesTemplate := by rfl
  have unbound : "line" ∉ Node.bindingsAll [rowLoop "row"] := by decide
  have unused : ∀ inner ∈ Node.pathsAll [rowLoop "row"],
      inner.segments.head? ≠ some "line" := by decide
  obtain ⟨renamed, renamedAccepted, sameText⟩ :=
    Template.exists_check_of_rename accepted (by decide) (by decide) unbound unused
  refine ⟨accepted, by decide, by decide, unbound, unused, renamed, renamedAccepted, ?_⟩
  apply (sameText tablesData _).mp
  cbv

end Stencil
