import Stencil.Proofs.Alternatives
import Stencil.Template

/-!
# Marks of a check

A check of nodes that were checked before replaces all of their marks, provided that every path has
a segment: each path is then found in its scope, which no loop with an unknown list is part of.  A
path without segments is neither found nor reported, and neither are the paths that start at the
binding of a loop over it.
-/

namespace Stencil

/-- A draft at its place. -/
structure Site where
  draft : Draft
  /-- The loops around the draft, innermost first. -/
  loops : List Enclosing

namespace Node

mutual

/-- The drafts in a node, in the order of the text. -/
def sites (loops : List Enclosing) : Node Draft → List Site
  | .text _ => []
  | .variable draft _ => [{ draft, loops }]
  | .loop draft binding body =>
      { draft, loops } :: sitesAll ({ path := draft.path, binding } :: loops) body
  | .conditional draft thenBranch elseBranch =>
      { draft, loops } :: (sitesAll loops thenBranch ++
        (match elseBranch with
        | none => []
        | some nodes => sitesAll loops nodes))

/-- The drafts in a sequence of nodes, in the order of the text. -/
def sitesAll (loops : List Enclosing) : List (Node Draft) → List Site
  | [] => []
  | node :: rest => sites loops node ++ sitesAll loops rest

end

end Node

namespace Site

/-- A path within reach of its place, with one mark for each of its segments, which tells whether
the schema lets the kind at this segment be absent. -/
structure Complete (schema : Schema) (site : Site) : Prop where
  named : site.draft.path.segments ≠ []
  inRange : site.draft.path.hops ≤ site.loops.length
  counted : site.draft.marks.length = site.draft.path.segments.length
  marked : ∀ index < site.draft.path.segments.length, ∃ kind mark,
    schema.Resolves site.loops (site.draft.path.upTo (index + 1)) kind ∧
      site.draft.marks[index]? = some mark ∧
      (mark = true ↔ ∃ inner, kind = .optional inner)

def Found (schema : Schema) (site : Site) : Prop :=
  ∃ kind marks, (Scope.within schema site.loops).resolve site.draft.path = .found kind marks

def remark (schema : Schema) (site : Site) : Site :=
  { site with draft := (Scope.within schema site.loops).remark site.draft }

end Site

namespace Scope

@[simp] theorem path_remark (scope : Scope) (draft : Draft) :
    (scope.remark draft).path = draft.path := by
  unfold remark
  split <;> rfl

theorem remark_of_found
    {scope : Scope} {draft : Draft} {kind : Kind} {marks : List Bool}
    (found : scope.resolve draft.path = .found kind marks) :
    scope.remark draft = { draft with marks } := by
  rw [remark, found]

end Scope

theorem Site.Found.complete_remark {schema : Schema} {site : Site} (found : site.Found schema) :
    (site.remark schema).Complete schema := by
  obtain ⟨kind, marks, resolved⟩ := found
  obtain ⟨counted, marked⟩ := Scope.marks_of_resolve_within resolved
  rw [remark, Scope.remark_of_found resolved]
  cases Scope.resolve_eq_iff.mp resolved with
  | declared inRange segments _ _ =>
      rw [Scope.length_loops_within] at inRange
      refine ⟨by simp [segments], inRange, counted, ?_⟩
      intro index bound
      obtain ⟨kind, resolves, mark⟩ := marked index bound
      exact ⟨kind, _, resolves, mark, Kind.isOptional_iff⟩

theorem Scope.Known.exists_found
    {scope : Scope} (known : scope.Known) {use : Use} {path : Path} (named : path.segments ≠ [])
    (correct : (scope.error? use path).toList = []) :
    ∃ kind marks, scope.resolve path = .found kind marks := by
  rw [Scope.error?] at correct
  cases resolved : scope.resolve path with
  | found kind marks => exact ⟨kind, marks, rfl⟩
  | unknown => exact absurd resolved (known.resolve_ne_unknown named)
  | failed error => simp [resolved] at correct

namespace Node

theorem remark_conditional
    (scope : Scope) (draft : Draft) (thenBranch : List (Node Draft))
    (elseBranch : Option (List (Node Draft))) :
    remark scope (.conditional draft thenBranch elseBranch) =
      .conditional (scope.remark draft) (remarkAll scope thenBranch)
        (elseBranch.map (remarkAll scope)) := by
  cases elseBranch <;> simp [remark]

theorem getD_map_remarkAll (scope : Scope) (elseBranch : Option (List (Node Draft))) :
    (elseBranch.map (remarkAll scope)).getD [] = remarkAll scope (elseBranch.getD []) := by
  cases elseBranch <;> rfl

theorem sites_conditional
    (loops : List Enclosing) (draft : Draft) (thenBranch : List (Node Draft))
    (elseBranch : Option (List (Node Draft))) :
    sites loops (.conditional draft thenBranch elseBranch) =
      { draft, loops } ::
        (sitesAll loops thenBranch ++ sitesAll loops (elseBranch.getD [])) := by
  cases elseBranch <;> simp [sites, sitesAll]

theorem map_draft_sitesAll (loops : List Enclosing) (nodes : List (Node Draft)) :
    (sitesAll loops nodes).map Site.draft = pathsAll nodes := by
  induction nodes using sequence_induction generalizing loops with
  | nil => rfl
  | text content rest later => exact later loops
  | «variable» draft raw rest later => simp [sitesAll, sites, pathsAll, paths, later]
  | loop draft binding body rest inside later =>
      simp [sitesAll, sites, pathsAll, paths, inside, later]
  | conditional draft thenBranch elseBranch rest inThen inElse later =>
      simp [sitesAll, sites_conditional, pathsAll, paths_conditional, inThen, inElse, later]

/-- Each draft is marked in the scope of its own loops. -/
theorem sitesAll_remarkAll
    (schema : Schema) (loops : List Enclosing) (nodes : List (Node Draft)) :
    sitesAll loops (remarkAll (Scope.within schema loops) nodes) =
      (sitesAll loops nodes).map (Site.remark schema) := by
  induction nodes using sequence_induction generalizing loops with
  | nil => rfl
  | text content rest later => exact later loops
  | «variable» draft raw rest later =>
      simp [remarkAll, remark, sitesAll, sites, later, Site.remark]
  | loop draft binding body rest inside later =>
      have entered := inside ({ path := draft.path, binding } :: loops)
      rw [Scope.within] at entered
      simp [remarkAll, remark, sitesAll, sites, entered, later, Site.remark]
  | conditional draft thenBranch elseBranch rest inThen inElse later =>
      simp [remarkAll, remark_conditional, sitesAll, sites_conditional, getD_map_remarkAll, inThen,
        inElse, later, Site.remark]

/-- In a tree without errors whose paths have segments each path is found. -/
theorem found_of_no_errors
    {schema : Schema} {loops : List Enclosing} {nodes : List (Node Draft)}
    (known : (Scope.within schema loops).Known)
    (named : ∀ draft ∈ pathsAll nodes, draft.path.segments ≠ [])
    (correct : typeErrorsAll (Scope.within schema loops) (mapAll Draft.path nodes) = []) :
    ∀ site ∈ sitesAll loops nodes, site.Found schema := by
  induction nodes using sequence_induction generalizing loops with
  | nil => simp [sitesAll]
  | text content rest later =>
      exact later known (by simpa [pathsAll, paths] using named)
        (by simpa [mapAll, map, typeErrorsAll, typeErrors] using correct)
  | «variable» draft raw rest later =>
      simp only [pathsAll, paths, List.cons_append, List.nil_append,
        List.forall_mem_cons] at named
      simp only [mapAll, map, typeErrorsAll, typeErrors, List.append_eq_nil_iff,
        Scope.variableErrors_eq_error?] at correct
      simp only [sitesAll, sites, List.singleton_append, List.forall_mem_cons]
      exact ⟨known.exists_found named.1 correct.1, later known named.2 correct.2⟩
  | loop draft binding body rest inside later =>
      simp only [pathsAll, paths, List.cons_append, List.forall_mem_cons,
        List.forall_mem_append] at named
      simp only [mapAll, map, typeErrorsAll, typeErrors, List.append_eq_nil_iff] at correct
      obtain ⟨_, element, _, _, elementKind⟩ := loop_of_no_errors known named.1 correct.1.1
      rw [Scope.loopErrors_eq_error?] at correct
      have entered : (Scope.within schema ({ path := draft.path, binding } :: loops)).Known := by
        rw [Scope.within, elementKind]
        exact known.enter binding element
      simp only [sitesAll, sites, List.cons_append, List.forall_mem_cons, List.forall_mem_append]
      exact ⟨known.exists_found named.1 correct.1.1, inside entered named.2.1 correct.1.2,
        later known named.2.2 correct.2⟩
  | conditional draft thenBranch elseBranch rest inThen inElse later =>
      simp only [pathsAll, paths_conditional, List.cons_append, List.append_assoc,
        List.forall_mem_cons, List.forall_mem_append] at named
      simp only [mapAll, map_conditional, typeErrorsAll, typeErrors_conditional, getD_map_mapAll,
        List.append_eq_nil_iff, Scope.conditionErrors_eq_error?] at correct
      simp only [sitesAll, sites_conditional, List.cons_append, List.append_assoc,
        List.forall_mem_cons, List.forall_mem_append]
      exact ⟨known.exists_found named.1 correct.1.1.1, inThen known named.2.1 correct.1.1.2,
        inElse known named.2.2.1 correct.1.2, later known named.2.2.2 correct.2⟩

theorem remark_ofPath {schema : Schema} {loops : List Enclosing} {draft : Draft}
    (found : Site.Found schema { draft, loops }) :
    (Scope.within schema loops).remark (.ofPath draft.path) =
      (Scope.within schema loops).remark draft := by
  obtain ⟨kind, marks, resolved⟩ := found
  rw [Scope.remark_of_found resolved, @Scope.remark_of_found _ (.ofPath _) _ _ resolved]
  rfl

/-- Where each path is found nothing is left of earlier marks. -/
theorem remarkAll_ofPath
    {schema : Schema} {loops : List Enclosing} {nodes : List (Node Draft)}
    (found : ∀ site ∈ sitesAll loops nodes, site.Found schema) :
    remarkAll (Scope.within schema loops)
        (mapAll (fun draft => Draft.ofPath draft.path) nodes) =
      remarkAll (Scope.within schema loops) nodes := by
  induction nodes using sequence_induction generalizing loops with
  | nil => rfl
  | text content rest later =>
      simp only [mapAll, map, remarkAll, remark, later found]
  | «variable» draft raw rest later =>
      simp only [sitesAll, sites, List.singleton_append, List.forall_mem_cons] at found
      simp only [mapAll, map, remarkAll, remark, remark_ofPath found.1, later found.2]
  | loop draft binding body rest inside later =>
      simp only [sitesAll, sites, List.cons_append, List.forall_mem_cons,
        List.forall_mem_append] at found
      have entered := inside found.2.1
      rw [Scope.within] at entered
      simp only [mapAll, map, remarkAll, remark, remark_ofPath found.1, later found.2.2]
      rw [Draft.ofPath, entered]
  | conditional draft thenBranch elseBranch rest inThen inElse later =>
      simp only [sitesAll, sites_conditional, List.cons_append, List.append_assoc,
        List.forall_mem_cons, List.forall_mem_append] at found
      have first := inThen found.2.1
      have second := inElse found.2.2.1
      cases elseBranch with
      | none =>
          simp only [mapAll, map, remarkAll, remark, remark_ofPath found.1, first,
            later found.2.2.2]
      | some nodes =>
          rw [Option.getD_some] at second
          simp only [mapAll, map, remarkAll, remark, remark_ofPath found.1, first, second,
            later found.2.2.2]

theorem markAll_eq_remarkAll (scope : Scope) (nodes : List (Node Path)) :
    markAll scope nodes = mapAll Draft.reference (remarkAll scope (mapAll Draft.ofPath nodes)) := by
  have single (scope : Scope) (path : Path) :
      scope.mark path = (scope.remark (.ofPath path)).reference := by
    unfold Scope.mark Scope.remark Draft.ofPath
    cases scope.resolve path <;> rfl
  induction nodes using sequence_induction generalizing scope with
  | nil => rfl
  | text content rest later =>
      simp only [mapAll, map, remarkAll, remark, markAll, mark, later]
  | «variable» path raw rest later =>
      simp only [mapAll, map, remarkAll, remark, markAll, mark, single, later]
  | loop path binding body rest inside later =>
      simp only [mapAll, map, remarkAll, remark, markAll, mark, single, inside, later]
      rfl
  | conditional path thenBranch elseBranch rest inThen inElse later =>
      cases elseBranch with
      | none => simp only [mapAll, map, remarkAll, remark, markAll, mark, single, inThen, later]
      | some nodes =>
          have second := inElse scope
          rw [Option.getD_some] at second
          simp only [mapAll, map, remarkAll, remark, markAll, mark, single, inThen, second, later]

end Node

namespace Template

theorem recheck_eq_ok_iff {nodes checked : List (Node Draft)} {schema : Schema} :
    recheck nodes schema = .ok checked ↔
      Node.typeErrorsAll (Scope.ofSchema schema) (Node.mapAll Draft.path nodes) = [] ∧
        checked = Node.remarkAll (Scope.ofSchema schema) nodes := by
  unfold recheck
  cases errors : Node.typeErrorsAll (Scope.ofSchema schema) (Node.mapAll Draft.path nodes) with
  | nil => simp [errors, eq_comm]
  | cons error rest => simp [errors]

/-- Checking a tree as it is read. -/
theorem check_eq_recheck (nodes : List (Node Path)) (schema : Schema) :
    check nodes schema =
      (recheck (Node.mapAll Draft.ofPath nodes) schema).map fun checked =>
        { nodes := Node.mapAll Draft.reference checked, schema } := by
  have same : Node.mapAll Draft.path (Node.mapAll Draft.ofPath nodes) = nodes := by
    rw [Node.mapAll_mapAll]
    exact Node.mapAll_self nodes
  unfold check recheck
  rw [same]
  cases errors : Node.typeErrorsAll (Scope.ofSchema schema) nodes with
  | nil => simp [errors, Except.map, Node.markAll_eq_remarkAll]
  | cons error rest => simp [errors, Except.map]

theorem sitesAll_of_recheck
    {nodes checked : List (Node Draft)} {schema : Schema}
    (accepted : recheck nodes schema = .ok checked) :
    Node.sitesAll [] checked = (Node.sitesAll [] nodes).map (Site.remark schema) := by
  obtain ⟨_, rfl⟩ := recheck_eq_ok_iff.mp accepted
  exact Node.sitesAll_remarkAll schema [] nodes

theorem found_of_recheck
    {nodes checked : List (Node Draft)} {schema : Schema}
    (accepted : recheck nodes schema = .ok checked)
    (named : ∀ draft ∈ Node.pathsAll nodes, draft.path.segments ≠ []) :
    ∀ site ∈ Node.sitesAll [] nodes, site.Found schema := by
  obtain ⟨correct, _⟩ := recheck_eq_ok_iff.mp accepted
  exact Node.found_of_no_errors (Scope.known_ofSchema schema) named correct

/-- In an accepted tree all paths are marked completely and by the given schema, whatever marks they
had, exactly when all of them have a segment.  The tree is then the same as without earlier
marks. -/
theorem recheck_marks_completely
    {nodes checked : List (Node Draft)} {schema : Schema}
    (accepted : recheck nodes schema = .ok checked) :
    ((∀ site ∈ Node.sitesAll [] checked, site.Complete schema) ↔
      ∀ draft ∈ Node.pathsAll nodes, draft.path.segments ≠ []) ∧
    ((∀ draft ∈ Node.pathsAll nodes, draft.path.segments ≠ []) →
      recheck (Node.mapAll (fun draft => .ofPath draft.path) nodes) schema = .ok checked ∧
      check (Node.mapAll Draft.path nodes) schema =
        .ok { nodes := Node.mapAll Draft.reference checked, schema }) := by
  have places := sitesAll_of_recheck accepted
  refine ⟨⟨?_, ?_⟩, ?_⟩
  · intro complete draft member
    rw [← Node.map_draft_sitesAll []] at member
    obtain ⟨site, place, rfl⟩ := List.mem_map.mp member
    have marked := complete (site.remark schema) (places ▸ List.mem_map_of_mem place)
    simpa [Site.remark] using marked.named
  · intro named site member
    rw [places] at member
    obtain ⟨site, place, rfl⟩ := List.mem_map.mp member
    exact (found_of_recheck accepted named site place).complete_remark
  · intro named
    have found := found_of_recheck accepted named
    obtain ⟨correct, marked⟩ := recheck_eq_ok_iff.mp accepted
    have fresh : recheck (Node.mapAll (fun draft => .ofPath draft.path) nodes) schema =
        .ok checked := by
      refine recheck_eq_ok_iff.mpr ⟨?_, ?_⟩
      · rw [Node.mapAll_mapAll]
        exact correct
      · rw [marked]
        exact (Node.remarkAll_ofPath found).symm
    refine ⟨fresh, ?_⟩
    rw [check_eq_recheck, Node.mapAll_mapAll, fresh]
    rfl

/-- The agenda with marks that do not belong to its schema. -/
def staleAgenda : List (Node Draft) :=
  Node.mapAll (fun path => { path, marks := [true, true, true, true] }) agenda

theorem staleAgenda_marked :
    let checked := Node.remarkAll (Scope.ofSchema agendaSchema) staleAgenda
    recheck staleAgenda agendaSchema = .ok checked ∧
      (∀ draft ∈ Node.pathsAll staleAgenda, draft.path.segments ≠ []) ∧
      (∀ site ∈ Node.sitesAll [] checked, site.Complete agendaSchema) ∧
      (Node.pathsAll checked).map (fun draft => (draft.path.segments, draft.marks)) =
        [ (["title"], [false]), (["days"], [false]), (["day", "room"], [false, true]),
          (["day", "room", "name"], [false, true, false]), (["day", "talks"], [false, false]),
          (["title"], [false]), (["title"], [false]), (["last"], [false]) ] ∧
      check agenda agendaSchema =
        .ok { nodes := Node.mapAll Draft.reference checked, schema := agendaSchema } := by
  have accepted : recheck staleAgenda agendaSchema =
      .ok (Node.remarkAll (Scope.ofSchema agendaSchema) staleAgenda) := rfl
  have named : ∀ draft ∈ Node.pathsAll staleAgenda, draft.path.segments ≠ [] := by decide
  obtain ⟨complete, same⟩ := recheck_marks_completely accepted
  exact ⟨accepted, named, complete.mpr named, rfl, (same named).2⟩

def emptyPath : Path :=
  { hops := 0, segments := [] }

/-- The room of a day, with the marks of an earlier check. -/
def staleRoom : Draft :=
  { path := { hops := 0, segments := ["day", "room"] }, marks := [false, true] }

/-- A value without a name. -/
def emptyPathNodes : List (Node Draft) :=
  [.variable (.ofPath emptyPath) false]

/-- A loop over nothing, which has been put around the room of a day. -/
def emptyLoopNodes : List (Node Draft) :=
  [.loop (.ofPath emptyPath) "day" [.variable staleRoom false]]

def emptySchema : Schema where
  fields := []

/-- Without any field declared both are accepted and stay as they are: the path without segments is
left in place, and so are the marks of the earlier check. -/
theorem emptyPath_accepted_unmarked :
    (recheck emptyPathNodes emptySchema = .ok emptyPathNodes ∧
      ¬ ∀ site ∈ Node.sitesAll [] emptyPathNodes, site.Complete emptySchema) ∧
    (recheck emptyLoopNodes emptySchema = .ok emptyLoopNodes ∧
      ∃ site ∈ Node.sitesAll [] emptyLoopNodes,
        site.draft = staleRoom ∧ ¬ site.Complete emptySchema) ∧
    check [.variable emptyPath false] emptySchema =
      .ok { nodes := [.variable (emptyPath.mark []) false], schema := emptySchema } := by
  refine ⟨⟨rfl, ?_⟩, ⟨rfl, ?_⟩, rfl⟩
  · intro complete
    exact (complete _ List.mem_cons_self).named rfl
  · refine ⟨_, List.mem_cons_of_mem _ List.mem_cons_self, rfl, ?_⟩
    intro complete
    obtain ⟨kind, _, resolves, _⟩ := complete.marked 0 (by decide)
    obtain ⟨_, found⟩ := resolves.exists_resolve_within kind.hasCore_required
    -- The binding is that of a loop whose list is not known.
    cases found

end Template

end Stencil
