import Stencil.Proofs.Counterparts
import Stencil.Proofs.Meaning
import Stencil.Proofs.Truncation

/-!
# Leaving a loop

A path with one more hop means inside of a loop what the path means outside of it, whatever the
loop calls its elements.  A loop whose body leaves it at every path therefore writes, once for each
element, what the body without these hops writes in place of the loop.
-/

namespace Stencil

/-- The path with one more hop. -/
def Path.outward (path : Path) : Path :=
  { path with hops := path.hops + 1 }

theorem Path.Parallel.refl
    {related : String → String → Prop} (same : ∀ name, related name name) (names : List String) :
    Path.Parallel related names names := by
  cases names with
  | nil => exact .unnamed
  | cons first rest => exact .named (same first) rest

namespace Scope

variable {scope : Scope}

theorem resolve_outward (scope : Scope) (binding : String) (element : Option Kind) (path : Path) :
    Resolution.Alike (scope.resolve path)
      ((scope.enter binding element).resolve path.outward) := by
  apply resolve_alike
  · exact Nat.succ_le_succ_iff.symm
  · apply Path.Parallel.refl
    intro name
    rfl

theorem resolve_name {hops : Nat} {name : String} {kind : Kind}
    (inRange : hops ≤ scope.loops.length)
    (found : (scope.leave hops).find name = some (some kind)) :
    scope.resolve { hops, segments := [name] } = .found kind.required [kind.isOptional] := by
  rw [resolve_of_declared inRange rfl found]
  rfl

variable {hops : Nat} {loop : LoopScope} (enclosing : scope.loops[hops]? = some loop)
include enclosing

/-- With as many hops as there are loops inside of a loop, a path sees the binding of that loop. -/
theorem resolve_binding {kind : Kind} (known : loop.element = some kind) :
    scope.resolve { hops, segments := [loop.binding] } =
      .found kind.required [kind.isOptional] := by
  obtain ⟨bound, rfl⟩ := List.getElem?_eq_some_iff.mp enclosing
  apply resolve_name (Nat.le_of_lt bound)
  rw [find, leave, List.drop_eq_getElem_cons bound, findIn, if_pos rfl, known]

/-- So it sees the metadata of that loop. -/
theorem resolve_metadata {metadata : Metadata} (other : loop.binding ≠ metadata.name) :
    scope.resolve { hops, segments := [metadata.name] } = .found .scalar [false] := by
  obtain ⟨bound, rfl⟩ := List.getElem?_eq_some_iff.mp enclosing
  have reserved : Metadata.isReserved metadata.name = true := by
    cases metadata <;> rfl
  have found : (scope.leave hops).find metadata.name = some (some .scalar) := by
    rw [find, leave, List.drop_eq_getElem_cons bound, findIn, if_neg other, if_pos reserved]
  exact resolve_name (Nat.le_of_lt bound) found

end Scope

/-- One hop leads from an inner scope to an outer one: a path with one more hop refers to what the
path refers to outside.  So it may refer to the bindings and the metadata of all loops of the outer
scope. -/
structure Scope.HopsTo (inside outside : Scope) : Prop where
  alike : ∀ path : Path,
    Resolution.Alike (outside.resolve path) (inside.resolve path.outward)
  binding : ∀ hops loop kind, outside.loops[hops]? = some loop → loop.element = some kind →
    inside.resolve { hops := hops + 1, segments := [loop.binding] } =
      .found kind.required [kind.isOptional]
  metadata : ∀ hops loop (metadata : Metadata), outside.loops[hops]? = some loop →
    loop.binding ≠ metadata.name →
      inside.resolve { hops := hops + 1, segments := [metadata.name] } = .found .scalar [false]

theorem Scope.hopsTo_of_enter (scope : Scope) (binding : String) (element : Option Kind) :
    (scope.enter binding element).HopsTo scope where
  alike := scope.resolve_outward binding element
  binding := by
    intro hops loop kind enclosing known
    have within : (scope.enter binding element).loops[hops + 1]? = some loop := enclosing
    exact resolve_binding within known
  metadata := by
    intro hops loop metadata enclosing other
    have within : (scope.enter binding element).loops[hops + 1]? = some loop := enclosing
    exact resolve_metadata within other

namespace Stack

variable {δ : Type} [Data δ] {stack : Stack δ}

theorem resolve_outward
    (stack : Stack δ) (binding : String) (item : δ) (index length : Nat) (path : Path)
    (marks : List Bool) (found : Found δ) :
    stack.resolve (path.mark marks) = .ok found ↔
      (stack.enter binding item index length).resolve (path.outward.mark marks) = .ok found := by
  apply resolve_eq_ok_iff_of_parallel
  · exact Nat.succ_le_succ_iff.symm
  · apply Path.Parallel.refl
    intro name
    rfl

theorem resolve_name
    {hops : Nat} {name : String} {found : Found δ} (inRange : hops ≤ stack.frames.length)
    (present : ∀ reference position step, Found.settle reference position step found = .ok found)
    (finds : findIn stack.root name (stack.frames.drop hops) = found) (marks : List Bool) :
    stack.resolve (Path.mark { hops, segments := [name] } marks) = .ok found := by
  obtain ⟨optional, later, marked⟩ := Step.exists_markAll_cons [] marks
  have steps : (Path.mark { hops, segments := [name] } marks).steps =
      [{ name, optional }] := by
    rw [Path.mark, marked, Step.markAll]
  rw [resolve_of_inRange inRange steps, Path.mark, finds, present]
  rfl

variable {hops : Nat} {frame : Frame δ} (running : stack.frames[hops]? = some frame)
include running

theorem resolve_binding (present : Data.isNull frame.element = false) (marks : List Bool) :
    stack.resolve (Path.mark { hops, segments := [frame.binding] } marks) =
      .ok (.value frame.element) := by
  obtain ⟨bound, rfl⟩ := List.getElem?_eq_some_iff.mp running
  apply resolve_name (Nat.le_of_lt bound)
  · intro reference position step
    rw [Found.settle, present]
    rfl
  · rw [List.drop_eq_getElem_cons bound, findIn, if_pos rfl]

theorem resolve_metadata
    {metadata : Metadata} (other : frame.binding ≠ metadata.name) (marks : List Bool) :
    stack.resolve (Path.mark { hops, segments := [metadata.name] } marks) =
      .ok (frame.metadata metadata) := by
  obtain ⟨bound, rfl⟩ := List.getElem?_eq_some_iff.mp running
  apply resolve_name (Nat.le_of_lt bound)
  · intro reference position step
    cases metadata <;> rfl
  · rw [List.drop_eq_getElem_cons bound, findIn, if_neg other.symm]
    cases metadata <;> rfl

end Stack

/-- One hop leads from the stack of an element to the stack of its loop: a path with one more hop
comes to what the path comes to outside.  So it may come to the elements and the metadata of all
loops that run outside. -/
structure Stack.HopsTo {δ : Type} [Data δ] (inside outside : Stack δ) : Prop where
  same : ∀ (path : Path) marks found,
    outside.resolve (path.mark marks) = .ok found ↔
      inside.resolve (path.outward.mark marks) = .ok found
  binding : ∀ hops frame, outside.frames[hops]? = some frame →
    Data.isNull frame.element = false → ∀ marks,
      inside.resolve (Path.mark { hops := hops + 1, segments := [frame.binding] } marks) =
        .ok (.value frame.element)
  metadata : ∀ hops frame (metadata : Metadata), outside.frames[hops]? = some frame →
    frame.binding ≠ metadata.name → ∀ marks,
      inside.resolve (Path.mark { hops := hops + 1, segments := [metadata.name] } marks) =
        .ok (frame.metadata metadata)

theorem Stack.hopsTo_of_enter
    {δ : Type} [Data δ] (stack : Stack δ) (binding : String) (item : δ) (index length : Nat) :
    (stack.enter binding item index length).HopsTo stack where
  same := stack.resolve_outward binding item index length
  binding := by
    intro hops frame running present marks
    have within : (stack.enter binding item index length).frames[hops + 1]? = some frame := running
    exact resolve_binding within present marks
  metadata := by
    intro hops frame metadata running other marks
    have within : (stack.enter binding item index length).frames[hops + 1]? = some frame := running
    exact resolve_metadata within other marks

/-- A sequence of nodes without loops, each of which would have a binding. -/
def Node.LoopFree {ρ : Type} (nodes : List (Node ρ)) : Prop :=
  bindingsAll nodes = []

/-- Outside of all loops of a tree, a path and the same with one more hop. -/
structure Path.HopsOut (bindings : List String) (path other : Path) : Prop where
  outside : bindings = []
  outward : other = path.outward

theorem Scope.mirrors_enter (scope : Scope) (binding : String) (element : Option Kind) :
    scope.Mirrors Path.HopsOut (scope.enter binding element) := by
  rintro loops path _ ⟨outside, rfl⟩
  obtain rfl := List.map_eq_nil_iff.mp outside
  exact scope.resolve_outward binding element path

theorem Stack.mirrors_enter
    {δ : Type} [Data δ] (stack : Stack δ) (binding : String) (item : δ) (index length : Nat) :
    stack.Mirrors Path.HopsOut (stack.enter binding item index length) := by
  rintro frames path _ ⟨outside, rfl⟩
  obtain rfl := List.map_eq_nil_iff.mp outside
  exact stack.resolve_outward binding item index length path

theorem Node.counterparts_outward {nodes : List (Node Path)} (loopFree : LoopFree nodes) :
    Counterparts Path.HopsOut [] nodes (mapAll Path.outward nodes) := by
  unfold LoopFree at loopFree
  induction nodes using sequence_induction with
  | nil =>
      rw [mapAll]
      exact .nil
  | text content rest later =>
      rw [mapAll, map]
      exact .text (later loopFree)
  | «variable» path raw rest later =>
      rw [mapAll, map]
      exact .variable ⟨rfl, rfl⟩ (later loopFree)
  | loop path binding body rest inside later =>
      simp [bindingsAll, bindings] at loopFree
  | conditional path thenBranch elseBranch rest first second later =>
      simp only [bindingsAll, bindings_conditional, List.append_eq_nil_iff] at loopFree
      have otherwise := second loopFree.1.2
      rw [mapAll, map_conditional]
      refine .conditional ⟨rfl, rfl⟩ (first loopFree.1.1) ?_ (later loopFree.2)
      cases elseBranch with
      | none => exact .nil
      | some nodes => exact otherwise

namespace Rendering

theorem Fixed.means
    {action : Rendering Unit} (fixed : Fixed action) {content : String}
    (done : action .unlimited = .ok () { text := content, room := none }) :
    Means action (.write content) := by
  obtain ⟨contents, result, writes, -⟩ := fixed
  rw [writes, Sink.unlimited, Sink.writeAll_of_unlimited, String.empty_append] at done
  intro written
  rw [writes, Sink.writeAll_of_unlimited]
  cases result with
  | error error => cases done
  | ok result =>
      cases done
      rfl

theorem Means.of_covers
    {action other : Rendering Unit} {content : String} (means : Means action (.write content))
    (covers : Covers action other) :
    Means other (.write content) := by
  intro written
  exact covers _ _ _ (means written)

/-- What an action does for each element in the same way is done as often as there are elements. -/
theorem means_forEach_replicate
    {δ : Type} {action : Nat → δ → Rendering Unit} {content : String}
    (each : ∀ index item, Means (action index item) (.write content))
    (start : Nat) (items : List δ) :
    Means (forEach action start items)
      (.write (String.join (List.replicate items.length content))) := by
  induction items generalizing start with
  | nil =>
      rw [forEach_nil]
      exact means_pure
  | cons item rest induction =>
      rw [forEach_cons, List.length_cons, List.replicate_succ, String.join_cons]
      exact (each start item).bind (induction (start + 1))

end Rendering

section

variable {fragment : List (Node Path)} (loopFree : Node.LoopFree fragment)
include loopFree

theorem Node.typeErrorsAll_outward_eq_nil_iff
    (scope : Scope) (binding : String) (element : Option Kind) :
    typeErrorsAll (scope.enter binding element) (mapAll Path.outward fragment) = [] ↔
      typeErrorsAll scope fragment = [] :=
  ((counterparts_outward loopFree).typeErrorsAll_eq_nil_iff
    (scope.mirrors_enter binding element) [] rfl).symm

variable {δ : Type} [Data δ] {scope : Scope} {stack : Stack δ}

theorem Node.matches_outward
    (binding : String) (element : Option Kind) (item : δ) (index length : Nat) :
    Rendering.Matches (renderAll (markAll scope fragment) stack)
      (renderAll (markAll (scope.enter binding element) (mapAll Path.outward fragment))
        (stack.enter binding item index length)) :=
  (counterparts_outward loopFree).matches_renderAll (scope.mirrors_enter binding element)
    (stack.mirrors_enter binding item index length) [] [] rfl rfl

theorem Node.means_loop_outward
    {path : Path} {found : Found δ} {items : List δ} {content : String}
    (resolved : stack.resolve (scope.mark path) = .ok found) (elements : found.elements = .ok items)
    (means : Rendering.Means (renderAll (markAll scope fragment) stack) (.write content))
    (binding : String) :
    Rendering.Means
      (renderAll (markAll scope [.loop path binding (mapAll Path.outward fragment)]) stack)
      (.write (String.join (List.replicate items.length content))) := by
  rw [markAll, mark, markAll, renderAll_cons, renderAll_nil, bind_pure, render_loop resolved,
    elements, Rendering.demand_ok, pure_bind]
  apply Rendering.means_forEach_replicate
  intro index item
  exact means.of_covers (matches_outward loopFree binding _ item index items.length).1

end

/-- A hop undoes a loop.  Anywhere in a tree, a loop over a list stands around a fragment without
loops, of which every path has one more hop.  The fragment is in error there if and only if it is
in error in place of the loop, without these hops.  The loop writes, as often as the list has
elements, what the fragment writes in place of the loop.  Whatever the loop brings along, a hop
leads out of it. -/
theorem Surroundings.hop_undoes_loop
    {surroundings : Surroundings Path} {schema : Schema} {path : Path} {element : Kind}
    {marks : List Bool} {fragment : List (Node Path)} (loopFree : Node.LoopFree fragment)
    (list : (surroundings.scope (Scope.ofSchema schema)).resolve path =
      .found (.list element) marks)
    (binding : String) :
    let scope := surroundings.scope (Scope.ofSchema schema)
    let inside := scope.enter binding (some element)
    let body := Node.mapAll Path.outward fragment
    let loop := [Node.loop path binding body]
    (∃ before after,
      Node.typeErrorsAll (Scope.ofSchema schema) (surroundings.fill loop) =
        before ++ Node.typeErrorsAll inside body ++ after ∧
      Node.typeErrorsAll (Scope.ofSchema schema) (surroundings.fill fragment) =
        before ++ Node.typeErrorsAll scope fragment ++ after) ∧
    (Node.typeErrorsAll inside body = [] ↔ Node.typeErrorsAll scope fragment = []) ∧
    inside.HopsTo scope ∧
    (∀ nodes, Node.markAll (Scope.ofSchema schema) (surroundings.fill nodes) =
      (surroundings.mark (Scope.ofSchema schema)).fill (Node.markAll scope nodes)) ∧
    ∀ {δ : Type} [Data δ] (stack : Stack δ),
      (∀ found items content, stack.resolve (scope.mark path) = .ok found →
        found.elements = .ok items →
        Node.renderAll (Node.markAll scope fragment) stack .unlimited =
          .ok () { text := content, room := none } →
        ∀ written,
          Node.renderAll (Node.markAll scope loop) stack { text := written, room := none } =
            .ok ()
              { text := written ++ String.join (List.replicate items.length content),
                room := none }) ∧
      ∀ item index length, (stack.enter binding item index length).HopsTo stack := by
  intro scope inside body loop
  have kindOfElements : scope.elementKind path = some element := by
    rw [Scope.elementKind, list]
  have noLoopErrors : scope.loopErrors path = [] := by
    rw [Scope.loopErrors, list]
  refine ⟨?_, ?_, scope.hopsTo_of_enter binding _, surroundings.markAll_fill _, ?_⟩
  · obtain ⟨before, after, errors⟩ :=
      surroundings.exists_typeErrorsAll_fill (Scope.ofSchema schema)
    refine ⟨before, after, ?_, errors fragment⟩
    rw [errors, Node.typeErrorsAll, Node.typeErrors, noLoopErrors, kindOfElements,
      Node.typeErrorsAll, List.nil_append, List.append_nil]
  · exact Node.typeErrorsAll_outward_eq_nil_iff loopFree scope binding (some element)
  · intro δ _ stack
    constructor
    · intro found items content resolved elements done
      have means := (Node.fixed_renderAll (Node.markAll scope fragment) stack).means done
      exact Node.means_loop_outward loopFree resolved elements means binding
    · exact stack.hopsTo_of_enter binding

/-- A board has a name, tags and notes. -/
def boardSchema : Schema where
  fields := [("name", .scalar), ("notes", .list .scalar), ("tags", .list .scalar)]

/-- The body of a loop over the notes, each of which is called like the board. -/
def boardNotes : Surroundings Path :=
  .inBody [] { hops := 0, segments := ["notes"] } "name" (.between [] []) []

/-- A note, and its number or the name of the board. -/
def noteFragment : List (Node Path) :=
  [ .variable { hops := 0, segments := ["name"] } false,
    .conditional { hops := 0, segments := ["first"] }
      [.variable { hops := 0, segments := ["index"] } false]
      (some [.text " of ", .variable { hops := 1, segments := ["name"] } false]),
    .text ";" ]

def boardTags : Path :=
  { hops := 0, segments := ["tags"] }

/-- While the second note is written. -/
def boardStack : Stack Json :=
  (Stack.ofRoot (.object
    [ ("name", .string "Board"),
      ("notes", .array [.string "A", .string "B"]),
      ("tags", .array [.string "x", .string "y", .string "z"]) ])).enter "name" (.string "B") 1 2

/-- A loop over the tags, which are called like the notes, does not change what is written. -/
theorem board_repeats_note :
    let scope := boardNotes.scope (Scope.ofSchema boardSchema)
    let body := Node.mapAll Path.outward noteFragment
    Node.LoopFree noteFragment ∧
      scope.resolve boardTags = .found (.list .scalar) [false] ∧
      Node.typeErrorsAll (scope.enter "name" (some .scalar)) body = [] ∧
      (scope.enter "name" (some .scalar)).resolve { hops := 1, segments := ["name"] } =
        .found .scalar [false] ∧
      Node.renderAll (Node.markAll scope noteFragment) boardStack .unlimited =
        .ok () { text := "B of Board;", room := none } ∧
      Node.renderAll (Node.markAll scope [.loop boardTags "name" body]) boardStack .unlimited =
        .ok () { text := "B of Board;B of Board;B of Board;", room := none } := by
  intro scope body
  have loopFree : Node.LoopFree noteFragment := by rfl
  have list : scope.resolve boardTags = .found (.list .scalar) [false] := by rfl
  obtain ⟨-, errors, hop, -, renders⟩ :=
    Surroundings.hop_undoes_loop loopFree list "name"
  have once : Node.renderAll (Node.markAll scope noteFragment) boardStack .unlimited =
      .ok () { text := "B of Board;", room := none } := by rfl
  refine ⟨loopFree, list, errors.mpr rfl, hop.binding 0 _ .scalar rfl rfl, once, ?_⟩
  exact (renders boardStack).1 _ _ _ rfl rfl once ""

end Stencil
