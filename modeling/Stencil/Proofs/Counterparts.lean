import Stencil.Proofs.Surroundings
import Stencil.Proofs.Verdicts
import Stencil.Proofs.Widening

/-!
# Trees with other paths

Two trees may differ in their paths and yet refer to the same, each in a scope of its own.  If
every path of one tree resolves like its counterpart in the other one, either both trees have type
errors or none has, and whatever one of them renders completely is rendered to the same text by the
other one.
-/

namespace Stencil

namespace Resolution

/-- The same resolution, where it is left open why a path fails to resolve. -/
inductive Alike : Resolution → Resolution → Prop where
  | found (kind : Kind) (marks : List Bool) : Alike (.found kind marks) (.found kind marks)
  | unknown : Alike .unknown .unknown
  | failed (first second : TypeError) : Alike (.failed first) (.failed second)

theorem Alike.behind {first second : Resolution} (alike : Alike first second) (mark : Bool) :
    Alike (first.behind mark) (second.behind mark) := by
  cases alike with
  | found kind marks => exact .found kind (mark :: marks)
  | unknown => exact .unknown
  | failed first second => exact .failed first second

end Resolution

/-- Segments that differ at most in the first ones, which are related. -/
inductive Path.Parallel (related : String → String → Prop) : List String → List String → Prop where
  | unnamed : Path.Parallel related [] []
  | named {first second : String} (start : related first second) (rest : List String) :
      Path.Parallel related (first :: rest) (second :: rest)

namespace Scope

theorem follow_alike
    (path other : Path) (position otherPosition : Nat) (kind : Kind) (names : List String) :
    Resolution.Alike (follow path position kind.required names)
      (follow other otherPosition kind.required names) := by
  induction names generalizing position otherPosition kind with
  | nil => exact .found kind.required []
  | cons name rest induction =>
      rw [follow_cons, follow_cons]
      cases kind.field? name with
      | none => exact .failed _ _
      | some field => exact (induction (position + 1) (otherPosition + 1) field).behind _

variable {scope other : Scope} {path otherPath : Path}

/-- Two paths resolve alike, each in its scope, if their first segments stand for the same outside
of the loops they leave and the other segments are the same. -/
theorem resolve_alike
    (inRange : path.hops ≤ scope.loops.length ↔ otherPath.hops ≤ other.loops.length)
    (parallel : Path.Parallel
      (fun first second =>
        (scope.leave path.hops).find first = (other.leave otherPath.hops).find second)
      path.segments otherPath.segments) :
    Resolution.Alike (scope.resolve path) (other.resolve otherPath) := by
  by_cases range : path.hops ≤ scope.loops.length
  · have otherRange := inRange.mp range
    generalize segments : path.segments = names at parallel
    generalize otherSegments : otherPath.segments = otherNames at parallel
    cases parallel with
    | unnamed =>
        rw [resolve_eq_iff.mpr (.unnamed range segments),
          resolve_eq_iff.mpr (.unnamed otherRange otherSegments)]
        exact .unknown
    | @named first second start rest =>
        cases found : (scope.leave path.hops).find first with
        | none =>
            rw [resolve_eq_iff.mpr (.undeclared range segments found),
              resolve_eq_iff.mpr (.undeclared otherRange otherSegments (start ▸ found))]
            exact .failed _ _
        | some element =>
            cases element with
            | none =>
                rw [resolve_eq_iff.mpr (.inError range segments found),
                  resolve_eq_iff.mpr (.inError otherRange otherSegments (start ▸ found))]
                exact .unknown
            | some kind =>
                rw [resolve_of_declared range segments found,
                  resolve_of_declared otherRange otherSegments (start ▸ found)]
                exact (follow_alike path otherPath 1 1 kind rest).behind _
  · have otherRange : ¬ otherPath.hops ≤ other.loops.length := fun within =>
      range (inRange.mpr within)
    rw [resolve_eq_iff.mpr (.beyond (Nat.lt_of_not_le range)),
      resolve_eq_iff.mpr (.beyond (Nat.lt_of_not_le otherRange))]
    exact .failed _ _

variable (alike : Resolution.Alike (scope.resolve path) (other.resolve otherPath))
include alike

theorem elementKind_eq_of_alike : scope.elementKind path = other.elementKind otherPath := by
  unfold elementKind
  generalize scope.resolve path = first at alike ⊢
  generalize other.resolve otherPath = second at alike ⊢
  cases alike with
  | found | unknown | failed => rfl

theorem exists_mark_of_alike :
    ∃ marks, scope.mark path = path.mark marks ∧ other.mark otherPath = otherPath.mark marks := by
  unfold mark
  generalize scope.resolve path = first at alike ⊢
  generalize other.resolve otherPath = second at alike ⊢
  cases alike with
  | found kind marks => exact ⟨marks, rfl, rfl⟩
  | unknown | failed => exact ⟨[], rfl, rfl⟩

theorem error?_eq_none_iff_of_alike (use : Use) :
    scope.error? use path = none ↔ other.error? use otherPath = none := by
  unfold error?
  generalize scope.resolve path = first at alike ⊢
  generalize other.resolve otherPath = second at alike ⊢
  cases alike with
  | found kind marks => rw [Use.mismatch?_eq_none_iff, Use.mismatch?_eq_none_iff]
  | unknown | failed => simp

end Scope

theorem Path.Parallel.symm
    {related converse : String → String → Prop} {names others : List String}
    (parallel : Path.Parallel related names others)
    (symmetric : ∀ {first second}, related first second → converse second first) :
    Path.Parallel converse others names := by
  cases parallel with
  | unnamed => exact .unnamed
  | named start rest => exact .named (symmetric start) rest

/-- Marks fall on segments by their places, whatever the names. -/
theorem Step.exists_markAll_cons (rest : List String) (marks : List Bool) :
    ∃ optional later, ∀ name,
      markAll (name :: rest) marks = { name, optional } :: markAll rest later := by
  cases marks with
  | nil => exact ⟨false, [], fun name => rfl⟩
  | cons mark later => exact ⟨mark, later, fun name => rfl⟩

section

variable {δ : Type} [Data δ]

theorem Stack.resolve_of_parallel
    {stack other : Stack δ} {path otherPath : Path}
    (inRange : path.hops ≤ stack.frames.length → otherPath.hops ≤ other.frames.length)
    (parallel : Path.Parallel
      (fun first second =>
        findIn stack.root first (stack.frames.drop path.hops) =
          findIn other.root second (other.frames.drop otherPath.hops))
      path.segments otherPath.segments)
    {marks : List Bool} {found : Found δ} (resolved : stack.resolve (path.mark marks) = .ok found) :
    other.resolve (otherPath.mark marks) = .ok found := by
  by_cases range : path.hops ≤ stack.frames.length
  · generalize segments : path.segments = names at parallel
    generalize otherSegments : otherPath.segments = otherNames at parallel
    cases parallel with
    | unnamed =>
        have noSteps : (path.mark marks).steps = [] := by
          rw [Path.mark, segments, Step.markAll]
        have within : ¬ (path.mark marks).hops > stack.frames.length := Nat.not_lt.mpr range
        simp only [resolve, if_neg within, noSteps] at resolved
        cases resolved
    | @named first second start rest =>
        obtain ⟨optional, later, marked⟩ := Step.exists_markAll_cons rest marks
        have steps : (path.mark marks).steps =
            { name := first, optional } :: Step.markAll rest later := by
          rw [Path.mark, segments, marked]
        have otherSteps : (otherPath.mark marks).steps =
            { name := second, optional } :: Step.markAll rest later := by
          rw [Path.mark, otherSegments, marked]
        rw [resolve_of_inRange range steps] at resolved
        obtain ⟨settled, settles, followed⟩ := Violation.exists_of_bind_eq_ok resolved
        have otherSettles : Found.settle (otherPath.mark marks) 0 { name := second, optional }
            (findIn other.root second (other.frames.drop otherPath.hops)) = .ok settled := by
          rw [← start]
          exact Found.settle_of_relaxes id settles
        rw [resolve_of_inRange (inRange range) otherSteps]
        show (Found.settle (otherPath.mark marks) 0 { name := second, optional }
          (findIn other.root second (other.frames.drop otherPath.hops))).bind _ = _
        rw [otherSettles]
        exact Found.follow_of_relaxes (List.forall₂_same.mpr fun _ _ => ⟨rfl, id⟩) followed
  · have beyond : (path.mark marks).hops > stack.frames.length := Nat.lt_of_not_le range
    simp only [resolve, if_pos beyond] at resolved
    cases resolved

/-- Two paths with the same marks come to the same, each on its stack, if their first segments
stand for the same outside of the loops they leave and the other segments are the same. -/
theorem Stack.resolve_eq_ok_iff_of_parallel
    {stack other : Stack δ} {path otherPath : Path}
    (inRange : path.hops ≤ stack.frames.length ↔ otherPath.hops ≤ other.frames.length)
    (parallel : Path.Parallel
      (fun first second =>
        findIn stack.root first (stack.frames.drop path.hops) =
          findIn other.root second (other.frames.drop otherPath.hops))
      path.segments otherPath.segments)
    (marks : List Bool) (found : Found δ) :
    stack.resolve (path.mark marks) = .ok found ↔
      other.resolve (otherPath.mark marks) = .ok found := by
  constructor
  · exact resolve_of_parallel inRange.mp parallel
  · exact resolve_of_parallel inRange.mpr (parallel.symm Eq.symm)

end

namespace Rendering

variable {α β δ : Type}

/-- Two actions that succeed on the same sinks, and then do the same. -/
def Matches (action other : Rendering α) : Prop :=
  Covers action other ∧ Covers other action

theorem Matches.refl (action : Rendering α) : Matches action action :=
  ⟨.refl action, .refl action⟩

theorem Matches.bind
    {action other : Rendering α} {next otherNext : α → Rendering β}
    (first : Matches action other) (second : ∀ result, Matches (next result) (otherNext result)) :
    Matches (action >>= next) (other >>= otherNext) := by
  constructor
  · exact first.1.bind fun result => (second result).1
  · exact first.2.bind fun result => (second result).2

theorem matches_demand
    {outcome other : Except Violation α} (reference otherReference : Reference)
    (same : ∀ result, outcome = .ok result ↔ other = .ok result) :
    Matches (demand reference outcome) (demand otherReference other) := by
  constructor
  · exact covers_demand reference otherReference fun result => (same result).mp
  · exact covers_demand otherReference reference fun result => (same result).mpr

theorem matches_forEach
    {action other : Nat → δ → Rendering Unit}
    (each : ∀ index item, Matches (action index item) (other index item))
    (index : Nat) (items : List δ) :
    Matches (forEach action index items) (forEach other index items) := by
  constructor
  · exact covers_forEach (fun index item => (each index item).1) index items
  · exact covers_forEach (fun index item => (each index item).2) index items

end Rendering

section

variable {δ : Type} [Data δ] {stack other : Stack δ} {reference otherReference : Reference}
  (same : ∀ found, stack.resolve reference = .ok found ↔ other.resolve otherReference = .ok found)

namespace Node

include same

theorem matches_variable (raw : Bool) :
    Rendering.Matches (render (.variable reference raw) stack)
      (render (.variable otherReference raw) other) := by
  rw [render, render]
  apply (Rendering.matches_demand reference otherReference same).bind
  intro found
  apply (Rendering.matches_demand reference otherReference fun content => Iff.rfl).bind
  intro content
  exact .refl _

theorem matches_loop
    {binding otherBinding : String} {body otherBody : List (Node Reference)}
    (inside : ∀ item index length,
      Rendering.Matches (renderAll body (stack.enter binding item index length))
        (renderAll otherBody (other.enter otherBinding item index length))) :
    Rendering.Matches (render (.loop reference binding body) stack)
      (render (.loop otherReference otherBinding otherBody) other) := by
  rw [render, render]
  apply (Rendering.matches_demand reference otherReference same).bind
  intro found
  apply (Rendering.matches_demand reference otherReference fun items => Iff.rfl).bind
  intro items
  apply Rendering.matches_forEach
  intro index item
  exact inside item index items.length

theorem matches_conditional
    {thenBranch otherThen : List (Node Reference)}
    {elseBranch otherElse : Option (List (Node Reference))}
    (first : Rendering.Matches (renderAll thenBranch stack) (renderAll otherThen other))
    (second : Rendering.Matches (renderAll (elseBranch.getD []) stack)
      (renderAll (otherElse.getD []) other)) :
    Rendering.Matches (render (.conditional reference thenBranch elseBranch) stack)
      (render (.conditional otherReference otherThen otherElse) other) := by
  rw [render_conditional_eq_bind, render_conditional_eq_bind]
  apply (Rendering.matches_demand reference otherReference same).bind
  intro found
  split
  · exact first
  · exact second

end Node

end

/-- Parts that match may stand for each other in a tree. -/
theorem Surroundings.matches_fill
    {δ : Type} [Data δ] {nodes others : List (Node Reference)}
    (same : ∀ stack : Stack δ,
      Rendering.Matches (Node.renderAll nodes stack) (Node.renderAll others stack))
    (surroundings : Surroundings Reference) (stack : Stack δ) :
    Rendering.Matches (Node.renderAll (surroundings.fill nodes) stack)
      (Node.renderAll (surroundings.fill others) stack) := by
  induction surroundings generalizing stack with
  | between before after =>
      rw [fill, fill, Node.renderAll_append, Node.renderAll_append, Node.renderAll_append,
        Node.renderAll_append]
      apply Rendering.Matches.bind
      · exact (Rendering.Matches.refl _).bind fun _ => same stack
      · exact fun _ => .refl _
  | inBody before path binding inside after induction =>
      rw [fill, fill, Node.renderAll_append, Node.renderAll_append, Node.renderAll_cons,
        Node.renderAll_cons]
      apply (Rendering.Matches.refl _).bind
      intro done
      apply (Node.matches_loop (fun _ => Iff.rfl) fun item index length => induction _).bind
      exact fun _ => .refl _
  | inThen before path inside elseBranch after induction =>
      rw [fill, fill, Node.renderAll_append, Node.renderAll_append, Node.renderAll_cons,
        Node.renderAll_cons]
      apply (Rendering.Matches.refl _).bind
      intro done
      apply (Node.matches_conditional (fun _ => Iff.rfl) (induction stack) (.refl _)).bind
      exact fun _ => .refl _
  | inElse before path thenBranch inside after induction =>
      rw [fill, fill, Node.renderAll_append, Node.renderAll_append, Node.renderAll_cons,
        Node.renderAll_cons]
      apply (Rendering.Matches.refl _).bind
      intro done
      apply Rendering.Matches.bind
      · apply Node.matches_conditional (fun _ => Iff.rfl) (.refl _)
        exact induction stack
      · exact fun _ => .refl _

theorem Template.render_eq_ok_iff_of_matches
    {δ : Type} [Data δ] {template other : Template} {data : δ}
    (same : Rendering.Matches (Node.renderAll template.nodes (Stack.ofRoot data))
      (Node.renderAll other.nodes (Stack.ofRoot data))) (content : String) :
    template.render data = .ok content ↔ other.render data = .ok content := by
  constructor
  · exact render_of_covers same.1
  · exact render_of_covers same.2

/-- The scope inside of further loops, innermost first. -/
def Scope.inside (scope : Scope) (loops : List LoopScope) : Scope :=
  { scope with loops := loops ++ scope.loops }

/-- The stack inside of further loops that are running, innermost first. -/
def Stack.inside {δ : Type} (stack : Stack δ) (frames : List (Frame δ)) : Stack δ :=
  { stack with frames := frames ++ stack.frames }

/-- Paths that are counterparts inside of loops with the given bindings, innermost first, resolve
alike inside of such loops. -/
def Scope.Mirrors (counterpart : List String → Path → Path → Prop) (scope other : Scope) : Prop :=
  ∀ loops path otherPath, counterpart (loops.map LoopScope.binding) path otherPath →
    Resolution.Alike ((scope.inside loops).resolve path) ((other.inside loops).resolve otherPath)

/-- Paths that are counterparts inside of loops with the given bindings, innermost first, come to
the same while such loops run. -/
def Stack.Mirrors
    {δ : Type} [Data δ] (counterpart : List String → Path → Path → Prop) (stack other : Stack δ) :
    Prop :=
  ∀ frames path otherPath, counterpart (frames.map Frame.binding) path otherPath →
    ∀ marks found,
      (stack.inside frames).resolve (path.mark marks) = .ok found ↔
        (other.inside frames).resolve (otherPath.mark marks) = .ok found

namespace Node

/-- Sequences of nodes inside of loops with the given bindings, innermost first, that differ in
their paths only, each of which has a counterpart. -/
inductive Counterparts (counterpart : List String → Path → Path → Prop) :
    List String → List (Node Path) → List (Node Path) → Prop where
  | nil {bindings : List String} : Counterparts counterpart bindings [] []
  | text {bindings : List String} {content : String} {rest otherRest : List (Node Path)}
      (later : Counterparts counterpart bindings rest otherRest) :
      Counterparts counterpart bindings (.text content :: rest) (.text content :: otherRest)
  | variable {bindings : List String} {path otherPath : Path} {raw : Bool}
      {rest otherRest : List (Node Path)}
      (paths : counterpart bindings path otherPath)
      (later : Counterparts counterpart bindings rest otherRest) :
      Counterparts counterpart bindings (.variable path raw :: rest)
        (.variable otherPath raw :: otherRest)
  | loop {bindings : List String} {path otherPath : Path} {binding : String}
      {body otherBody rest otherRest : List (Node Path)}
      (paths : counterpart bindings path otherPath)
      (inside : Counterparts counterpart (binding :: bindings) body otherBody)
      (later : Counterparts counterpart bindings rest otherRest) :
      Counterparts counterpart bindings (.loop path binding body :: rest)
        (.loop otherPath binding otherBody :: otherRest)
  | conditional {bindings : List String} {path otherPath : Path}
      {thenBranch otherThen rest otherRest : List (Node Path)}
      {elseBranch otherElse : Option (List (Node Path))}
      (paths : counterpart bindings path otherPath)
      (first : Counterparts counterpart bindings thenBranch otherThen)
      (second : Counterparts counterpart bindings (elseBranch.getD []) (otherElse.getD []))
      (later : Counterparts counterpart bindings rest otherRest) :
      Counterparts counterpart bindings (.conditional path thenBranch elseBranch :: rest)
        (.conditional otherPath otherThen otherElse :: otherRest)

namespace Counterparts

variable {counterpart : List String → Path → Path → Prop} {scope other : Scope}
  {bindings : List String} {nodes others : List (Node Path)}

theorem typeErrorsAll_eq_nil_iff
    (counterparts : Counterparts counterpart bindings nodes others)
    (mirrors : scope.Mirrors counterpart other) (loops : List LoopScope)
    (names : loops.map LoopScope.binding = bindings) :
    typeErrorsAll (scope.inside loops) nodes = [] ↔
      typeErrorsAll (other.inside loops) others = [] := by
  induction counterparts generalizing loops with
  | nil => rw [typeErrorsAll, typeErrorsAll]
  | text _ later => simpa [typeErrorsAll, typeErrors] using later loops names
  | «variable» paths _ later =>
      subst names
      have alike := mirrors loops _ _ paths
      rw [typeErrorsAll, typeErrorsAll, typeErrors, typeErrors, List.append_eq_nil_iff,
        List.append_eq_nil_iff, Scope.variableErrors_eq_error?, Scope.variableErrors_eq_error?,
        Option.toList_eq_nil_iff, Option.toList_eq_nil_iff,
        Scope.error?_eq_none_iff_of_alike alike, later loops rfl]
  | @loop _ path otherPath binding _ _ _ _ paths _ _ inside later =>
      subst names
      have alike := mirrors loops _ _ paths
      have body := inside ({ binding, element := (scope.inside loops).elementKind path } :: loops)
        rfl
      rw [typeErrorsAll, typeErrorsAll, typeErrors, typeErrors, List.append_eq_nil_iff,
        List.append_eq_nil_iff, List.append_eq_nil_iff, List.append_eq_nil_iff,
        Scope.loopErrors_eq_error?, Scope.loopErrors_eq_error?, Option.toList_eq_nil_iff,
        Option.toList_eq_nil_iff, Scope.error?_eq_none_iff_of_alike alike, later loops rfl,
        ← Scope.elementKind_eq_of_alike alike]
      exact and_congr_left' (and_congr_right' body)
  | conditional paths _ _ _ first second later =>
      subst names
      have alike := mirrors loops _ _ paths
      rw [typeErrorsAll, typeErrorsAll, typeErrors_conditional, typeErrors_conditional,
        List.append_eq_nil_iff, List.append_eq_nil_iff, List.append_eq_nil_iff,
        List.append_eq_nil_iff, List.append_eq_nil_iff, List.append_eq_nil_iff,
        Scope.conditionErrors_eq_error?, Scope.conditionErrors_eq_error?,
        Option.toList_eq_nil_iff, Option.toList_eq_nil_iff,
        Scope.error?_eq_none_iff_of_alike alike, first loops rfl, second loops rfl, later loops rfl]

variable {δ : Type} [Data δ] {stack otherStack : Stack δ}

/-- Counterparts match, each marked in its scope and rendered on its stack. -/
theorem matches_renderAll
    (counterparts : Counterparts counterpart bindings nodes others)
    (mirrors : scope.Mirrors counterpart other) (running : stack.Mirrors counterpart otherStack)
    (loops : List LoopScope) (frames : List (Frame δ))
    (names : loops.map LoopScope.binding = bindings)
    (frameNames : frames.map Frame.binding = bindings) :
    Rendering.Matches (renderAll (markAll (scope.inside loops) nodes) (stack.inside frames))
      (renderAll (markAll (other.inside loops) others) (otherStack.inside frames)) := by
  induction counterparts generalizing loops frames with
  | nil =>
      rw [markAll, markAll, renderAll_nil, renderAll_nil]
      exact .refl _
  | text _ later =>
      rw [markAll, markAll, mark, mark, renderAll_cons, renderAll_cons, render_text, render_text]
      exact (Rendering.Matches.refl _).bind fun _ => later loops frames names frameNames
  | «variable» paths _ later =>
      obtain ⟨marks, marked, otherMarked⟩ :=
        Scope.exists_mark_of_alike (mirrors loops _ _ (names ▸ paths))
      rw [markAll, markAll, mark, mark, marked, otherMarked, renderAll_cons, renderAll_cons]
      apply (matches_variable (running frames _ _ (frameNames ▸ paths) marks) _).bind
      intro done
      exact later loops frames names frameNames
  | @loop bindings path otherPath binding _ _ _ _ paths _ _ inside later =>
      have alike := mirrors loops _ _ (names ▸ paths)
      obtain ⟨marks, marked, otherMarked⟩ := Scope.exists_mark_of_alike alike
      rw [markAll, markAll, mark, mark, marked, otherMarked, renderAll_cons, renderAll_cons,
        ← Scope.elementKind_eq_of_alike alike]
      apply Rendering.Matches.bind
      · apply matches_loop (running frames _ _ (frameNames ▸ paths) marks)
        intro item index length
        have entered := inside
          ({ binding, element := (scope.inside loops).elementKind path } :: loops)
          ({ binding, element := item, index, length } :: frames)
        exact entered (by rw [List.map_cons, names]) (by rw [List.map_cons, frameNames])
      · intro done
        exact later loops frames names frameNames
  | conditional paths _ _ _ first second later =>
      obtain ⟨marks, marked, otherMarked⟩ :=
        Scope.exists_mark_of_alike (mirrors loops _ _ (names ▸ paths))
      rw [markAll, markAll, mark_conditional, mark_conditional, marked, otherMarked,
        renderAll_cons, renderAll_cons]
      apply Rendering.Matches.bind
      · apply matches_conditional (running frames _ _ (frameNames ▸ paths) marks)
        · exact first loops frames names frameNames
        · rw [getD_map_markAll, getD_map_markAll]
          exact second loops frames names frameNames
      · intro done
        exact later loops frames names frameNames

end Counterparts

end Node

end Stencil
