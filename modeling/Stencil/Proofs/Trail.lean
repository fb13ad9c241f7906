import Stencil.Proofs.Loops

/-!
# Values along a path

At each place of a tree names have values, in one valuation for each enclosing loop and in one
outside of all loops.  A path passes one value for each of its segments; they are found by plain
access to fields, without any regard to marks: where there is no such field, or nothing that could
have fields, the value is missing.  A reference that is in scope comes to the last value if none is
missing, and otherwise the first missing value decides.
-/

namespace Stencil

variable {δ : Type} [Data δ]

namespace Found

/-- The value of a field, absent where there is no such field. -/
def field (found : Found δ) (name : String) : Found δ :=
  match found with
  | .value data =>
      match Data.child data name with
      | some below => .value below
      | none => .absent
  | _ => .absent

/-- Whether there is no value, a null counting as none. -/
def isMissing : Found δ → Bool
  | .value data => Data.isNull data
  | .absent => true
  | _ => false

/-- The values a chain of fields passes, beginning with the one it starts from. -/
def trail (found : Found δ) : List String → List (Found δ)
  | [] => [found]
  | name :: rest => found :: (found.field name).trail rest

/-- What steps come to whose values are given: the last value if none is missing.  Otherwise the
first missing value is absent if its step allows for that, and else a violation, which shows the
path up to this step.  The first step is segment `position` of the reference. -/
def conclude (reference : Reference) (position : Nat) (steps : List Step)
    (values : List (Found δ)) : Except Violation (Found δ) :=
  match values.findIdx? isMissing with
  | none => .ok (values.getLast?.getD .absent)
  | some offset =>
      if (steps[offset]?.map Step.optional).getD false then .ok .absent
      else .error (.missing (reference.path.upTo (position + offset + 1)).shown)

end Found

/-- What the names at a place stand for. -/
def Valuation (δ : Type) := String → Found δ

/-- The valuation at a place, and those outside of the enclosing loops by how many of them are
left. -/
def Valuations (δ : Type) := Nat → Valuation δ

namespace Valuation

/-- Outside of all loops a name stands for a field of the data. -/
def ofRoot (root : δ) : Valuation δ :=
  fun name => (Found.value root).field name

/-- Inside of a loop the binding and the names of the metadata stand for something else. -/
def enter (outside : Valuation δ) (binding : String) (element : δ) (index length : Nat) :
    Valuation δ :=
  fun name =>
    if name = binding then .value element
    else if name = "index" then .index index
    else if name = "first" then .flag (index = 0)
    else if name = "last" then .flag (index = length - 1)
    else outside name

end Valuation

namespace Valuations

/-- Outside of all loops. -/
def ofRoot (root : δ) : Valuations δ :=
  fun _ => .ofRoot root

/-- Inside of one more loop. -/
def enter (valuations : Valuations δ) (binding : String) (element : δ)
    (index length : Nat) : Valuations δ
  | 0 => (valuations 0).enter binding element index length
  | left + 1 => valuations left

/-- The values a path passes: the first segment is read in the valuation outside of the loops
that the path leaves, the others are fields. -/
def trail (valuations : Valuations δ) (path : Path) : List (Found δ) :=
  match path.segments with
  | [] => []
  | first :: rest => (valuations path.hops first).trail rest

def read (valuations : Valuations δ) (reference : Reference) : Except Violation (Found δ) :=
  Found.conclude reference 0 reference.steps (valuations.trail reference.path)

end Valuations

namespace Found

@[simp] theorem length_trail (found : Found δ) (names : List String) :
    (found.trail names).length = names.length + 1 := by
  induction names generalizing found with
  | nil => rfl
  | cons name rest induction => simp [trail, induction]

theorem field_value (data : δ) (name : String) :
    (value data).field name = .ofOption (Data.child data name) := by
  cases below : Data.child data name <;> simp only [field, below, ofOption]

theorem trail_ne_nil (found : Found δ) (names : List String) : found.trail names ≠ [] := by
  cases names <;> simp [trail]

omit [Data δ] in
theorem not_isMetadata_ofOption (below : Option δ) : ¬ (ofOption below).IsMetadata := by
  cases below <;> rintro ⟨⟩

theorem settle_of_isMissing
    {found : Found δ} (missing : found.isMissing = true) (reference : Reference)
    (position : Nat) (step : Step) :
    settle reference position step found =
      if step.optional then .ok .absent
      else .error (.missing (reference.path.upTo (position + 1)).shown) := by
  rw [← Path.textUpTo_eq_shown]
  cases found with
  | value data =>
      have null : Data.isNull data = true := missing
      simp [settle, null]
  | absent => rfl
  | index number => simp [isMissing] at missing
  | flag holds => simp [isMissing] at missing

theorem settle_of_not_isMissing
    {found : Found δ} (present : found.isMissing = false) (reference : Reference)
    (position : Nat) (step : Step) :
    settle reference position step found = .ok found := by
  cases found with
  | value data =>
      have notNull : Data.isNull data = false := present
      simp [settle, notNull]
  | absent => simp [isMissing] at present
  | index number => rfl
  | flag holds => rfl

end Found

namespace Valuations

@[simp] theorem length_trail (valuations : Valuations δ) (path : Path) :
    (valuations.trail path).length = path.segments.length := by
  unfold trail
  cases path.segments <;> simp

theorem exists_getLast?_trail
    (valuations : Valuations δ) {path : Path} (named : path.segments ≠ []) :
    ∃ found, (valuations.trail path).getLast? = some found := by
  have values : valuations.trail path ≠ [] := by
    intro empty
    have length := valuations.length_trail path
    rw [empty] at length
    exact named (List.eq_nil_of_length_eq_zero length.symm)
  exact ⟨_, List.getLast?_eq_some_getLast values⟩

end Valuations

theorem Scope.Refers.named
    {scope : Scope} {reference : Reference} {kind : Kind}
    (refers : scope.Refers reference kind) : reference.path.segments ≠ [] := by
  cases refers with
  | intro _ steps _ _ _ => simp [Reference.path, steps]

namespace Found

variable {reference : Reference}

theorem conclude_of_isMissing
    {found : Found δ} (missing : found.isMissing = true) (position : Nat) (step : Step)
    (steps : List Step) (values : List (Found δ)) :
    conclude reference position (step :: steps) (found :: values) =
      if step.optional then .ok .absent
      else .error (.missing (reference.path.upTo (position + 1)).shown) := by
  simp [conclude, List.findIdx?_cons, missing]

theorem conclude_singleton
    {found : Found δ} (present : found.isMissing = false) (position : Nat)
    (steps : List Step) :
    conclude reference position steps [found] = .ok found := by
  simp [conclude, List.findIdx?_cons, present]

theorem conclude_of_not_isMissing
    {found : Found δ} (present : found.isMissing = false) (position : Nat) (step : Step)
    (steps : List Step) {values : List (Found δ)} (more : values ≠ []) :
    conclude reference position (step :: steps) (found :: values) =
      conclude reference (position + 1) steps values := by
  obtain ⟨next, rest, rfl⟩ := List.exists_cons_of_ne_nil more
  cases missing : (next :: rest).findIdx? isMissing with
  | none => simp [conclude, List.findIdx?_cons (x := found), present, missing]
  | some offset =>
      have place : position + (offset + 1) + 1 = position + 1 + offset + 1 := by omega
      simp [conclude, List.findIdx?_cons (x := found), present, missing, place]

/-- Settling the first of some values and following the other steps comes to what the first missing
value decides. -/
theorem settle_follow_eq_conclude
    {kind last : Kind} {steps : List Step} (leads : kind.Leads steps last) (first : Step)
    {looked : Found δ} (scalar : looked.IsMetadata → kind = .scalar) (position : Nat) :
    (settle reference position first looked).bind
        (fun found => follow reference (position + 1) found steps) =
      conclude reference position (first :: steps) (looked.trail (steps.map Step.name)) := by
  induction leads generalizing first looked position with
  | stay kind =>
      rw [List.map_nil, trail]
      cases missing : looked.isMissing with
      | true =>
          rw [settle_of_isMissing missing, conclude_of_isMissing missing]
          cases first.optional <;> rfl
      | false =>
          rw [settle_of_not_isMissing missing, conclude_singleton missing]
          rfl
  | @step kind field last step rest declared marked below induction =>
      rw [List.map_cons, trail]
      cases missing : looked.isMissing with
      | true =>
          rw [settle_of_isMissing missing, conclude_of_isMissing missing]
          cases first.optional <;> rfl
      | false =>
          rw [settle_of_not_isMissing missing,
            conclude_of_not_isMissing missing _ _ _ (trail_ne_nil _ _)]
          cases looked with
          | value data =>
              rw [Except.bind, follow_value, field_value]
              exact induction step
                (fun metadata => absurd metadata (not_isMetadata_ofOption _)) (position + 1)
          | absent => simp [isMissing] at missing
          | index number =>
              rw [scalar (.index number), Kind.field?_scalar] at declared
              cases declared
          | flag holds =>
              rw [scalar (.flag holds), Kind.field?_scalar] at declared
              cases declared

theorem eq_or_absent_of_settle
    {position : Nat} {step : Step} {looked settled : Found δ}
    (done : settle reference position step looked = .ok settled) :
    settled = looked ∨ settled = .absent := by
  cases missing : looked.isMissing with
  | true =>
      rw [settle_of_isMissing missing] at done
      split at done
      · cases done
        exact .inr rfl
      · cases done
  | false =>
      rw [settle_of_not_isMissing missing] at done
      cases done
      exact .inl rfl

theorem scalar_of_follow
    {kind last : Kind} {steps : List Step} (leads : kind.Leads steps last)
    {looked result : Found δ} {position : Nat} (scalar : looked.IsMetadata → kind = .scalar)
    (followed : follow reference position looked steps = .ok result)
    (metadata : result.IsMetadata) :
    last = .scalar := by
  induction leads generalizing looked position with
  | stay kind =>
      cases followed
      exact scalar metadata
  | @step kind field last step rest declared marked below induction =>
      cases looked with
      | absent =>
          cases followed
          cases metadata
      | value data =>
          rw [follow_value] at followed
          obtain ⟨next, settled, followed⟩ := Violation.exists_of_bind_eq_ok followed
          refine induction ?_ followed
          intro nextMetadata
          rcases eq_or_absent_of_settle settled with rfl | rfl
          · exact absurd nextMetadata (not_isMetadata_ofOption _)
          · cases nextMetadata
      | index number =>
          rw [scalar (.index number), Kind.field?_scalar] at declared
          cases declared
      | flag holds =>
          rw [scalar (.flag holds), Kind.field?_scalar] at declared
          cases declared

end Found

namespace Stack

variable {holds : Kind → δ → Prop} {scope : Scope} {stack : Stack δ} {reference : Reference}
  {kind : Kind}

/-- While the loops of its scope run, a name stands for metadata only where it is declared as a
scalar. -/
theorem RunsIn.scalar_of_isMetadata
    (runs : stack.RunsIn holds scope) {hops : Nat} {name : String}
    (found : (scope.leave hops).find name = some (some kind))
    (metadata : (findIn stack.root name (stack.frames.drop hops)).IsMetadata) :
    kind = .scalar := by
  have refers := findIn_refers stack.root (List.forall₂_drop hops runs) found
  generalize findIn stack.root name (stack.frames.drop hops) = looked at refers metadata
  cases refers with
  | element current => cases metadata
  | metadata _ scalar => exact scalar
  | field entry => exact absurd metadata (Found.not_isMetadata_ofOption _)

theorem scalar_of_resolve
    (runs : stack.RunsIn holds scope) (refers : scope.Refers reference kind)
    {found : Found δ} (resolved : stack.resolve reference = .ok found)
    (metadata : found.IsMetadata) :
    kind = .scalar := by
  cases refers with
  | @intro first rest declared last inRange steps found marked leads =>
      rw [resolve_of_inRange (runs.inRange inRange) steps] at resolved
      obtain ⟨settled, settle, followed⟩ := Violation.exists_of_bind_eq_ok resolved
      refine Found.scalar_of_follow leads ?_ followed metadata
      intro settledMetadata
      rcases Found.eq_or_absent_of_settle settle with rfl | rfl
      · exact runs.scalar_of_isMetadata found settledMetadata
      · cases settledMetadata

end Stack

namespace Valuations

/-- The valuations agree with what a stack finds from each of its loops outwards. -/
def Describes (valuations : Valuations δ) (stack : Stack δ) : Prop :=
  ∀ left ≤ stack.frames.length, ∀ name,
    valuations left name = Stack.findIn stack.root name (stack.frames.drop left)

theorem describes_ofRoot (data : δ) : (ofRoot data).Describes (Stack.ofRoot data) := by
  intro left inRange name
  simp [ofRoot, Valuation.ofRoot, Found.field_value, Stack.ofRoot, Stack.findIn]

theorem Describes.enter
    {valuations : Valuations δ} {stack : Stack δ} (describes : valuations.Describes stack)
    (binding : String) (element : δ) {index length : Nat} (bound : index < length) :
    (valuations.enter binding element index length).Describes
      (stack.enter binding element index length) := by
  intro left inRange name
  cases left with
  | zero =>
      have outside := describes 0 (Nat.zero_le _) name
      rw [List.drop_zero] at outside
      have last : (index = length - 1) ↔ (index + 1 = length) := by omega
      simp only [Valuations.enter, Valuation.enter, Stack.enter, List.drop_zero,
        Stack.findIn, outside]
      by_cases bindingName : name = binding
      · simp [bindingName]
      · rw [if_neg bindingName, if_neg bindingName]
        by_cases indexName : name = "index"
        · subst indexName
          rfl
        by_cases firstName : name = "first"
        · subst firstName
          rfl
        by_cases lastName : name = "last"
        · subst lastName
          simp [last]
          rfl
        have other : Metadata.ofName? name = none := by
          simp [Metadata.ofName?, Metadata.all, Metadata.name, Ne.symm indexName,
            Ne.symm firstName, Ne.symm lastName]
        simp [indexName, firstName, lastName, other]
  | succ left =>
      exact describes left (Nat.le_of_succ_le_succ inRange) name

/-- While the loops of its scope run, a reference comes to what it is read as in valuations that
agree with them. -/
theorem Describes.read
    {valuations : Valuations δ} {stack : Stack δ} (describes : valuations.Describes stack)
    {holds : Kind → δ → Prop} {scope : Scope} (runs : stack.RunsIn holds scope)
    {reference : Reference} {kind : Kind} (refers : scope.Refers reference kind) :
    valuations.read reference = stack.resolve reference := by
  cases refers with
  | @intro first rest declared last inRange steps found marked leads =>
      have values : valuations.trail reference.path =
          (Stack.findIn stack.root first.name (stack.frames.drop reference.hops)).trail
            (rest.map Step.name) := by
        rw [← describes reference.hops (runs.inRange inRange) first.name]
        simp [trail, Reference.path, steps]
      rw [Valuations.read, values, steps, Stack.resolve_of_inRange (runs.inRange inRange) steps,
        ← Found.settle_follow_eq_conclude leads first (runs.scalar_of_isMetadata found) 0]

end Valuations

end Stencil
