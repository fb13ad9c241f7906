import Stencil.Proofs.Following
import Stencil.Proofs.Lookup
import Stencil.Proofs.Parsing
import Stencil.Registry

/-!
# The life of a registry

A registry starts without templates.  What was registered last with success under a name decides
what the name has: the template of a text for good, or that of a file which polls replace whenever
the file has a new time and compiles.  Names do not disturb each other.
-/

namespace Stencil

theorem Template.schema_of_compile {source : String} {schema : Schema} {template : Template}
    (compiled : Template.compile source schema = .ok template) : template.schema = schema := by
  obtain ⟨nodes, accepted, _⟩ := exists_nodes_of_compile compiled
  simp only [Template.check] at accepted
  split at accepted
  · cases accepted
    rfl
  · cases accepted

namespace Registry

/-- Something that happens to a registry or to the files. -/
inductive Event where
  | register (name source : String) (schema : Schema)
  | registerFile (name path : String) (schema : Schema) (isWatched : Bool)
  | poll
  /-- From now on the files are others. -/
  | change (files : Files)

def Event.isRegistration : Event → Bool
  | .register .. | .registerFile .. => true
  | _ => false

/-- A registry and the files at a moment. -/
structure Session where
  registry : Registry
  files : Files

def Session.step (session : Session) : Event → Session
  | .register name source schema =>
      match session.registry.register name source schema with
      | .ok registry => { session with registry }
      | .error _ => session
  | .registerFile name path schema isWatched =>
      match session.registry.registerFile name path schema isWatched session.files with
      | .ok registry => { session with registry }
      | .error _ => session
  | .poll => { session with registry := (session.registry.poll session.files).2 }
  | .change files => { session with files }

abbrev Moment :=
  Stencil.Moment Session Event

/-- What a registry that starts without templates can go through. -/
abbrev Run : List Moment → Session → Prop :=
  Stencil.Run Session.step fun session => session.registry = empty

def find? (registry : Registry) (name : String) : Option Registration :=
  Entries.find? name registry.registrations

/-- Whether the template of a name follows a file. -/
def watches (registry : Registry) (name : String) : Bool :=
  match registry.find? name with
  | some (.live _) => true
  | _ => false

namespace Moment

/-- The name that is registered with success. -/
def registered? (moment : Moment) : Option String :=
  match moment.event with
  | .register name source schema =>
      if (Template.compile source schema).isOk then some name else none
  | .registerFile name path schema _ =>
      if (Template.ofFile path schema moment.session.files).isOk then some name else none
  | _ => none

def registers (name : String) (moment : Moment) : Bool :=
  moment.registered? = some name

/-- A poll that replaces the template of a name. -/
def republishes (name : String) (moment : Moment) : Bool :=
  match moment.event, moment.session.registry.find? name with
  | .poll, some (.live live) => (live.poll moment.session.files).1
  | _, _ => false

/-- A poll while the file is there. -/
def sees (path : String) (moment : Moment) : Bool :=
  match moment.event with
  | .poll => (moment.session.files.modified? path).isSome
  | _ => false

end Moment

def latestRegistration? (name : String) (history : List Moment) : Option Moment :=
  history.find? (Moment.registers name)

/-- The files when the template of a name was compiled last with success. -/
def servedFiles? (name : String) (history : List Moment) : Option Files :=
  (history.find? fun moment => moment.registers name || moment.republishes name).map
    fun moment => moment.session.files

/-- The time of the file of a name that was handled last: the one when the name was registered, or
when a poll saw the file since then. -/
def handledTime? (name path : String) (history : List Moment) : Option FileTime :=
  (history.find? fun moment => moment.registers name || moment.sees path).bind
    fun moment => moment.session.files.modified? path

/-- The template with which a poll replaces that of a name: the file of the name is watched, has a
time that is not handled yet, and compiles. -/
def due? (history : List Moment) (files : Files) (name : String) : Option Template :=
  match (latestRegistration? name history).map Moment.event with
  | some (.registerFile _ path schema true) =>
      match files.modified? path with
      | none => none
      | some time =>
          if handledTime? name path history = some time then none
          else (Template.ofFile path schema files).toOption
  | _ => none

/-- A name has what its latest registration gave it: the template of a text, or that of a file as it
was then or, if the file is watched, as it was served last. -/
def InPlace (history : List Moment) (registry : Registry) (name : String) (latest : Moment) :
    Prop :=
  match latest.event with
  | .register _ source schema =>
      registry.watches name = false ∧
        ∃ template, registry.get? name = some template ∧ template.schema = schema ∧
          Template.compile source schema = .ok template
  | .registerFile _ path schema isWatched =>
      registry.watches name = isWatched ∧
        ∃ template, registry.get? name = some template ∧ template.schema = schema ∧
          ∃ files text,
            (if isWatched then servedFiles? name history else some latest.session.files) =
                some files ∧
              files.read path = .ok text ∧ Template.compile text schema = .ok template
  | _ => False

/-- What the history tells of the registration of a name. -/
inductive AsTold (history : List Moment) (name : String) : Option Registration → Prop where
  | missing (never : latestRegistration? name history = none) : AsTold history name none
  | text {session : Session} {source : String} {schema : Schema} {template : Template}
      (latest : latestRegistration? name history = some ⟨session, .register name source schema⟩)
      (compiled : Template.compile source schema = .ok template) :
      AsTold history name (some (.fixed template))
  | file {session : Session} {path : String} {schema : Schema} {template : Template}
      (latest : latestRegistration? name history =
        some ⟨session, .registerFile name path schema false⟩)
      (compiled : Template.ofFile path schema session.files = .ok template) :
      AsTold history name (some (.fixed template))
  | followed {session : Session} {live : Live} {files : Files}
      (latest : latestRegistration? name history =
        some ⟨session, .registerFile name live.path live.schema true⟩)
      (served : servedFiles? name history = some files)
      (compiled : Template.ofFile live.path live.schema files = .ok live.template)
      (handled : live.handled = handledTime? name live.path history) :
      AsTold history name (some (.live live))

variable {history : List Moment} {session : Session} {moment : Moment} {files : Files}
  {registry : Registry} {name other : String}

theorem find?_insert (registration : Registration) :
    (registry.insert name registration).find? other =
      if other = name then some registration else registry.find? other :=
  Entries.find?_insert name other registration registry.registrations

theorem find?_poll (files : Files) (registry : Registry) (name : String) :
    (registry.poll files).2.find? name =
      (registry.find? name).map fun registration => (pollOne files registration).2 := by
  show Entries.find? name (pollAll files registry.registrations).2 =
    (Entries.find? name registry.registrations).map _
  induction registry.registrations with
  | nil => rfl
  | cons entry rest induction =>
      obtain ⟨head, registration⟩ := entry
      by_cases same : name = head
      · simp [pollAll, Entries.find?, same]
      · simpa [pollAll, Entries.find?, same] using induction

theorem names_poll (files : Files) (registry : Registry) :
    (registry.poll files).2.names = registry.names := by
  show Entries.names (pollAll files registry.registrations).2 =
    Entries.names registry.registrations
  induction registry.registrations with
  | nil => rfl
  | cons entry rest induction =>
      simpa [pollAll, Entries.names] using induction

theorem poll_count (files : Files) (registry : Registry) :
    (registry.poll files).1 =
      registry.registrations.countP fun entry => (pollOne files entry.2).1 := by
  show (pollAll files registry.registrations).1 = _
  induction registry.registrations with
  | nil => rfl
  | cons entry rest induction =>
      obtain ⟨name, registration⟩ := entry
      rw [List.countP_cons, ← induction]
      exact Nat.add_comm _ _

/-- What can come of an event. -/
inductive Stepped (session : Session) : Event → Session → Prop where
  | text {name source : String} {schema : Schema} {template : Template}
      (compiled : Template.compile source schema = .ok template) :
      Stepped session (.register name source schema)
        { session with registry := session.registry.insert name (.fixed template) }
  | file {name path : String} {schema : Schema} {template : Template}
      (compiled : Template.ofFile path schema session.files = .ok template) :
      Stepped session (.registerFile name path schema false)
        { session with registry := session.registry.insert name (.fixed template) }
  | followed {name : String} {live : Live}
      (compiled : Template.ofFile live.path live.schema session.files = .ok live.template)
      (handled : live.handled = session.files.modified? live.path) :
      Stepped session (.registerFile name live.path live.schema true)
        { session with registry := session.registry.insert name (.live live) }
  | refused {event : Event} (registration : event.isRegistration = true)
      (failed : Moment.registered? ⟨session, event⟩ = none) : Stepped session event session
  | poll : Stepped session .poll
      { session with registry := (session.registry.poll session.files).2 }
  | change (files : Files) : Stepped session (.change files) { session with files }

theorem stepped (session : Session) (event : Event) :
    Stepped session event (session.step event) := by
  cases event with
  | register name source schema =>
      simp only [Session.step, register]
      cases compiled : Template.compile source schema with
      | error error =>
          exact .refused rfl (by simp [Moment.registered?, compiled, Except.isOk, Except.toBool])
      | ok template => exact .text compiled
  | registerFile name path schema isWatched =>
      simp only [Session.step, registerFile, Live.start]
      cases compiled : Template.ofFile path schema session.files with
      | error error =>
          exact .refused rfl (by simp [Moment.registered?, compiled, Except.isOk, Except.toBool])
      | ok template =>
          cases isWatched with
          | false => exact .file compiled
          | true =>
              exact @Stepped.followed session name
                ⟨path, schema, template, .watching, session.files.modified? path, true⟩ compiled rfl
  | poll => exact .poll
  | change files => exact .change files

theorem registered?_register {source : String} {schema : Schema} {template : Template}
    (compiled : Template.compile source schema = .ok template) :
    Moment.registered? ⟨session, .register name source schema⟩ = some name := by
  simp [Moment.registered?, compiled, Except.isOk, Except.toBool]

theorem registered?_registerFile {path : String} {schema : Schema} {isWatched : Bool}
    {template : Template} (compiled : Template.ofFile path schema session.files = .ok template) :
    Moment.registered? ⟨session, .registerFile name path schema isWatched⟩ = some name := by
  simp [Moment.registered?, compiled, Except.isOk, Except.toBool]

/-- An event other than a poll puts in place at most the name that it registers. -/
theorem find?_step_of_ne {event : Event} (unpolled : event ≠ .poll)
    (other : Moment.registered? ⟨session, event⟩ ≠ some name) :
    (session.step event).registry.find? name = session.registry.find? name := by
  have happened := stepped session event
  generalize session.step event = next at happened
  cases happened with
  | text compiled =>
      rw [registered?_register compiled] at other
      exact (find?_insert _).trans (if_neg fun same => other (congrArg some same.symm))
  | file compiled | followed compiled =>
      rw [registered?_registerFile compiled] at other
      exact (find?_insert _).trans (if_neg fun same => other (congrArg some same.symm))
  | refused => rfl
  | poll => exact absurd rfl unpolled
  | change => rfl

/-- What a moment that does not touch a name leaves of its history. -/
theorem AsTold.skip {registration : Option Registration} (told : AsTold history name registration)
    (unregistered : moment.registers name = false) (unpolled : moment.event ≠ .poll) :
    AsTold (moment :: history) name registration := by
  obtain ⟨session, event⟩ := moment
  have latest : latestRegistration? name (⟨session, event⟩ :: history) =
      latestRegistration? name history := by
    simp [latestRegistration?, unregistered]
  have unpublished : Moment.republishes name ⟨session, event⟩ = false := by
    cases event <;> first | rfl | exact absurd rfl unpolled
  have unseen (path : String) : Moment.sees path ⟨session, event⟩ = false := by
    cases event <;> first | rfl | exact absurd rfl unpolled
  cases told with
  | missing never => exact .missing (latest.trans never)
  | text last compiled => exact .text (latest.trans last) compiled
  | file last compiled => exact .file (latest.trans last) compiled
  | followed last served compiled handled =>
      refine .followed (latest.trans last) ?_ compiled ?_
      · simpa [servedFiles?, unregistered, unpublished] using served
      · simpa [handledTime?, unregistered, unseen] using handled

theorem AsTold.poll {registration : Option Registration} (told : AsTold history name registration)
    (found : session.registry.find? name = registration) :
    AsTold (⟨session, .poll⟩ :: history) name
      (registration.map fun current => (pollOne session.files current).2) := by
  have unregistered : Moment.registers name ⟨session, .poll⟩ = false := rfl
  have latest : latestRegistration? name (⟨session, .poll⟩ :: history) =
      latestRegistration? name history := by
    simp [latestRegistration?, unregistered]
  cases told with
  | missing never => exact .missing (latest.trans never)
  | text last compiled => exact .text (latest.trans last) compiled
  | file last compiled => exact .file (latest.trans last) compiled
  | @followed _ live files last served compiled handled =>
      have happened := Live.polled session.files live
      have republishes :
          Moment.republishes name ⟨session, .poll⟩ = (live.poll session.files).1 := by
        simp [Moment.republishes, found]
      have served : servedFiles? name (⟨session, .poll⟩ :: history) =
          if (live.poll session.files).1 then some session.files else some files := by
        rw [← republishes, ← served]
        cases republished : Moment.republishes name ⟨session, .poll⟩ <;>
          simp [servedFiles?, unregistered, republished]
      have handled : (live.poll session.files).2.handled =
          handledTime? name live.path (⟨session, .poll⟩ :: history) := by
        rw [Live.handled_poll, handled]
        cases modified : session.files.modified? live.path <;>
          simp [handledTime?, unregistered, Moment.sees, modified]
      show AsTold _ _ (some (.live (live.poll session.files).2))
      -- What is told of the poll depends on its outcome alone.
      generalize live.poll session.files = result at happened served handled
      cases happened with
      | idle current => exact .followed (latest.trans last) served compiled handled
      | renewed outdated modified renewed =>
          exact .followed (latest.trans last) served renewed handled
      | refused outdated modified failed =>
          exact .followed (latest.trans last) served compiled handled

theorem AsTold.registered {event : Event}
    (registered : Moment.registered? ⟨session, event⟩ = some name) :
    AsTold (⟨session, event⟩ :: history) name ((session.step event).registry.find? name) := by
  have registers : Moment.registers name ⟨session, event⟩ = true := by
    simp [Moment.registers, registered]
  have latest : latestRegistration? name (⟨session, event⟩ :: history) =
      some ⟨session, event⟩ := by
    simp [latestRegistration?, registers]
  have served : servedFiles? name (⟨session, event⟩ :: history) = some session.files := by
    simp [servedFiles?, registers]
  have time (path : String) :
      handledTime? name path (⟨session, event⟩ :: history) = session.files.modified? path := by
    simp [handledTime?, registers]
  have happened := stepped session event
  generalize session.step event = next at happened
  cases happened with
  | text compiled =>
      obtain rfl := Option.some.inj ((registered?_register compiled).symm.trans registered)
      rw [find?_insert, if_pos rfl]
      exact .text latest compiled
  | file compiled =>
      obtain rfl := Option.some.inj ((registered?_registerFile compiled).symm.trans registered)
      rw [find?_insert, if_pos rfl]
      exact .file latest compiled
  | followed compiled handled =>
      obtain rfl := Option.some.inj ((registered?_registerFile compiled).symm.trans registered)
      rw [find?_insert, if_pos rfl]
      exact .followed latest served compiled (handled.trans (time _).symm)
  | refused registration failed => cases failed.symm.trans registered
  | poll | change => cases registered

theorem AsTold.step (told : AsTold history name (session.registry.find? name)) (event : Event) :
    AsTold (⟨session, event⟩ :: history) name ((session.step event).registry.find? name) := by
  by_cases registered : Moment.registered? ⟨session, event⟩ = some name
  · exact .registered registered
  · by_cases polled : event = .poll
    · subst polled
      rw [Session.step, find?_poll]
      exact told.poll rfl
    · rw [find?_step_of_ne polled registered]
      exact told.skip (by simp [Moment.registers, registered]) polled

theorem Run.asTold (run : Run history session) (name : String) :
    AsTold history name (session.registry.find? name) := by
  induction run with
  | start started =>
      rw [started]
      exact .missing rfl
  | step run event told => exact told.step event

theorem Run.ordered (run : Run history session) :
    Entries.Ordered session.registry.registrations := by
  induction run with
  | start started =>
      rw [started]
      exact List.Pairwise.nil
  | @step history session run event ordered =>
      have happened := stepped session event
      generalize session.step event = next at happened
      cases happened with
      | text | file | followed => exact ordered.insert _ _
      | refused | change => exact ordered
      | poll => exact (congrArg (List.Pairwise (· < ·)) (names_poll _ _)).mpr ordered

theorem AsTold.isSome_iff {registration : Option Registration}
    (told : AsTold history name registration) :
    registration.isSome ↔ ∃ moment ∈ history, moment.registers name = true := by
  rw [← List.find?_isSome, ← latestRegistration?]
  cases told with
  | missing never => simp [never]
  | text latest | file latest | followed latest => simp [latest]

theorem Run.mem_names_iff (run : Run history session) (name : String) :
    name ∈ session.registry.names ↔ ∃ moment ∈ history, moment.registers name = true :=
  Entries.mem_names_iff.trans (run.asTold name).isSome_iff

/-- A poll publishes for a registration what the history tells to be due. -/
theorem AsTold.poll_due {registration : Option Registration}
    (told : AsTold history name registration) (files : Files) :
    (registration.any fun current => (pollOne files current).1) =
        (due? history files name).isSome ∧
      (registration.map fun current => (pollOne files current).2.current) =
        (due? history files name).or (registration.map Registration.current) := by
  cases told with
  | missing never =>
      have nothing : due? history files name = none := by simp [due?, never]
      simp [nothing]
  | text latest | file latest =>
      have nothing : due? history files name = none := by simp [due?, latest]
      simp [nothing, pollOne]
  | @followed _ live _ latest served compiled handled =>
      have due : due? history files name =
          match files.modified? live.path with
          | none => none
          | some time =>
              if live.handled = some time then none
              else (Template.ofFile live.path live.schema files).toOption := by
        simp only [due?, latest, Option.map_some, handled]
      show (live.poll files).1 = _ ∧ some (live.poll files).2.template = _
      have happened := Live.polled files live
      generalize live.poll files = result at happened
      cases happened with
      | idle current =>
          have nothing : due? history files name = none := by
            rw [due]
            cases modified : files.modified? live.path with
            | none => rfl
            | some time =>
                have same : live.handled = some time := by
                  simpa [Live.isOutdated, modified] using current
                simp [same]
          simp [nothing, Registration.current]
      | @renewed time template outdated modified renewed =>
          have new : live.handled ≠ some time := by
            simpa [Live.isOutdated, modified] using outdated
          have published : due? history files name = some template := by
            simp [due, modified, new, renewed, Except.toOption]
          simp [published]
      | @refused time error outdated modified failed =>
          have new : live.handled ≠ some time := by
            simpa [Live.isOutdated, modified] using outdated
          have nothing : due? history files name = none := by
            simp [due, modified, new, failed, Except.toOption]
          simp [nothing, Registration.current]

theorem get?_eq (registry : Registry) (name : String) :
    registry.get? name = (registry.find? name).map Registration.current :=
  rfl

theorem Run.poll_get? (run : Run history session) (name : String) :
    (session.registry.poll session.files).2.get? name =
      (due? history session.files name).or (session.registry.get? name) := by
  rw [get?_eq, find?_poll, Option.map_map]
  exact ((run.asTold name).poll_due session.files).2

theorem Run.poll_count (run : Run history session) :
    (session.registry.poll session.files).1 =
      session.registry.names.countP fun name => (due? history session.files name).isSome := by
  have distinct := run.ordered.nodup
  have due (name : String) := ((run.asTold name).poll_due session.files).1
  calc (session.registry.poll session.files).1
      = session.registry.registrations.countP
          fun entry => (pollOne session.files entry.2).1 := Registry.poll_count _ _
    _ = session.registry.names.countP fun name =>
          (session.registry.find? name).any fun current => (pollOne session.files current).1 :=
        (Entries.countP_names distinct fun current => (pollOne session.files current).1).symm
    _ = session.registry.names.countP fun name =>
          (due? history session.files name).isSome := by
        simp only [due]

theorem watches_poll (files : Files) (registry : Registry) (name : String) :
    (registry.poll files).2.watches name = registry.watches name := by
  unfold watches
  rw [find?_poll]
  cases registry.find? name with
  | none => rfl
  | some registration => cases registration <;> rfl

/-- What is in place for a name whose latest success is known. -/
theorem Run.latest_in_place (run : Run history session) {name : String} {moment : Moment}
    (latest : latestRegistration? name history = some moment) :
    InPlace history session.registry name moment := by
  have told := run.asTold name
  generalize found : session.registry.find? name = registration at told
  unfold InPlace
  rw [get?_eq, watches, found]
  cases told with
  | missing never => cases never.symm.trans latest
  | @text _ source schema template last compiled =>
      obtain rfl := Option.some.inj (last.symm.trans latest)
      exact ⟨rfl, template, rfl, Template.schema_of_compile compiled, compiled⟩
  | @file registeredIn path schema template last compiled =>
      obtain rfl := Option.some.inj (last.symm.trans latest)
      obtain ⟨text, read, fromText⟩ := Live.exists_text_of_ofFile compiled
      exact ⟨rfl, template, rfl, Template.schema_of_compile fromText, registeredIn.files, text, rfl,
        read, fromText⟩
  | @followed _ live files last served compiled =>
      obtain rfl := Option.some.inj (last.symm.trans latest)
      obtain ⟨text, read, fromText⟩ := Live.exists_text_of_ofFile compiled
      exact ⟨rfl, live.template, rfl, Template.schema_of_compile fromText, files, text, served,
        read, fromText⟩

theorem step_of_failed {event : Event} (registration : event.isRegistration = true)
    (failed : Moment.registered? ⟨session, event⟩ = none) : session.step event = session := by
  have happened := stepped session event
  generalize session.step event = next at happened
  cases happened with
  | text compiled => cases (registered?_register compiled).symm.trans failed
  | file compiled | followed compiled =>
      cases (registered?_registerFile compiled).symm.trans failed
  | refused => rfl
  | poll | change => cases registration

/-- After any run, the names are those that were registered with success, and the latest success
decides what a name has.  A failure changes nothing, a success no other name, and a poll replaces
and counts the templates whose files have a time that is not handled yet and compile. -/
theorem Run.names_entries_and_poll (run : Run history session) :
    session.registry.names.Nodup ∧
    (∀ name, name ∈ session.registry.names ↔ ∃ moment ∈ history, moment.registers name = true) ∧
    (∀ name latest, latestRegistration? name history = some latest →
      InPlace history session.registry name latest) ∧
    (∀ event, event.isRegistration = true → Moment.registered? ⟨session, event⟩ = none →
      session.step event = session) ∧
    (∀ event name, Moment.registered? ⟨session, event⟩ = some name → ∀ other, other ≠ name →
      (session.step event).registry.get? other = session.registry.get? other ∧
        (session.step event).registry.watches other = session.registry.watches other) ∧
    (session.registry.poll session.files).1 =
      session.registry.names.countP (fun name => (due? history session.files name).isSome) ∧
    (session.registry.poll session.files).2.names = session.registry.names ∧
    (∀ name,
      (session.registry.poll session.files).2.get? name =
          (due? history session.files name).or (session.registry.get? name) ∧
        (session.registry.poll session.files).2.watches name = session.registry.watches name ∧
        ∀ live, session.registry.find? name = some (.live live) →
          (session.registry.poll session.files).2.find? name =
            some (.live (live.poll session.files).2)) := by
  refine ⟨run.ordered.nodup, run.mem_names_iff, fun name latest => run.latest_in_place,
    fun event => step_of_failed, ?_, run.poll_count, names_poll _ _, ?_⟩
  · intro event name registered other different
    have unpolled : event ≠ .poll := by
      rintro rfl
      cases registered
    have same : (session.step event).registry.find? other = session.registry.find? other := by
      refine find?_step_of_ne unpolled ?_
      rw [registered]
      exact fun same => different (Option.some.inj same).symm
    rw [get?_eq, get?_eq, watches, watches, same]
    exact ⟨rfl, rfl⟩
  · intro name
    refine ⟨run.poll_get? name, watches_poll _ _ name, ?_⟩
    intro live found
    rw [find?_poll, found]
    rfl

end Registry

/-- The page is watched, a text that does not compile is refused, and the file gets a new text. -/
def boardEvents : List Registry.Event :=
  [ .register "note" "Hi" pageSchema, .registerFile "page" "page" pageSchema true,
    .register "page" "Bye \x7b\x7b" pageSchema, .change (page "Welcome" 2) ]

def boardLife : List Registry.Moment × Registry.Session :=
  Run.follow Registry.Session.step
    ([], { registry := .empty, files := page "Hello" 1 }) boardEvents

theorem boardLife_is_run : Registry.Run boardLife.1 boardLife.2 := by
  have empty : Registry.Run [] { registry := .empty, files := page "Hello" 1 } := .start rfl
  exact Run.run_follow empty boardEvents

/-- A poll replaces the page and nothing else. -/
theorem board_polled :
    (boardLife.2.registry.poll boardLife.2.files).1 = 1 ∧
      (boardLife.2.registry.poll boardLife.2.files).2.get? "page" =
        some { nodes := [.text "Welcome"], schema := pageSchema } ∧
      (boardLife.2.registry.poll boardLife.2.files).2.get? "note" =
        boardLife.2.registry.get? "note" := by
  obtain ⟨_, _, _, _, _, count, _, polled⟩ := boardLife_is_run.names_entries_and_poll
  refine ⟨count.trans ?_, (polled "page").1.trans ?_, (polled "note").1.trans ?_⟩
  · cbv
  · cbv
  · cbv

end Stencil
