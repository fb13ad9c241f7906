import Mathlib
import Stencil.Live

/-!
# The life of a live template

A session changes with the events that happen in it.  A run remembers each event together with the
session in which it happened.

A live template is opened once and then polled, watched and left alone in any order, while its
file changes in any way.  The history of such a life tells which template is published and what
state is shown: the template is that of the file when it was last compiled with success, and the
state is a failure as long as nothing has made up for it.
-/

namespace Stencil

section

variable {σ ε : Type}

/-- An event and the session it happens in. -/
structure Moment (σ ε : Type) where
  session : σ
  event : ε

/-- What a session can go through.  The history has the latest moment first. -/
inductive Run (step : σ → ε → σ) (starts : σ → Prop) : List (Moment σ ε) → σ → Prop where
  | start {session : σ} (started : starts session) : Run step starts [] session
  | step {history : List (Moment σ ε)} {session : σ} (run : Run step starts history session)
      (event : ε) : Run step starts ({ session, event } :: history) (step session event)

/-- The history and the session after some more events. -/
def Run.follow (step : σ → ε → σ) (past : List (Moment σ ε) × σ) (events : List ε) :
    List (Moment σ ε) × σ :=
  events.foldl (fun (history, session) event => ({ session, event } :: history, step session event))
    past

/-- A run goes on with any events. -/
theorem Run.run_follow {step : σ → ε → σ} {starts : σ → Prop} {history : List (Moment σ ε)}
    {session : σ} (run : Run step starts history session) (events : List ε) :
    Run step starts (Run.follow step (history, session) events).1
      (Run.follow step (history, session) events).2 := by
  induction events generalizing history session with
  | nil => exact run
  | cons event rest further => exact further (run.step event)

end

namespace Live

/-- Something that happens to a live template or to the files. -/
inductive Event where
  | poll
  | watch
  | unwatch
  /-- From now on the files are others. -/
  | change (files : Files)

/-- A live template and the files at a moment. -/
structure Session where
  live : Live
  files : Files

def Session.step (session : Session) : Event → Session
  | .poll => { session with live := (session.live.poll session.files).2 }
  | .watch => { session with live := session.live.watch }
  | .unwatch => { session with live := session.live.unwatch }
  | .change files => { session with files }

abbrev Moment :=
  Stencil.Moment Session Event

/-- What a live template that is opened in a state of the files can go through. -/
abbrev Run (path : String) (schema : Schema) (opened : Files) : List Moment → Session → Prop :=
  Stencil.Run Session.step fun session =>
    session.files = opened ∧ Live.start path schema opened = .ok session.live

/-- Whether the file is there with another time than the one handled last, so that a poll compiles
it again. -/
def isOutdated (files : Files) (live : Live) : Bool :=
  match files.modified? live.path with
  | none => false
  | some time => live.handled ≠ some time

namespace Moment

/-- A poll that answers that there is a new template. -/
def publishes (moment : Moment) : Bool :=
  match moment.event with
  | .poll => (moment.session.live.poll moment.session.files).1
  | _ => false

/-- The error of a poll that compiles the file again without success. -/
def failure? (moment : Moment) : Option FileError :=
  let live := moment.session.live
  match moment.event with
  | .poll =>
      if live.isOutdated moment.session.files then
        match Template.ofFile live.path live.schema moment.session.files with
        | .error error => some error
        | .ok _ => none
      else none
  | _ => none

/-- The end of a watch. -/
def stops (moment : Moment) : Bool :=
  match moment.event with
  | .unwatch => moment.session.live.isWatched
  | _ => false

/-- What makes up for earlier failures. -/
def settles (moment : Moment) : Bool :=
  moment.publishes || moment.stops

/-- The start of a watch, or its end. -/
def isAboutWatching (moment : Moment) : Bool :=
  match moment.event with
  | .watch | .unwatch => true
  | _ => false

end Moment

/-- The files when the file was last compiled with success. -/
def servedFiles (opened : Files) (history : List Moment) : Files :=
  match history.find? Moment.publishes with
  | some moment => moment.session.files
  | none => opened

/-- The latest failure, unless something has made up for it. -/
def pendingFailure? (history : List Moment) : Option FileError :=
  (history.takeWhile fun moment => !moment.settles).findSome? Moment.failure?

def isBeingWatched (history : List Moment) : Bool :=
  match history.find? Moment.isAboutWatching with
  | some { event := .watch, .. } => true
  | _ => false

def shownState (history : List Moment) : WatchState :=
  match pendingFailure? history with
  | some error => .failed error
  | none => if isBeingWatched history then .watching else .unwatched

/-- What is opened has the template of its file and is not watched. -/
theorem eq_of_start {path : String} {schema : Schema} {files : Files} {live : Live}
    (started : Live.start path schema files = .ok live) :
    ∃ template, Template.ofFile path schema files = .ok template ∧
      live = { path, schema, template, state := .unwatched, handled := files.modified? path,
               isWatched := false } := by
  unfold Live.start at started
  cases compiled : Template.ofFile path schema files with
  | error error => simp [compiled] at started
  | ok template =>
      simp only [compiled, Except.ok.injEq] at started
      exact ⟨template, rfl, started.symm⟩

/-- What a poll can come to. -/
inductive Polled (files : Files) (live : Live) : Bool × Live → Prop where
  | idle (current : live.isOutdated files = false) : Polled files live (false, live)
  | renewed {time : FileTime} {template : Template} (outdated : live.isOutdated files = true)
      (modified : files.modified? live.path = some time)
      (compiled : Template.ofFile live.path live.schema files = .ok template) :
      Polled files live
        (true, { live with template, handled := some time, state := live.settled })
  | refused {time : FileTime} {error : FileError} (outdated : live.isOutdated files = true)
      (modified : files.modified? live.path = some time)
      (failed : Template.ofFile live.path live.schema files = .error error) :
      Polled files live (false, { live with handled := some time, state := .failed error })

theorem polled (files : Files) (live : Live) : Polled files live (live.poll files) := by
  unfold poll
  cases modified : files.modified? live.path with
  | none => exact .idle (by simp [isOutdated, modified])
  | some time =>
      by_cases handled : live.handled = some time
      · simp only [handled, if_true]
        exact .idle (by simp [isOutdated, modified, handled])
      · have outdated : live.isOutdated files = true := by simp [isOutdated, modified, handled]
        simp only [handled, if_false, recompile]
        cases compiled : Template.ofFile live.path live.schema files with
        | ok template => exact .renewed outdated modified compiled
        | error error => exact .refused outdated modified compiled

/-- A poll tells of a new template only when it compiled one, and then puts it in place. -/
theorem template_eq_of_poll_eq_false {files : Files} {live : Live}
    (same : (live.poll files).1 = false) : (live.poll files).2.template = live.template := by
  have happened := polled files live
  generalize live.poll files = result at same happened
  cases happened with
  | idle => rfl
  | renewed => simp at same
  | refused => rfl

theorem handled_poll (files : Files) (live : Live) :
    (live.poll files).2.handled = (files.modified? live.path).or live.handled := by
  have happened := polled files live
  generalize live.poll files = result at happened
  cases happened with
  | idle current =>
      cases modified : files.modified? live.path with
      | none => rfl
      | some time =>
          have handled : live.handled = some time := by simpa [isOutdated, modified] using current
          simp [handled]
  | renewed outdated modified compiled => simp [modified]
  | refused outdated modified failed => simp [modified]

/-- A watch, once started, touches only the state. -/
theorem watch_eq (live : Live) :
    live.watch = { live with isWatched := true, state := live.watch.state } := by
  obtain ⟨path, schema, template, state, handled, isWatched⟩ := live
  cases isWatched with
  | true => rfl
  | false => cases state <;> rfl

theorem unwatch_eq (live : Live) :
    live.unwatch = { live with isWatched := false, state := live.unwatch.state } := by
  obtain ⟨path, schema, template, state, handled, isWatched⟩ := live
  cases isWatched <;> rfl

theorem servedFiles_cons (opened : Files) (moment : Moment) (history : List Moment) :
    servedFiles opened (moment :: history) =
      if moment.publishes then moment.session.files else servedFiles opened history := by
  cases publishes : moment.publishes <;> simp [servedFiles, publishes]

theorem pendingFailure?_cons (moment : Moment) (history : List Moment) :
    pendingFailure? (moment :: history) =
      if moment.settles then none else moment.failure?.or (pendingFailure? history) := by
  cases settles : moment.settles with
  | true => simp [pendingFailure?, settles]
  | false =>
      cases failure : moment.failure? <;>
        simp [pendingFailure?, settles, failure]

theorem isBeingWatched_cons (moment : Moment) (history : List Moment) :
    isBeingWatched (moment :: history) =
      match moment.event with
      | .watch => true
      | .unwatch => false
      | _ => isBeingWatched history := by
  obtain ⟨session, event⟩ := moment
  cases event <;> simp [isBeingWatched, List.find?_cons, Moment.isAboutWatching]

/-- A failure that is pending is shown as it is. -/
theorem shownState_eq_failed_iff {history : List Moment} {error : FileError} :
    shownState history = .failed error ↔ pendingFailure? history = some error := by
  unfold shownState
  cases pendingFailure? history with
  | none => cases isBeingWatched history <;> simp
  | some pending => simp

/-- Without a pending failure, the state is that of the watch. -/
theorem shownState_of_none {history : List Moment} (settled : pendingFailure? history = none) :
    shownState history = if isBeingWatched history then .watching else .unwatched := by
  simp [shownState, settled]

/-- What the history tells of a live template. -/
structure AsTold (path : String) (schema : Schema) (opened : Files) (history : List Moment)
    (live : Live) : Prop where
  path_eq : live.path = path
  schema_eq : live.schema = schema
  served : Template.ofFile path schema (servedFiles opened history) = .ok live.template
  watched : live.isWatched = isBeingWatched history
  shown : live.state = shownState history

variable {path : String} {schema : Schema} {opened files : Files} {history : List Moment}
  {live : Live} {session : Session}

theorem AsTold.start (started : Live.start path schema opened = .ok live) :
    AsTold path schema opened [] live := by
  obtain ⟨template, compiled, rfl⟩ := eq_of_start started
  exact ⟨rfl, rfl, compiled, rfl, rfl⟩

/-- Nothing that is told changes at a moment that neither compiles the file nor is about
watching. -/
theorem AsTold.skip (told : AsTold path schema opened history live) {moment : Moment}
    (unpublished : moment.publishes = false) (unfailed : moment.failure? = none)
    (unsettled : moment.settles = false)
    (watched : isBeingWatched (moment :: history) = isBeingWatched history) :
    AsTold path schema opened (moment :: history) live where
  path_eq := told.path_eq
  schema_eq := told.schema_eq
  served := by
    rw [servedFiles_cons, unpublished]
    exact told.served
  watched := by
    rw [watched]
    exact told.watched
  shown := by
    have pending : pendingFailure? (moment :: history) = pendingFailure? history := by
      rw [pendingFailure?_cons, unsettled, unfailed]
      rfl
    rw [told.shown, shownState, shownState, pending, watched]

theorem AsTold.poll (told : AsTold path schema opened history live) :
    AsTold path schema opened (⟨⟨live, files⟩, .poll⟩ :: history) (live.poll files).2 := by
  have happened := polled files live
  have publishes : Moment.publishes ⟨⟨live, files⟩, .poll⟩ = (live.poll files).1 := rfl
  have unstopped : Moment.stops ⟨⟨live, files⟩, .poll⟩ = false := rfl
  generalize live.poll files = result at happened publishes
  cases happened with
  | idle current =>
      refine told.skip publishes ?_ ?_ (isBeingWatched_cons _ _)
      · simp [Moment.failure?, current]
      · simp [Moment.settles, publishes, unstopped]
  | renewed outdated modified compiled =>
      have pending : pendingFailure? (⟨⟨live, files⟩, .poll⟩ :: history) = none := by
        simp [pendingFailure?_cons, Moment.settles, publishes]
      have watched : isBeingWatched (⟨⟨live, files⟩, .poll⟩ :: history) = isBeingWatched history :=
        isBeingWatched_cons _ _
      refine ⟨told.path_eq, told.schema_eq, ?_, ?_, ?_⟩
      · rw [servedFiles_cons, publishes, ← told.path_eq, ← told.schema_eq]
        exact compiled
      · rw [watched]
        exact told.watched
      · rw [shownState_of_none pending, watched, ← told.watched]
        rfl
  | @refused time error outdated modified failed =>
      have pending : pendingFailure? (⟨⟨live, files⟩, .poll⟩ :: history) = some error := by
        simp [pendingFailure?_cons, Moment.settles, publishes, unstopped, Moment.failure?, outdated,
          failed]
      refine ⟨told.path_eq, told.schema_eq, ?_, ?_, ?_⟩
      · rw [servedFiles_cons, publishes]
        exact told.served
      · rw [isBeingWatched_cons]
        exact told.watched
      · exact (shownState_eq_failed_iff.mpr pending).symm

theorem AsTold.watch (told : AsTold path schema opened history live) :
    AsTold path schema opened (⟨⟨live, files⟩, .watch⟩ :: history) live.watch := by
  have watched : isBeingWatched (⟨⟨live, files⟩, .watch⟩ :: history) = true :=
    isBeingWatched_cons _ _
  unfold Live.watch
  by_cases already : live.isWatched = true
  · rw [if_pos already]
    refine told.skip rfl rfl rfl ?_
    rw [watched, ← told.watched, already]
  · rw [if_neg already]
    have unwatched : isBeingWatched history = false := by
      rw [← told.watched]
      exact Bool.eq_false_iff.mpr already
    have pending :
        pendingFailure? (⟨⟨live, files⟩, .watch⟩ :: history) = pendingFailure? history := by
      rw [pendingFailure?_cons]
      rfl
    have served : Template.ofFile path schema
        (servedFiles opened (⟨⟨live, files⟩, .watch⟩ :: history)) = .ok live.template := by
      rw [servedFiles_cons]
      exact told.served
    have shown := told.shown
    -- A state that is not a failure becomes that of a watch; a failure stays.
    cases failure : pendingFailure? history with
    | none =>
        rw [shownState_of_none failure, unwatched] at shown
        rw [shown]
        refine ⟨told.path_eq, told.schema_eq, served, watched.symm, ?_⟩
        rw [shownState_of_none (pending.trans failure), watched]
        rfl
    | some error =>
        rw [shownState_eq_failed_iff.mpr failure] at shown
        rw [shown]
        refine ⟨told.path_eq, told.schema_eq, served, watched.symm, ?_⟩
        rw [shownState_eq_failed_iff.mpr (pending.trans failure)]

theorem AsTold.unwatch (told : AsTold path schema opened history live) :
    AsTold path schema opened (⟨⟨live, files⟩, .unwatch⟩ :: history) live.unwatch := by
  have unwatched : isBeingWatched (⟨⟨live, files⟩, .unwatch⟩ :: history) = false :=
    isBeingWatched_cons _ _
  unfold Live.unwatch
  by_cases watched : live.isWatched = true
  · rw [if_pos watched]
    have pending : pendingFailure? (⟨⟨live, files⟩, .unwatch⟩ :: history) = none := by
      simp [pendingFailure?_cons, Moment.settles, Moment.stops, watched]
    refine ⟨told.path_eq, told.schema_eq, ?_, unwatched.symm, ?_⟩
    · rw [servedFiles_cons]
      exact told.served
    · rw [shownState_of_none pending, unwatched]
      rfl
  · rw [if_neg watched]
    have still : live.isWatched = false := Bool.eq_false_iff.mpr watched
    refine told.skip rfl rfl ?_ ?_
    · simp [Moment.settles, Moment.publishes, Moment.stops, still]
    · rw [unwatched, ← told.watched, still]

theorem AsTold.change (told : AsTold path schema opened history live) (changed : Files) :
    AsTold path schema opened (⟨⟨live, files⟩, .change changed⟩ :: history) live :=
  told.skip rfl rfl rfl (isBeingWatched_cons _ _)

theorem AsTold.step (told : AsTold path schema opened history session.live) (event : Event) :
    AsTold path schema opened (⟨session, event⟩ :: history) (session.step event).live := by
  cases event with
  | poll => exact told.poll
  | watch => exact told.watch
  | unwatch => exact told.unwatch
  | change changed => exact told.change changed

theorem Run.asTold (run : Run path schema opened history session) :
    AsTold path schema opened history session.live := by
  induction run with
  | start started => exact .start started.2
  | step run event told => exact told.step event

theorem exists_text_of_ofFile {template : Template}
    (compiled : Template.ofFile path schema files = .ok template) :
    ∃ text, files.read path = .ok text ∧ Template.compile text schema = .ok template := by
  unfold Template.ofFile readFile at compiled
  cases text : files.read path with
  | error fault => simp [text] at compiled
  | ok content =>
      refine ⟨content, rfl, ?_⟩
      cases result : Template.compile content schema with
      | error error => simp [text, result] at compiled
      | ok found =>
          simp only [text, result, Except.ok.injEq] at compiled
          rw [compiled]

/-- After any run, the template is that of the text that the file had at the latest poll with a new
template, or at the start, and the state is the failure that is pending, or else tells whether the
file is being watched. -/
theorem Run.template_and_state (run : Run path schema opened history session) :
    (∃ text, (servedFiles opened history).read path = .ok text ∧
      Template.compile text schema = .ok session.live.template) ∧
    ((session.live.poll session.files).1 = false →
      (session.live.poll session.files).2.template = session.live.template) ∧
    session.live.state ≠ .recompiling ∧
    (∀ error, session.live.state = .failed error ↔ pendingFailure? history = some error) ∧
    (pendingFailure? history = none →
      session.live.state = if isBeingWatched history then .watching else .unwatched) := by
  have told := run.asTold
  refine ⟨exists_text_of_ofFile told.served, template_eq_of_poll_eq_false, ?_, ?_, ?_⟩
  · rw [told.shown, shownState]
    cases pendingFailure? history with
    | none => cases isBeingWatched history <;> simp
    | some error => simp
  · intro error
    rw [told.shown]
    exact shownState_eq_failed_iff
  · intro settled
    rw [told.shown]
    exact shownState_of_none settled

end Live

def pageSchema : Schema :=
  { fields := [] }

def page (text : String) (seconds : Int) : Files :=
  Files.empty.write "page" text.toUTF8 seconds

def greeting : Live :=
  { path := "page", schema := pageSchema
    template := { nodes := [.text "Hello"], schema := pageSchema }
    state := .unwatched, handled := some (.stamped 1), isWatched := false }

/-- The page gets a new text while it is watched, and then one that does not compile. -/
def pageEvents : List Live.Event :=
  [.watch, .change (page "Welcome" 2), .poll, .change (page "Bye \x7b\x7b" 3), .poll, .poll]

def pageLife : List Live.Moment × Live.Session :=
  Run.follow Live.Session.step ([], { live := greeting, files := page "Hello" 1 }) pageEvents

theorem pageLife_is_run :
    Live.Run "page" pageSchema (page "Hello" 1) pageLife.1 pageLife.2 :=
  Run.run_follow (.start ⟨rfl, by cbv⟩) pageEvents

/-- The directive of the last text is never closed. -/
def unclosed : FileError :=
  .invalid "page" (.lex (.unterminated { offset := 4, line := 1, column := 5 }))

/-- The page still welcomes, and the failure is shown. -/
theorem page_stays_welcoming :
    Template.compile "Welcome" pageSchema = .ok pageLife.2.live.template ∧
      pageLife.2.live.state = .failed unclosed := by
  obtain ⟨⟨text, served, compiled⟩, _, _, failed, _⟩ := pageLife_is_run.template_and_state
  have welcome : (Live.servedFiles (page "Hello" 1) pageLife.1).read "page" = .ok "Welcome" := by
    cbv
  have sameText : text = "Welcome" := by
    rw [welcome] at served
    exact (Except.ok.inj served).symm
  refine ⟨sameText ▸ compiled, (failed _).mpr ?_⟩
  cbv

end Stencil
