import Stencil.Proofs.Following

/-!
# Polls keep up with a file

A live template notices a change by the time of its file alone.  As long as no two contents of the
file share a time, a poll that finds the file leaves the template of what the file holds then, or,
if that does not compile, the template compiled last and a failure.  A poll that finds no other
time than the one handled last does nothing.
-/

namespace Stencil

theorem Template.ofFile_congr {path : String} {schema : Schema} {files others : Files}
    (same : files.read path = others.read path) :
    Template.ofFile path schema files = Template.ofFile path schema others := by
  unfold Template.ofFile readFile
  rw [same]

namespace Live

/-- Contents of the file at different states that share a time are the same. -/
def Timely (path : String) (states : List Files) : Prop :=
  ∀ first ∈ states, ∀ second ∈ states, ∀ time,
    first.modified? path = some time → second.modified? path = some time →
      first.read path = second.read path

/-- The states that the files go through. -/
def fileStates (opened : Files) (history : List Moment) (session : Session) : List Files :=
  opened :: session.files :: history.map fun moment => moment.session.files

theorem Timely.of_subset {path : String} {states others : List Files} (timely : Timely path states)
    (subset : others ⊆ states) : Timely path others :=
  fun first firstIn second secondIn =>
    timely first (subset firstIn) second (subset secondIn)

/-- A poll that finds the file. -/
def Moment.sees (path : String) (moment : Moment) : Bool :=
  match moment.event with
  | .poll => (moment.session.files.modified? path).isSome
  | _ => false

/-- A poll that compiles the file. -/
def Moment.compiles (moment : Moment) : Bool :=
  match moment.event with
  | .poll => moment.session.live.isOutdated moment.session.files
  | _ => false

def Moment.isPoll (moment : Moment) : Bool :=
  match moment.event with
  | .poll => true
  | _ => false

/-- The files when the file was seen last. -/
def seenFiles (path : String) (opened : Files) (history : List Moment) : Files :=
  match history.find? (Moment.sees path) with
  | some moment => moment.session.files
  | none => opened

def polledFiles (opened : Files) (history : List Moment) : Files :=
  match history.find? Moment.isPoll with
  | some moment => moment.session.files
  | none => opened

/-- A poll has found the file with this content, then a watch has ended, and the file has not been
compiled since. -/
def HandledBeforeStop (path : String) (files : Files) (history : List Moment) : Prop :=
  ∃ later stop earlier, history = later ++ stop :: earlier ∧
    (∀ moment ∈ later, moment.compiles = false) ∧ stop.stops = true ∧
    ∃ moment ∈ earlier, moment.sees path = true ∧
      moment.session.files.modified? path = files.modified? path ∧
      moment.session.files.read path = files.read path

variable {path : String} {schema : Schema} {opened files : Files} {history : List Moment}
  {session : Session} {moment : Moment}

theorem HandledBeforeStop.cons (handled : HandledBeforeStop path files history)
    (idle : moment.compiles = false) : HandledBeforeStop path files (moment :: history) := by
  obtain ⟨later, stop, earlier, rfl, quiet, rest⟩ := handled
  refine ⟨moment :: later, stop, earlier, rfl, ?_, rest⟩
  intro other member
  cases member with
  | head => exact idle
  | tail _ inLater => exact quiet other inLater

theorem HandledBeforeStop.of_cons (handled : HandledBeforeStop path files (moment :: history))
    (goesOn : moment.stops = false) : HandledBeforeStop path files history := by
  obtain ⟨later, stop, earlier, split, quiet, stops, rest⟩ := handled
  -- The end of the watch is not the latest moment.
  cases later with
  | nil =>
      obtain ⟨rfl, rfl⟩ := List.cons.inj split
      simp [goesOn] at stops
  | cons first later =>
      obtain ⟨rfl, rfl⟩ := List.cons.inj split
      exact ⟨later, stop, earlier, rfl, fun other inLater => quiet other (.tail _ inLater), stops,
        rest⟩

theorem HandledBeforeStop.congr {others : Files} (handled : HandledBeforeStop path files history)
    (sameTime : files.modified? path = others.modified? path)
    (sameText : files.read path = others.read path) :
    HandledBeforeStop path others history := by
  obtain ⟨later, stop, earlier, split, quiet, stops, moment, member, sees, time, text⟩ := handled
  exact ⟨later, stop, earlier, split, quiet, stops, moment, member, sees, time.trans sameTime,
    text.trans sameText⟩

theorem seenFiles_cons_of_sees (sees : moment.sees path = true) :
    seenFiles path opened (moment :: history) = moment.session.files := by
  simp [seenFiles, sees]

theorem seenFiles_cons_of_not_sees (unseen : moment.sees path = false) :
    seenFiles path opened (moment :: history) = seenFiles path opened history := by
  simp [seenFiles, unseen]

/-- The file was seen last when it was opened, or at a poll. -/
theorem seenFiles_cases (path : String) (opened : Files) (history : List Moment) :
    seenFiles path opened history = opened ∨
      ∃ moment ∈ history, moment.sees path = true ∧
        seenFiles path opened history = moment.session.files := by
  unfold seenFiles
  cases found : history.find? (Moment.sees path) with
  | none => exact .inl rfl
  | some moment =>
      exact .inr ⟨moment, List.mem_of_find?_eq_some found, List.find?_some found, rfl⟩

theorem seenFiles_mem_fileStates :
    seenFiles path opened history ∈ fileStates opened history session := by
  obtain same | ⟨moment, member, _, same⟩ := seenFiles_cases path opened history
  · simp [fileStates, same]
  · rw [same]
    exact .tail _ (.tail _ (List.mem_map.mpr ⟨moment, member, rfl⟩))

theorem modified?_seenFiles_cons_poll (live : Live) (files : Files) :
    (seenFiles path opened (⟨⟨live, files⟩, .poll⟩ :: history)).modified? path =
      (files.modified? path).or ((seenFiles path opened history).modified? path) := by
  cases modified : files.modified? path with
  | none =>
      rw [seenFiles_cons_of_not_sees (by simp [Moment.sees, modified])]
      rfl
  | some time =>
      rw [seenFiles_cons_of_sees (by simp [Moment.sees, modified])]
      exact modified

/-- The time handled last is the one at which the file was seen last. -/
theorem Run.handled_eq (run : Run path schema opened history session) :
    session.live.handled = (seenFiles path opened history).modified? path := by
  induction run with
  | start started =>
      obtain ⟨template, _, same⟩ := eq_of_start started.2
      rw [same]
      rfl
  | @step history session run event handled =>
      obtain ⟨live, files⟩ := session
      cases event with
      | poll =>
          rw [modified?_seenFiles_cons_poll, ← handled, ← (Run.asTold run).path_eq]
          exact handled_poll files live
      | watch =>
          rw [seenFiles_cons_of_not_sees rfl]
          exact (congrArg Live.handled (watch_eq live)).trans handled
      | unwatch =>
          rw [seenFiles_cons_of_not_sees rfl]
          exact (congrArg Live.handled (unwatch_eq live)).trans handled
      | change changed =>
          rw [seenFiles_cons_of_not_sees rfl]
          exact handled

theorem Run.isOutdated_iff (run : Run path schema opened history session) :
    session.live.isOutdated session.files = true ↔
      ∃ time, session.files.modified? path = some time ∧
        (seenFiles path opened history).modified? path ≠ some time := by
  rw [← run.handled_eq, isOutdated, run.asTold.path_eq]
  cases session.files.modified? path with
  | none => simp
  | some time => simp

/-- A poll that compiles the file handles a new time, so it never leaves everything as it was. -/
theorem poll_eq_iff (files : Files) (live : Live) :
    live.poll files = (false, live) ↔ live.isOutdated files = false := by
  have happened := polled files live
  have handled := handled_poll files live
  generalize live.poll files = result at happened handled
  cases happened with
  | idle current => simp [current]
  | renewed outdated modified compiled => simp [outdated]
  | refused outdated modified failed =>
      refine iff_of_false ?_ (by simp [outdated])
      intro same
      have unchanged := congrArg (fun result => result.2.handled) same
      simp [isOutdated, modified] at outdated
      exact outdated unchanged.symm

/-- The template is that of the content of the files, or else the failure is shown or was
dismissed. -/
def UpToDate (path : String) (schema : Schema) (files : Files) (history : List Moment)
    (live : Live) : Prop :=
  match Template.ofFile path schema files with
  | .ok template => live.template = template
  | .error error => live.state = .failed error ∨ HandledBeforeStop path files history

variable {live other : Live} {others : Files}

theorem UpToDate.congr (current : UpToDate path schema files history live)
    (sameTime : files.modified? path = others.modified? path)
    (sameText : files.read path = others.read path) :
    UpToDate path schema others history live := by
  unfold UpToDate at current ⊢
  rw [← Template.ofFile_congr sameText]
  cases compiled : Template.ofFile path schema files with
  | ok template => simpa only [compiled] using current
  | error error =>
      simp only [compiled] at current
      exact current.imp_right fun handled => handled.congr sameTime sameText

/-- Nothing is lost at a moment that leaves the template and every failure that is shown. -/
theorem UpToDate.keep (current : UpToDate path schema files history live)
    (idle : moment.compiles = false) (sameTemplate : other.template = live.template)
    (keeps : ∀ error, live.state = .failed error → other.state = .failed error) :
    UpToDate path schema files (moment :: history) other := by
  unfold UpToDate at current ⊢
  cases compiled : Template.ofFile path schema files with
  | ok template =>
      simp only [compiled] at current
      exact sameTemplate.trans current
  | error error =>
      simp only [compiled] at current
      obtain shown | handled := current
      · exact .inl (keeps error shown)
      · exact .inr (handled.cons idle)

theorem watch_state_of_failed {error : FileError} (failed : live.state = .failed error) :
    live.watch.state = .failed error := by
  unfold Live.watch
  split
  · exact failed
  · rw [failed]

theorem unwatch_of_not_isWatched (unwatched : live.isWatched = false) : live.unwatch = live := by
  simp [Live.unwatch, unwatched]

/-- A failure that is shown when a watch ends came from a poll, as nothing is opened with a
failure. -/
theorem UpToDate.stop (current : UpToDate path schema (seenFiles path opened history) history live)
    (opens : ∃ template, Template.ofFile path schema opened = .ok template)
    (stops : moment.stops = true) (sameTemplate : other.template = live.template) :
    UpToDate path schema (seenFiles path opened history) (moment :: history) other := by
  unfold UpToDate at current ⊢
  cases compiled : Template.ofFile path schema (seenFiles path opened history) with
  | ok template =>
      simp only [compiled] at current
      exact sameTemplate.trans current
  | error error =>
      -- What was opened compiles, so the content that fails was seen by a poll.
      obtain ⟨template, opens⟩ := opens
      obtain same | ⟨seen, member, sees, same⟩ := seenFiles_cases path opened history
      · rw [same, opens] at compiled
        cases compiled
      · rw [same]
        exact .inr ⟨[], moment, history, rfl, by simp, stops, seen, member, sees, rfl, rfl⟩

/-- A poll leaves everything up to date with what was seen last, as long as one time stands for one
content. -/
theorem UpToDate.poll
    (handled : live.handled = (seenFiles live.path opened history).modified? live.path)
    (current : UpToDate live.path live.schema (seenFiles live.path opened history) history live)
    (stands : ∀ time, (seenFiles live.path opened history).modified? live.path = some time →
      files.modified? live.path = some time →
        (seenFiles live.path opened history).read live.path = files.read live.path) :
    UpToDate live.path live.schema
      (seenFiles live.path opened (⟨⟨live, files⟩, .poll⟩ :: history))
      (⟨⟨live, files⟩, .poll⟩ :: history) (live.poll files).2 := by
  have happened := polled files live
  generalize live.poll files = result at happened
  cases happened with
  | idle idle =>
      cases modified : files.modified? live.path with
      | none =>
          rw [seenFiles_cons_of_not_sees (by simp [Moment.sees, modified])]
          exact current.keep idle rfl fun _ shown => shown
      | some time =>
          rw [seenFiles_cons_of_sees (by simp [Moment.sees, modified])]
          -- The time is the one handled last, so the content is the one seen then.
          have was : live.handled = some time := by simpa [isOutdated, modified] using idle
          have seen := handled.symm.trans was
          have same := current.congr (seen.trans modified.symm) (stands time seen modified)
          exact same.keep idle rfl fun _ shown => shown
  | renewed outdated modified compiled =>
      rw [seenFiles_cons_of_sees (by simp [Moment.sees, modified])]
      unfold UpToDate
      rw [compiled]
  | refused outdated modified failed =>
      rw [seenFiles_cons_of_sees (by simp [Moment.sees, modified])]
      unfold UpToDate
      rw [failed]
      exact .inl rfl

theorem Run.opens (run : Run path schema opened history session) :
    ∃ template, Template.ofFile path schema opened = .ok template := by
  induction run with
  | start started => exact ⟨_, (AsTold.start started.2).served⟩
  | step _ _ opens => exact opens

theorem fileStates_subset_step (session : Session) (event : Event) :
    fileStates opened history session ⊆
      fileStates opened (⟨session, event⟩ :: history) (session.step event) := by
  intro files member
  simp only [fileStates, List.map_cons, List.mem_cons] at member ⊢
  obtain same | same | earlier := member
  · exact .inl same
  · exact .inr (.inr (.inl same))
  · exact .inr (.inr (.inr earlier))

theorem fileStates_poll_subset (session : Session) :
    fileStates opened (⟨session, .poll⟩ :: history) (session.step .poll) ⊆
      fileStates opened history session := by
  intro files member
  simp only [fileStates, Session.step, List.map_cons, List.mem_cons] at member ⊢
  obtain same | same | same | earlier := member
  · exact .inl same
  · exact .inr (.inl same)
  · exact .inr (.inl same)
  · exact .inr (.inr earlier)

theorem Run.upToDate (run : Run path schema opened history session)
    (timely : Timely path (fileStates opened history session)) :
    UpToDate path schema (seenFiles path opened history) history session.live := by
  induction run with
  | start started =>
      obtain ⟨template, compiled, same⟩ := eq_of_start started.2
      unfold UpToDate
      rw [show seenFiles path opened [] = opened from rfl, compiled, same]
  | @step history session run event earlier =>
      have before := timely.of_subset (fileStates_subset_step session event)
      have current := earlier before
      have told := Run.asTold run
      obtain ⟨live, files⟩ := session
      cases event with
      | poll =>
          have handled := Run.handled_eq run
          obtain rfl : live.path = path := told.path_eq
          obtain rfl : live.schema = schema := told.schema_eq
          exact current.poll handled fun time =>
            before _ seenFiles_mem_fileStates files (by simp [fileStates]) time
      | watch =>
          have same : live.watch.template = live.template := by rw [watch_eq]
          exact current.keep rfl same fun _ => watch_state_of_failed
      | unwatch =>
          rw [seenFiles_cons_of_not_sees rfl]
          have same : live.unwatch.template = live.template := by rw [unwatch_eq]
          cases watched : live.isWatched with
          | true => exact current.stop (Run.opens run) watched same
          | false =>
              rw [Session.step, unwatch_of_not_isWatched watched]
              exact current.keep rfl rfl fun _ shown => shown
      | change changed => exact current.keep rfl rfl fun _ shown => shown

/-- The latest poll has seen the file if it was there. -/
theorem seenFiles_of_polledFiles {time : FileTime}
    (there : (polledFiles opened history).modified? path = some time) :
    (seenFiles path opened history).modified? path = some time := by
  induction history with
  | nil => exact there
  | cons moment history earlier =>
      obtain ⟨session, event⟩ := moment
      cases event with
      | poll =>
          have now : session.files.modified? path = some time := there
          rw [seenFiles_cons_of_sees (by simp [Moment.sees, now])]
          exact now
      | watch | unwatch | change =>
          rw [seenFiles_cons_of_not_sees rfl]
          exact earlier there

/-- A poll that finds the file with something that does not compile leaves the template compiled
last, and shows the failure unless it was dismissed by the end of a watch. -/
structure KeepsLast (path : String) (schema : Schema) (opened : Files) (history : List Moment)
    (session : Session) (error : FileError) : Prop where
  served : ∃ text, (servedFiles opened (⟨session, .poll⟩ :: history)).read path = .ok text ∧
    Template.compile text schema = .ok (session.step .poll).live.template
  shown : (session.step .poll).live.state = .failed error ∨
    HandledBeforeStop path session.files history

/-- Polls lose no change of the file and see no change where there is none.  If one time stands for
one content of the file, a poll that finds the file leaves the template of its content; or, if that
does not compile, the template compiled last, and the failure unless it was dismissed by the end of
a watch.  A poll compiles the file only if its time is another than the one handled last, and
otherwise leaves everything as it was. -/
theorem Run.template_of_poll_and_idle_iff (run : Run path schema opened history session) :
    (Timely path (fileStates opened history session) →
      ∀ time, session.files.modified? path = some time →
        match session.files.read path with
        | .error fault => KeepsLast path schema opened history session (.unreadable path fault)
        | .ok text =>
            match Template.compile text schema with
            | .ok template => (session.step .poll).live.template = template
            | .error error =>
                KeepsLast path schema opened history session (.invalid path error)) ∧
    (session.live.poll session.files ≠ (false, session.live) ↔
      ∃ time, session.files.modified? path = some time ∧
        (seenFiles path opened history).modified? path ≠ some time) ∧
    (session.files.modified? path = (polledFiles opened history).modified? path →
      session.live.poll session.files = (false, session.live)) ∧
    (session.files.modified? path = none →
      session.live.poll session.files = (false, session.live)) := by
  have outdated := run.isOutdated_iff
  have idle := poll_eq_iff session.files session.live
  refine ⟨?_, ?_, ?_, ?_⟩
  · intro timely time modified
    have next : Run path schema opened (⟨session, .poll⟩ :: history) (session.step .poll) :=
      run.step .poll
    have current := next.upToDate (timely.of_subset (fileStates_poll_subset session))
    rw [seenFiles_cons_of_sees (by simp [Moment.sees, modified])] at current
    unfold UpToDate Template.ofFile readFile at current
    have served := exists_text_of_ofFile next.asTold.served
    cases read : session.files.read path with
    | error fault =>
        simp only [read] at current
        exact ⟨served, current.imp_right fun handled => handled.of_cons rfl⟩
    | ok text =>
        simp only [read] at current ⊢
        cases compiled : Template.compile text schema with
        | ok template => simpa only [compiled] using current
        | error error =>
            simp only [compiled] at current
            exact ⟨served, current.imp_right fun handled => handled.of_cons rfl⟩
  · rw [← outdated, ne_eq, idle, Bool.not_eq_false]
  · intro same
    rw [idle, ← Bool.not_eq_true, outdated]
    rintro ⟨time, now, changed⟩
    exact changed (seenFiles_of_polledFiles (same.symm.trans now))
  · intro missing
    rw [idle, ← Bool.not_eq_true, outdated]
    rintro ⟨time, now, _⟩
    rw [missing] at now
    cases now

end Live

theorem page_timely :
    Live.Timely "page" [page "Hello" 1, page "Welcome" 2, page "Bye \x7b\x7b" 3] := by
  have hello : (page "Hello" 1).modified? "page" = some (.stamped 1) := by cbv
  have welcome : (page "Welcome" 2).modified? "page" = some (.stamped 2) := by cbv
  have bye : (page "Bye \x7b\x7b" 3).modified? "page" = some (.stamped 3) := by cbv
  intro first firstIn second secondIn time firstTime secondTime
  simp only [List.mem_cons, List.not_mem_nil, or_false] at firstIn secondIn
  obtain rfl | rfl | rfl := firstIn <;> obtain rfl | rfl | rfl := secondIn <;>
    first | rfl | simp_all

/-- One more poll leaves the page that welcomes. -/
theorem page_keeps_up :
    Template.compile "Welcome" pageSchema = .ok (pageLife.2.step .poll).live.template ∧
      ((pageLife.2.step .poll).live.state = .failed unclosed ∨
        Live.HandledBeforeStop "page" pageLife.2.files pageLife.1) := by
  have timely : Live.Timely "page" (Live.fileStates (page "Hello" 1) pageLife.1 pageLife.2) := by
    refine page_timely.of_subset ?_
    intro files member
    simp [Live.fileStates, pageLife, Run.follow, pageEvents, Live.Session.step] at member ⊢
    grind
  have modified : pageLife.2.files.modified? "page" = some (.stamped 3) := by cbv
  have current := pageLife_is_run.template_of_poll_and_idle_iff.1 timely _ modified
  have read : pageLife.2.files.read "page" = .ok "Bye \x7b\x7b" := by cbv
  have broken : Template.compile "Bye \x7b\x7b" pageSchema =
      .error (.lex (.unterminated { offset := 4, line := 1, column := 5 })) := by
    cbv
  simp only [read, broken] at current
  obtain ⟨⟨text, served, compiled⟩, shown⟩ := current
  have welcome : (Live.servedFiles (page "Hello" 1) (⟨pageLife.2, .poll⟩ :: pageLife.1)).read
      "page" = .ok "Welcome" := by
    cbv
  rw [welcome] at served
  obtain rfl := Except.ok.inj served
  exact ⟨compiled, shown⟩

end Stencil
