import TelephoneBooth.SessionUploads

/-! Failures of a call and the outcome it is announced with. The tracker keeps one phase, set
by state tags and by upload results alike, and an `error` tag does not say what failed. -/
namespace TelephoneBooth
open State Event

inductive Moment where
  | handles (i : Input)
  | publishes (record : BusEvent) (other : ofCore record.told = false)

structure Watched where
  state : State
  tracker : SessionTracker

inductive PhaseSource where
  | entered (s : State)
  | completed
  | failed
  deriving DecidableEq

structure Story where
  last : Option PhaseSource
  uploadFailed : Bool
  recordingFailed : Bool
  fetchFailed : Bool

def Story.fresh : Story := ⟨none,false,false,false⟩

def State.isError : State → Bool
  | .error _ => true
  | _ => false

def setsPhase (s : State) : Bool := (tagPhase s.tag).isSome

def failsRecording : State → Event → Bool
  | recording _, recordingFailed _ | finishingRecording _ _, recordingFailed _
  | finishingTimedOutRecording _ _, recordingFailed _ => true
  | _, _ => false

def failsFetch (s : State) (i : Input) : Bool :=
  !s.isError && (coreStep s i).1.isError && match i.1 with
    | questionFailed _ | messageFailed _ | instructionsFailed _ => true
    | _ => false

def Story.handles (story : Story) (s : State) (i : Input) : Story :=
  let after := (coreStep s i).1
  let story := if s.resting && !after.resting then .fresh else story
  { last := if setsPhase after then some (.entered after) else story.last
    uploadFailed := story.uploadFailed
    recordingFailed := story.recordingFailed || failsRecording s i.1
    fetchFailed := story.fetchFailed || failsFetch s i }

/- A failure of the call's own upload stands until a success of it. -/
def noteStory (story : Story) (w : Watched) : Moment → Story
  | .handles i => story.handles w.state i
  | .publishes record _ =>
    match record with
    | .uploadCompleted _ sessionId => { story with
        last := some .completed
        uploadFailed := story.uploadFailed && decide (w.tracker.currentSessionId ≠ some sessionId) }
    | .uploadFailed _ sessionId => { story with
        last := some .failed
        uploadFailed := story.uploadFailed || decide (w.tracker.currentSessionId = some sessionId) }
    | _ => story

def endsCall (s : State) : Moment → Bool
  | .handles i => !s.resting && (coreStep s i).1.resting
  | .publishes _ _ => false

def NamesFailure (outcome : CallOutcome) (story : Story) : Prop :=
  (story.uploadFailed = true → outcome = .uploadFailed) ∧
  (story.recordingFailed = true → outcome = .recordingFailed) ∧
  (outcome = .operatorError → story.fetchFailed = true)

def lastError : Option PhaseSource → Bool
  | some (.entered s) => s.isError
  | _ => false

/- No recording of the call failed; a failure of its upload was what set the phase last; and
if that was `Error` instead, a failed fetch led there. -/
def Told (story : Story) : Prop :=
  story.recordingFailed = false ∧ (story.uploadFailed = true → story.last = some .failed) ∧
  (lastError story.last = true → story.fetchFailed = true)

instance (outcome : CallOutcome) (story : Story) : Decidable (NamesFailure outcome story) := by
  unfold NamesFailure
  infer_instance

instance (story : Story) : Decidable (Told story) := by unfold Told; infer_instance

def sourcePhase : Option PhaseSource → SessionPhase
  | none => .prompt
  | some (.entered s) => (tagPhase s.tag).getD .prompt
  | some .completed => .recordingDone
  | some .failed => .recordingFailed

theorem failedPhase (last : Option PhaseSource) :
    sourcePhase last = .recordingFailed ↔ last = some .failed := by
  cases last with
  | none => simp [sourcePhase]
  | some source =>
    cases source with
    | entered s => cases s <;> simp [sourcePhase,State.tag,tagPhase]
    | completed => simp [sourcePhase]
    | failed => simp [sourcePhase]

theorem errorPhase (last : Option PhaseSource) :
    sourcePhase last = .operatorErrorPhase ↔ lastError last = true := by
  cases last with
  | none => simp [sourcePhase,lastError]
  | some source =>
    cases source with
    | entered s => cases s <;> simp [sourcePhase,State.tag,tagPhase,lastError,State.isError]
    | completed => simp [sourcePhase,lastError]
    | failed => simp [sourcePhase,lastError]

theorem failureOutcomes (target : String) (session : LiveSession) :
    (outcomeAt target session = .uploadFailed ↔ session.phase = .recordingFailed) ∧
    (outcomeAt target session = .operatorError ↔ session.phase = .operatorErrorPhase) ∧
    outcomeAt target session ≠ .recordingFailed := by
  by_cases paused : target = "calls_paused" <;> cases phase : session.phase <;>
    cases dialed : session.digits.isEmpty <;> simp [outcomeAt,paused,phase,dialed]

theorem namesFailureIff {story : Story} {target : String} {session : LiveSession}
    (phase : session.phase = sourcePhase story.last) :
    NamesFailure (outcomeAt target session) story ↔ Told story := by
  obtain ⟨upload,operator,recording⟩ := failureOutcomes target session
  rw [phase,failedPhase] at upload
  rw [phase,errorPhase] at operator
  unfold NamesFailure Told
  rw [upload,operator]
  constructor
  · rintro ⟨uploads,records,fetches⟩
    refine ⟨?_,uploads,fetches⟩
    rw [← Bool.not_eq_true]
    exact fun failed => recording (records failed)
  · rintro ⟨records,uploads,fetches⟩
    refine ⟨uploads,fun failed => ?_,fetches⟩
    rw [records] at failed
    cases failed

section Watching
variable (uuid : Nat → String)

def momentStep (w : Watched) : Moment → Watched × List TelemetryEvent
  | .handles i => (⟨(coreStep w.state i).1,
      Machine.run (SessionTracker.observe uuid) w.tracker (published w.state i)⟩,
      announced uuid w.tracker (published w.state i))
  | .publishes record _ =>
    (⟨w.state,(w.tracker.hear uuid record).1⟩,(w.tracker.hear uuid record).2)

def writing (write : String → String) (t : SessionTracker) : SessionTracker :=
  { t with current := t.current.map fun session => { session with digits := write session.digits } }

theorem digitsHeard (t : SessionTracker) (s : State) (i : Input) :
    announced uuid t (digitsPublished s i) = [] ∧
    ∃ write, Machine.run (SessionTracker.observe uuid) t (digitsPublished s i) = writing write t := by
  obtain ⟨current,drawn⟩ := t
  unfold digitsPublished
  cases (if i.2 = true then dialedDigitForTelemetry s i.1 else none) with
  | none => exact ⟨rfl,id,by cases current <;> rfl⟩
  | some dialed => exact ⟨rfl,(· ++ toString dialed.1),rfl⟩

inductive PhaseStep (t t' : SessionTracker) (after : State) : Bool → Bool → List CallEnd → Prop where
  | rests (idle_ : t'.current = none) : PhaseStep t t' after true true []
  | starts (session) (live : t'.current = some session)
      (phase : session.phase = phaseAt after.tag .prompt) : PhaseStep t t' after true false []
  | goesOn (session session') (before : t.current = some session) (live : t'.current = some session')
      (phase : session'.phase = phaseAt after.tag session.phase) : PhaseStep t t' after false false []
  | ends (session session') (before : t.current = some session) (idle_ : t'.current = none)
      (phase : session'.phase = session.phase) :
      PhaseStep t t' after false true [(session'.id,outcomeAt after.tag session',session'.digits)]

theorem transitionPhase {t : SessionTracker} {s : State} (after : State) (tracks : Tracks t s) :
    PhaseStep t (t.observe uuid (.stateTransition s.tag after.tag)).1 after s.resting after.resting
      ((t.observe uuid (.stateTransition s.tag after.tag)).2.filterMap endOf) := by
  obtain ⟨current,drawn⟩ := t
  unfold Tracks SessionTracker.currentSessionId at tracks
  cases current with
  | none =>
    have idle_ : s.resting = true := by simpa using tracks
    cases rests : after.resting <;>
      simp only [observeTags,openSession,closeSession,enterPhase,restingTag,idle_,rests]
    · exact .starts _ rfl rfl
    · exact .rests rfl
  | some session =>
    have busy : s.resting = false := by simpa using tracks
    cases rests : after.resting <;>
      simp only [observeTags,openSession,closeSession,enterPhase,restingTag,busy,rests]
    · exact .goesOn session _ rfl rfl rfl
    · refine .ends session _ rfl rfl ?_
      show phaseAt after.tag session.phase = session.phase
      rw [phaseTag,idleTagPhase (by rw [restingTag,rests])]
      rfl

theorem writtenBefore {t t' : SessionTracker} {after : State} {write : String → String}
    {before rests : Bool} {ended : List CallEnd}
    (step : PhaseStep (writing write t) t' after before rests ended) :
    PhaseStep t t' after before rests ended := by
  have unwritten : ∀ session, (writing write t).current = some session →
      ∃ session', t.current = some session' ∧ session'.phase = session.phase := by
    intro session live
    obtain ⟨session',open_,rfl⟩ := Option.map_eq_some_iff.mp live
    exact ⟨session',open_,rfl⟩
  cases step with
  | rests idle_ => exact .rests idle_
  | starts session live phase => exact .starts session live phase
  | goesOn session session' live live' phase =>
    obtain ⟨old,open_,same⟩ := unwritten session live
    exact .goesOn old session' open_ live' (by rw [same,phase])
  | ends session session' live idle_ phase =>
    obtain ⟨old,open_,same⟩ := unwritten session live
    exact .ends old session' open_ idle_ (by rw [same,phase])

theorem writtenAfter {t t' : SessionTracker} {after : State} {before : Bool} {ended : List CallEnd}
    (write : String → String) (step : PhaseStep t t' after before false ended) :
    PhaseStep t (writing write t') after before false ended := by
  have written : ∀ session, t'.current = some session →
      (writing write t').current = some { session with digits := write session.digits } := by
    intro session live
    rw [writing,live]
    rfl
  cases step with
  | starts session live phase => exact .starts _ (written session live) phase
  | goesOn session session' open_ live phase =>
    exact .goesOn session _ open_ (written session' live) phase

theorem publishedPhase {t : SessionTracker} {s : State} (i : Input) (tracks : Tracks t s) :
    PhaseStep t (Machine.run (SessionTracker.observe uuid) t (published s i)) (coreStep s i).1
      s.resting (coreStep s i).1.resting
      ((announced uuid t (published s i)).filterMap endOf) := by
  unfold published
  dsimp only
  split
  · -- a call is resumed: the digit it dials comes after the transition
    rename_i resumes
    have rings : (coreStep s i).1.resting = false := by
      unfold resumesCall at resumes
      split at resumes
      · simpa using resumes
      · cases resumes
    obtain ⟨silent,write,heard⟩ := digitsHeard uuid
      (t.observe uuid (.stateTransition s.tag (coreStep s i).1.tag)).1 s i
    have told := transitionPhase uuid (coreStep s i).1 tracks
    rw [rings] at told ⊢
    rw [announced,Machine.run,silent,heard,List.append_nil]
    exact writtenAfter write told
  · obtain ⟨silent,write,heard⟩ := digitsHeard uuid t s i
    have tracks' : Tracks (writing write t) s := by
      rw [Tracks,← tracks]
      simp [writing,SessionTracker.currentSessionId]
    have step := transitionPhase uuid (coreStep s i).1 tracks'
    rw [announcedAppend,Machine.runAppend,silent,heard]
    refine @writtenBefore t _ _ write _ _ _ ?_
    simpa [announced,Machine.run] using step

structure Accompanies (w : Watched) (story : Story) : Prop where
  tracks : Tracks w.tracker w.state
  phase : ∀ session ∈ w.tracker.current, session.phase = sourcePhase story.last

theorem handledPhase (story : Story) (s : State) (i : Input) :
    sourcePhase (story.handles s i).last = phaseAt (coreStep s i).1.tag
      (if s.resting && !(coreStep s i).1.resting then .prompt else sourcePhase story.last) := by
  rw [phaseTag]
  simp only [Story.handles]
  by_cases set : setsPhase (coreStep s i).1 = true
  · obtain ⟨phase,tagged⟩ := Option.isSome_iff_exists.mp set
    rw [if_pos set,sourcePhase,tagged]
    rfl
  · rw [if_neg set,Option.not_isSome_iff_eq_none.mp set]
    split <;> rfl

theorem handledNamed {w : Watched} {story : Story} (beside : Accompanies w story) (i : Input) :
    Accompanies (momentStep uuid w (.handles i)).1 (story.handles w.state i) ∧
    ((∀ ended ∈ (momentStep uuid w (.handles i)).2.filterMap endOf,
        NamesFailure ended.2.1 (story.handles w.state i)) ↔
      (endsCall w.state (.handles i) = true → Told (story.handles w.state i))) := by
  have step := publishedPhase uuid i beside.tracks
  have last := handledPhase story w.state i
  simp only [momentStep,endsCall]
  generalize Machine.run (SessionTracker.observe uuid) w.tracker (published w.state i) = t' at step ⊢
  generalize (announced uuid w.tracker (published w.state i)).filterMap endOf = ended at step ⊢
  generalize story.handles w.state i = story' at last ⊢
  generalize after : coreStep w.state i = next at step last ⊢
  generalize w.state.resting = before at step last ⊢
  generalize rests : next.1.resting = now at step last ⊢
  have quiet {p : Prop} {story : Story} : (∀ ended ∈ ([] : List CallEnd),
      NamesFailure ended.2.1 story) ↔ (false = true → p) := ⟨fun _ => nofun,fun _ => nofun⟩
  cases step with
  | rests idle_ =>
    refine ⟨⟨?_,?_⟩,quiet⟩
    · simp [Tracks,SessionTracker.currentSessionId,idle_,rests]
    · intro session live
      rw [idle_] at live
      cases live
  | starts session live phase =>
    refine ⟨⟨?_,?_⟩,quiet⟩
    · simp [Tracks,SessionTracker.currentSessionId,live,rests]
    · intro other open_
      rw [live] at open_
      cases open_
      exact phase.trans last.symm
  | goesOn session session' old live phase =>
    refine ⟨⟨?_,?_⟩,quiet⟩
    · simp [Tracks,SessionTracker.currentSessionId,live,rests]
    · intro other open_
      rw [live] at open_
      cases open_
      rw [beside.phase session old] at phase
      exact phase.trans last.symm
  | ends session session' old idle_ phase =>
    have still : sourcePhase story'.last = sourcePhase story.last := by
      rw [last,phaseTag,idleTagPhase (by rw [restingTag,rests])]
      rfl
    rw [beside.phase session old,← still] at phase
    refine ⟨⟨?_,?_⟩,?_⟩
    · simp [Tracks,SessionTracker.currentSessionId,idle_,rests]
    · intro other open_
      rw [idle_] at open_
      cases open_
    · rw [List.forall_mem_singleton,namesFailureIff phase]
      exact ⟨fun told _ => told,fun told => told rfl⟩

theorem publishedNamed {w : Watched} {story : Story} (beside : Accompanies w story)
    (record : BusEvent) (other : ofCore record.told = false) :
    Accompanies (momentStep uuid w (.publishes record other)).1
      (noteStory story w (.publishes record other)) ∧
    (momentStep uuid w (.publishes record other)).2.filterMap endOf = [] := by
  have stays : isOpening w.tracker record = false ∧ isClosing w.tracker record = false := by
    cases record <;> first
      | exact ⟨rfl,rfl⟩
      | cases other
  have live := (@observeOther uuid w.tracker record.told (by
    cases record <;> first
      | rfl
      | cases other)).2
  refine ⟨⟨?_,?_⟩,hearKeeps uuid stays.2⟩
  · exact (congrArg Option.isSome live).trans beside.tracks
  · intro session open_
    rcases hearPhase uuid open_ with ⟨opens,_⟩ | ⟨_,before,old,phase⟩
    · rw [stays.1] at opens
      cases opens
    · rw [phase,beside.phase before old]
      cases record <;> first
        | rfl
        | cases other

theorem momentNamed {w : Watched} {story : Story} (beside : Accompanies w story) (m : Moment) :
    Accompanies (momentStep uuid w m).1 (noteStory story w m) ∧
    ((∀ ended ∈ (momentStep uuid w m).2.filterMap endOf,
        NamesFailure ended.2.1 (noteStory story w m)) ↔
      (endsCall w.state m = true → Told (noteStory story w m))) := by
  cases m with
  | handles i => exact handledNamed uuid beside i
  | publishes record other =>
    obtain ⟨still,silent⟩ := publishedNamed uuid beside record other
    rw [silent]
    exact ⟨still,fun _ => nofun,fun _ => nofun⟩

def FailuresNamed (start : Watched) (moments : List Moment) : Prop :=
  Machine.EachStep (Machine.observed (momentStep uuid) noteStory)
    (fun s m => ∀ ended ∈ (momentStep uuid s.1 m).2.filterMap endOf,
      NamesFailure ended.2.1 (noteStory s.2 s.1 m)) (start,.fresh) moments

instance (start : Watched) (moments : List Moment) :
    Decidable (FailuresNamed uuid start moments) := by
  unfold FailuresNamed
  infer_instance

def StoriesTold (start : Watched) (moments : List Moment) : Prop :=
  Machine.EachStep (Machine.observed (momentStep uuid) noteStory)
    (fun s m => endsCall s.1.state m = true → Told (noteStory s.2 s.1 m)) (start,.fresh) moments

instance (start : Watched) (moments : List Moment) : Decidable (StoriesTold uuid start moments) := by
  unfold StoriesTold
  infer_instance

end Watching

/- Whatever the core handles and other tasks publish in between, a call is announced with an
outcome that names its failures exactly where none of its recordings failed, the last record
that set the phase is the failure of its upload if that failed, and an `error` tag in that
place stands for a failed fetch. -/
theorem outcomesNameFailures (uuid : Nat → String) {state : State} (initial : state.resting = true)
    (moments : List Moment) :
    FailuresNamed uuid ⟨state,.new⟩ moments ↔ StoriesTold uuid ⟨state,.new⟩ moments := by
  have beside : Accompanies ⟨state,.new⟩ .fresh :=
    ⟨by simp [Tracks,SessionTracker.new,SessionTracker.currentSessionId,initial],nofun⟩
  refine @Machine.eachStepIff _ _ _ _ (fun s : Watched × Story => Accompanies s.1 s.2) _ _
    (fun s m beside => ?_) (fun s m beside => ?_) (⟨state,.new⟩,.fresh) beside moments
  · exact (momentNamed uuid beside m).1
  · exact (momentNamed uuid beside m).2

def handled (events : List Event) : List Moment := events.map fun event => .handles (event,true)

def answering : List Moment := handled
  [hookOff,digitDialed 1,questionReady "q",playbackEnded,playbackEnded,playbackEnded]

def failedUpload : Moment := .publishes (.uploadFailed "r" (sampleUuid 0)) rfl

theorem hungUpFailureNamed : FailuresNamed sampleUuid ⟨idle,.new⟩
    (answering ++ handled [hookOn,recordingFinished "r"] ++
      failedUpload :: handled [uploadFinished "r" (.failed "auth")]) :=
  (outcomesNameFailures sampleUuid rfl _).mpr (by decide)

/- A caller who waits for the upload hears the busy tone, and its tag hides what failed; so does
that of a recording that fails. -/
theorem failuresMisnamed :
    ¬ FailuresNamed sampleUuid ⟨idle,.new⟩ (answering ++ handled [recordingTimedOut,
      recordingFinished "r"] ++ failedUpload :: handled [uploadFinished "r" (.failed "auth"),hookOn]) ∧
    (momentStep sampleUuid (Machine.run (momentStep sampleUuid) ⟨idle,.new⟩
      (answering ++ handled [recordingTimedOut,recordingFinished "r"] ++
        failedUpload :: handled [uploadFinished "r" (.failed "auth")])) (.handles (hookOn,true))).2 =
      [.callEnded (sampleUuid 0) .operatorError "1"] ∧
    (momentStep sampleUuid (Machine.run (momentStep sampleUuid) ⟨idle,.new⟩
      (answering ++ handled [recordingFailed "device lost"])) (.handles (hookOn,true))).2 =
      [.callEnded (sampleUuid 0) .operatorError "1"] := by decide

end TelephoneBooth
