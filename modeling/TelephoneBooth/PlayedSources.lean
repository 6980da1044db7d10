import TelephoneBooth.RuntimeStep

/-! Where the sources come from that the audio task is told to play. The core names only built-in
tones and the slot of the last fetch; what the slot holds was made of an answer of the operator, whose
digest is all that may become part of a path. -/
namespace TelephoneBooth.PlayedSources
open State Event Effect Booth

def ownPlay : Effect → Bool
  | .play (.builtin _) => true
  | .play source => source == unresolvedClip
  | _ => true

theorem suppressOwn (effects : List Effect) (own : effects.all ownPlay = true) :
    (suppress effects).all ownPlay = true := by
  rw [List.all_eq_true] at own ⊢
  exact fun effect mem => own effect (List.mem_of_mem_filter mem)

theorem decodeOwn (digit : UInt8) : (decodeDigit digit).2.all ownPlay = true := by
  unfold decodeDigit
  repeat' split
  all_goals rfl

theorem armOwn {s e s' effects} (arm : Arm s e s' effects) : effects.all ownPlay = true := by
  cases arm with
  | power s e effect button => rcases button with ⟨_,rfl⟩ | ⟨_,rfl⟩ <;> rfl
  | fail fails => cases fails <;> rfl
  | dial dials => exact decodeOwn _
  | _ => rfl

theorem turnOwn {s e accepting s' effects} (turn : Turn s e accepting s' effects) :
    effects.all ownPlay = true := by
  have silenced {e : Event} {n : State} {effects : List Effect} (pending : Bool)
      (same : handleInner (silenceBeep s).1 e = (n,effects)) :
      (stopIf pending ++ suppress effects).all ownPlay = true := by
    rw [List.all_append,suppressOwn effects (armOwn (innerArm same)),Bool.and_true]
    cases pending <;> rfl
  cases turn with
  | inner settled open_ same => exact armOwn (innerArm same)
  | resumedDigit paused position input =>
    rw [List.all_append,decodeOwn,Bool.and_true]
    rfl
  | kept settled safe same still => exact silenced _ same
  | released settled safe same ended =>
    rw [List.all_append,silenced _ same,Bool.true_and]
    rfl
  | stale | resumedIdle | resumedTone | resumedPulse | stillPaused | cut => rfl

theorem stepOwn (s : State) (i : Input) {effect : Effect} (mem : effect ∈ (coreStep s i).2) :
    ownPlay effect = true := by
  obtain ⟨effects,same,turn⟩ := stepTurn s i
  rw [same] at mem
  rcases List.mem_append.mp mem with led | inside
  · unfold ledChange at led
    split at led
    · obtain rfl := List.mem_singleton.mp led
      rfl
    · cases led
  · exact List.all_eq_true.mp (turnOwn turn) effect inside

section Answers
variable (given : ClipAnswer → Prop)

inductive Playable (recordingsDir : String) : AudioRef → Prop where
  | tone (tone : BuiltinTone) : Playable recordingsDir (.builtin tone)
  | nothing : Playable recordingsDir unresolvedClip
  | clip {answer : ClipAnswer} (here : given answer) :
      Playable recordingsDir (operatorAudioRef recordingsDir answer)

def Carries : FetchStage → ClipAnswer → Prop
  | .answered (.ok answer), other | .current answer, other | .stored answer, other => other = answer
  | _, _ => False

structure FetchTraced (recordingsDir : String) (f : Fetcher) : Prop where
  dir : f.recordingsDir = recordingsDir
  slot : ∀ clip ∈ f.nextRemoteAudio, Playable given recordingsDir clip.source
  fetches : ∀ task ∈ f.tasks, ∀ answer, Carries task.stage answer → given answer

structure Traced (recordingsDir : String) (rt : Booth) : Prop where
  fetcher : FetchTraced given recordingsDir rt.fetcher
  log : ∀ emitted ∈ rt.effects.log, ownPlay emitted.effect = true
  deferred : ∀ next ∈ rt.pendingOperatorEffects, ownPlay next.emitted.effect = true
  commands : ∀ source number, .play source number ∈ rt.speaker.commands →
    Playable given recordingsDir source

end Answers

section Fetching
variable {given : ClipAnswer → Prop} {f f' : Fetcher}

theorem moveTraced {recordingsDir : String} (traced : FetchTraced given recordingsDir f)
    (task : FetchTask) {stage : FetchStage} (carried : ∀ answer, Carries stage answer → given answer) :
    FetchTraced given recordingsDir (f.move task stage) where
  dir := traced.dir
  slot := traced.slot
  fetches other mem := by
    rcases List.mem_cons.mp mem with rfl | rest
    · exact carried
    · exact traced.fetches other (List.mem_of_mem_erase rest)

theorem fetchTraced {recordingsDir : String} (traced : FetchTraced given recordingsDir f) {number : Nat}
    {reply : FetchReply} {notices : List Notice} (done : f.step number reply = some (f',notices))
    (asked : ∀ answer, reply = .ok answer → given answer) : FetchTraced given recordingsDir f' := by
  obtain ⟨task,found,done⟩ := Option.bind_eq_some_iff.mp done
  have inside := traced.fetches task (List.mem_of_find?_eq_some found)
  dsimp only at done
  split at done
  · cases done
    refine moveTraced traced task fun answer carried => ?_
    cases reply with
    | ok other => exact asked answer (congrArg _ carried.symm)
    | _ => cases carried
  · rename_i answer stage
    rw [stage] at inside
    split at done
    · cases done
      exact moveTraced traced task inside
    · cases done
      exact moveTraced traced task fun _ carried => (by cases carried)
  · cases done
    exact moveTraced traced task fun _ carried => (by cases carried)
  · split at done
    · cases done
      exact moveTraced traced task fun _ carried => (by cases carried)
    · cases done
      exact moveTraced traced task fun _ carried => (by cases carried)
  · rename_i answer stage
    rw [stage] at inside
    cases done
    have moved : FetchTraced given recordingsDir (f.move task (.stored answer)) :=
      moveTraced traced task inside
    refine ⟨moved.dir,fun clip mem => ?_,moved.fetches⟩
    obtain rfl := Option.some.inj mem
    rw [traced.dir]
    exact .clip (inside answer rfl)
  · cases done
    exact moveTraced traced task fun _ carried => (by cases carried)
  · cases done
    exact moveTraced traced task fun _ carried => (by cases carried)
  · cases done

theorem resolveTraced {recordingsDir : String} (traced : FetchTraced given recordingsDir f)
    {source : AudioRef} (own : ownPlay (.play source) = true) :
    FetchTraced given recordingsDir (f.resolveAudioRef source).2 ∧
      Playable given recordingsDir (f.resolveAudioRef source).1 := by
  cases source with
  | builtin tone => exact ⟨traced,.tone tone⟩
  | localFile path =>
    have same : AudioRef.localFile path = unresolvedClip := eq_of_beq own
    cases same
  | remoteUrl url sha256 =>
    have same : AudioRef.remoteUrl url sha256 = unresolvedClip := eq_of_beq own
    rw [same]
    refine ⟨⟨traced.dir,fun clip mem => (by cases mem),traced.fetches⟩,?_⟩
    show Playable given recordingsDir ((f.nextRemoteAudio.map StoredClip.source).getD unresolvedClip)
    cases stored : f.nextRemoteAudio with
    | none => exact .nothing
    | some clip => exact traced.slot clip stored

end Fetching

section Running
variable {given : ClipAnswer → Prop} {recordingsDir : String} {rt rt' : Booth}

theorem enqueueTraced {speaker : Speaker}
    (commands : ∀ source number, .play source number ∈ speaker.commands →
      Playable given recordingsDir source) {command : AudioCommand}
    (fine : ∀ source number, command = .play source number → Playable given recordingsDir source) :
    ∀ source number, .play source number ∈ (speaker.enqueue command).commands →
      Playable given recordingsDir source := by
  intro source number mem
  rcases List.mem_append.mp mem with waiting | new
  · exact commands source number waiting
  · exact fine source number (List.mem_singleton.mp new).symm

theorem sendTraced (traced : Traced given recordingsDir rt) (notices : List Notice) :
    Traced given recordingsDir (rt.send notices) := by
  obtain ⟨fetcher,log,deferred,commands⟩ := traced
  refine ⟨?_,?_,?_,?_⟩
  · rwa [sendFetcher]
  · rwa [sendEffects]
  · rwa [sendPendingOperatorEffects]
  · rwa [sendSpeaker]

theorem handleTraced (traced : Traced given recordingsDir rt) (event : Event) (origin : Option Nat) :
    Traced given recordingsDir (rt.handleEvent event origin) := by
  refine ⟨traced.fetcher,fun emitted mem => ?_,traced.deferred,traced.commands⟩
  rw [handleEffects] at mem
  rcases List.mem_append.mp mem with before | new
  · exact traced.log emitted before
  · obtain ⟨effect,inside,rfl⟩ := List.mem_map.mp new
    exact stepOwn _ _ inside

theorem executeTraced {number : Nat} {effect : Effect} {reply : InlineReply}
    (traced : Traced given recordingsDir rt) (own : ownPlay effect = true)
    (done : Executes rt number reply effect rt') : Traced given recordingsDir rt' := by
  obtain ⟨fetcher,log,deferred,commands⟩ := traced
  cases done with
  | play source =>
    obtain ⟨resolved,playable⟩ := resolveTraced fetcher own
    refine ⟨resolved,log,deferred,enqueueTraced commands fun other n same => ?_⟩
    obtain ⟨rfl,_⟩ := AudioCommand.play.inj same
    exact playable
  | stopAudio =>
    exact ⟨⟨fetcher.dir,fun clip mem => (by cases mem),fetcher.fetches⟩,log,deferred,
      enqueueTraced commands fun _ _ same => (by cases same)⟩
  | startRecording | stopRecording | uploadRecording =>
    refine sendTraced ?_ _
    exact ⟨fetcher,log,deferred,commands⟩
  | fetch fetches =>
    refine ⟨⟨fetcher.dir,fetcher.slot,fun task mem answer carried => ?_⟩,log,deferred,commands⟩
    rcases List.mem_append.mp mem with before | new
    · exact fetcher.fetches task before answer carried
    · obtain rfl := List.mem_singleton.mp new
      cases carried
  | _ => exact ⟨fetcher,log,deferred,commands⟩

theorem cancelledTraced {f f' : Fetcher} (traced : FetchTraced given recordingsDir f) {number : Nat}
    (done : f.cancel number = some f' ∨ f.join number = some f') :
    FetchTraced given recordingsDir f' := by
  rcases done with done | done
  · obtain ⟨task,_,done⟩ := Option.bind_eq_some_iff.mp done
    split at done <;> cases done
    exact moveTraced traced task fun _ carried => (by cases carried)
  · obtain ⟨task,_,done⟩ := Option.bind_eq_some_iff.mp done
    split at done <;> cases done
    exact ⟨traced.dir,traced.slot,fun other mem => traced.fetches other (List.mem_of_mem_erase mem)⟩

theorem speakerTakes {s s' : Speaker} {label : SpeakerLabel} {notices : List Notice}
    (done : s.step label = some (s',notices)) {command : AudioCommand} (mem : command ∈ s'.commands) :
    command ∈ s.commands := by
  cases label with
  | command accepted =>
    simp only [Speaker.step] at done
    split at done
    · rename_i first rest running waiting
      cases done
      rw [waiting]
      refine List.mem_cons_of_mem _ ?_
      unfold Speaker.obey at mem
      repeat' split at mem
      all_goals exact mem
    · cases done
  | ended natural =>
    simp only [Speaker.step] at done
    split at done
    · cases done
      exact mem
    · cases done

theorem bootTraced (minRecordingMs : Nat) (recordingsDir : String) (accepting onHook : Bool)
    (spool : Spool) :
    Traced given recordingsDir (boot minRecordingMs recordingsDir accepting onHook spool) := by
  have resting : Traced given recordingsDir
      (atRest minRecordingMs recordingsDir accepting onHook spool) :=
    ⟨⟨rfl,fun _ mem => (by cases mem),fun _ mem => (by cases mem)⟩,fun _ mem => (by cases mem),
      fun _ mem => (by cases mem),fun _ _ mem => (by cases mem)⟩
  exact bootInvariant resting (handleTraced resting _ _)

theorem stepTraced {label : Label} (step : BoothStep rt label rt')
    (asked : ∀ number answer, label = .fetch number (.ok answer) → given answer)
    (traced : Traced given recordingsDir rt) : Traced given recordingsDir rt' := by
  obtain ⟨fetcher,log,deferred,commands⟩ := traced
  cases step with
  | handle | reconcile =>
    refine handleTraced ?_ _ _
    exact ⟨fetcher,log,deferred,commands⟩
  | gate accepting invalidates =>
    cases invalidates
    · exact ⟨fetcher,log,deferred,commands⟩
    · exact ⟨⟨fetcher.dir,fetcher.slot,fetcher.fetches⟩,log,deferred,commands⟩
  | skip received stopping other =>
    obtain ⟨_,_,same,_⟩ := Channel.receiveCases received
    exact ⟨fetcher,same ▸ log,deferred,commands⟩
  | defer received operator =>
    obtain ⟨_,found,same,_⟩ := Channel.receiveCases received
    refine ⟨fetcher,same ▸ log,fun next mem => ?_,commands⟩
    rcases List.mem_append.mp mem with before | new
    · exact deferred next before
    · obtain rfl := List.mem_singleton.mp new
      exact log _ (List.mem_of_getElem? found)
  | execute received live done =>
    obtain ⟨_,found,same,_⟩ := Channel.receiveCases received
    refine executeTraced ?_ (log _ (List.mem_of_getElem? found)) done
    exact ⟨fetcher,same ▸ log,deferred,commands⟩
  | forget waiting stopping other =>
    exact ⟨fetcher,log,fun next mem => deferred next (waiting ▸ List.mem_cons_of_mem _ mem),commands⟩
  | resume waiting live done =>
    refine executeTraced ?_ (deferred _ (waiting ▸ List.mem_cons_self)) done
    exact ⟨fetcher,log,fun next mem => deferred next (waiting ▸ List.mem_cons_of_mem _ mem),commands⟩
  | fetch done =>
    refine sendTraced ?_ _
    exact ⟨fetchTraced fetcher done fun answer same => asked _ answer (by rw [same]),log,deferred,
      commands⟩
  | cancelFetch stopping done => exact ⟨cancelledTraced fetcher (.inl done),log,deferred,commands⟩
  | joinFetch done => exact ⟨cancelledTraced fetcher (.inr done),log,deferred,commands⟩
  | speaker done =>
    refine sendTraced ?_ _
    exact ⟨fetcher,log,deferred,fun source number mem => commands source number (speakerTakes done mem)⟩
  | shutdown done =>
    cases shutdownCases done with
    | silence phase =>
      exact ⟨fetcher,log,deferred,enqueueTraced commands fun _ _ same => (by cases same)⟩
    | leave phase drained pending admitting enqueues =>
      exact ⟨⟨fetcher.dir,fetcher.slot,fun _ mem => (by cases mem)⟩,log,deferred,commands⟩
    | _ => exact ⟨fetcher,log,deferred,commands⟩
  | restart accepting onHook => exact fetcher.dir ▸ bootTraced _ _ _ _ _
  | sense | upload | pulseTimeout | recordingTimeout =>
    refine sendTraced ?_ _
    exact ⟨fetcher,log,deferred,commands⟩
  | _ => exact ⟨fetcher,log,deferred,commands⟩

end Running

theorem audioRefShape (recordingsDir : String) (answer : ClipAnswer) :
    (∃ sha256, answer.audioSha256 = some sha256 ∧ answer.cached = true ∧
      isSha256Hex sha256 = true ∧
      operatorAudioRef recordingsDir answer = .localFile (recordingsDir ++ "/" ++ sha256 ++ ".flac")) ∨
    operatorAudioRef recordingsDir answer =
      .remoteUrl answer.audioUrl (answer.audioSha256.filter isSha256Hex) := by
  unfold operatorAudioRef
  split
  · rename_i sha256 digest
    obtain ⟨given,hex⟩ := Option.filter_eq_some_iff.mp digest
    split
    · exact .inl ⟨sha256,given,by assumption,hex,rfl⟩
    · rw [digest]
      exact .inr rfl
  · rename_i none_
    rw [none_]
    exact .inr rfl

theorem playedSourcesGiven {minRecordingMs : Nat} {recordingsDir : String} {accepting onHook : Bool}
    {spool : Spool} {labels : List Label} {rt : Booth}
    (run : Transition.final Booth.step (boot minRecordingMs recordingsDir accepting onHook spool)
      labels = some rt) :
    ∀ source number, .play source number ∈ rt.speaker.commands →
      (∃ tone, source = .builtin tone) ∨ source = unresolvedClip ∨
      ∃ fetch answer, .fetch fetch (.ok answer) ∈ labels ∧
        ((∃ sha256, answer.audioSha256 = some sha256 ∧ answer.cached = true ∧
            isSha256Hex sha256 = true ∧
            source = .localFile (recordingsDir ++ "/" ++ sha256 ++ ".flac")) ∨
          source = .remoteUrl answer.audioUrl (answer.audioSha256.filter isSha256Hex)) := by
  have traced := Transition.finalAlong Booth.step
    (Traced (fun answer => ∃ fetch, .fetch fetch (.ok answer) ∈ labels) recordingsDir)
    (fun _ _ _ done held asked => stepTraced (stepCases done) asked held)
    (bootTraced minRecordingMs recordingsDir accepting onHook spool)
    (Transition.alongLabels Booth.step (fun label mem fetch answer same => ⟨fetch,same ▸ mem⟩) _) run
  intro source number mem
  cases traced.commands source number mem with
  | tone tone => exact .inl ⟨tone,rfl⟩
  | nothing => exact .inr (.inl rfl)
  | clip given =>
    obtain ⟨fetch,asked⟩ := given
    exact .inr (.inr ⟨fetch,_,asked,audioRefShape recordingsDir _⟩)

def cachedAnswer : ClipAnswer where
  id := "m"
  audioUrl := "https://cdn.example/m.flac"
  audioSha256 := some "0123456789abcdef0123456789abcdef0123456789abcdef0123456789abcdef"
  cached := true

def cachedRun : List Label :=
  [.sense .hookOff,.handle,.sense (.digitDialed 2),.handle,.take {},.take {},.take {},.take {},
    .take {},.take {},.fetch 4 (.ok cachedAnswer),.fetch 4 .inactive,.fetch 4 .inactive,
    .fetch 4 .inactive,.handle,.take {},.take {},.take {}]

def localNumber : AudioCommand → Option Nat
  | .play (.localFile _) number => some number
  | _ => none

theorem cachedMessagePlays :
    ∃ rt, Transition.final Booth.step (boot 0 "rec" true true ⟨[],[],[],[]⟩) cachedRun = some rt ∧
      ∃ source, .play source 7 ∈ rt.speaker.commands ∧
        ∃ fetch answer, .fetch fetch (.ok answer) ∈ cachedRun ∧ ∃ sha256,
          source = .localFile ("rec" ++ "/" ++ sha256 ++ ".flac") ∧ isSha256Hex sha256 = true := by
  have run : (Transition.final Booth.step (boot 0 "rec" true true ⟨[],[],[],[]⟩) cachedRun).map
      (fun rt => rt.speaker.commands.filterMap localNumber) = some [7] := by decide +kernel
  obtain ⟨rt,ends_,numbers⟩ := Option.map_eq_some_iff.mp run
  have seven : 7 ∈ rt.speaker.commands.filterMap localNumber := by
    rw [numbers]
    exact List.mem_singleton.mpr rfl
  obtain ⟨command,mem,named⟩ := List.mem_filterMap.mp seven
  unfold localNumber at named
  split at named
  · rename_i path number
    obtain rfl := Option.some.inj named
    refine ⟨rt,ends_,_,mem,?_⟩
    obtain ⟨tone,other⟩ | other | ⟨fetch,answer,asked,shape⟩ := playedSourcesGiven ends_ _ _ mem
    · cases other
    · cases other
    · obtain ⟨sha256,_,_,hex,same⟩ | other := shape
      · exact ⟨fetch,answer,asked,sha256,same,hex⟩
      · cases other
  · cases named

end TelephoneBooth.PlayedSources
