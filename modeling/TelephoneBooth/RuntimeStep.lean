import TelephoneBooth.Runtime
import TelephoneBooth.Transition

/-! What one step of the runtime can do, said once: every label with the choices that
enable it and the state it leads to. -/
namespace TelephoneBooth
open Booth

def isOutward : Effect → Bool
  | .putStatus _ | .log _ | .setStatusLed _ _ | .reboot | .powerOff => true
  | _ => false

inductive Executes (rt : Booth) (number : Nat) (reply : InlineReply) : Effect → Booth → Prop where
  | play (source) : Executes rt number reply (.play source) { rt with
      fetcher := (rt.fetcher.resolveAudioRef source).2
      speaker := rt.speaker.enqueue (.play (rt.fetcher.resolveAudioRef source).1 number) }
  | stopAudio : Executes rt number reply .stopAudio
      { rt with fetcher := rt.fetcher.reset, speaker := rt.speaker.enqueue .stop }
  | startRecording : Executes rt number reply .startRecording
      ({ rt with recorder := (rt.recorder.start number reply.start).1 }.send
        (rt.recorder.start number reply.start).2)
  | armRecordingTimeout : Executes rt number reply .armRecordingTimeout
      { rt with recorder := rt.recorder.arm number }
  | cancelRecordingTimeout : Executes rt number reply .cancelRecordingTimeout
      { rt with recorder := rt.recorder.cancel }
  | stopRecording {recorder notices}
      (stopped : rt.recorder.stop number reply.stop = some (recorder,notices)) :
      Executes rt number reply .stopRecording ({ rt with recorder }.send notices)
  | armPulseTimeout : Executes rt number reply .armPulseTimeout { rt with pulseTimeout := true }
  | cancelPulseTimeout : Executes rt number reply .cancelPulseTimeout
      { rt with pulseTimeout := false }
  | uploadRecording (recordingId questionId) :
      Executes rt number reply (.uploadRecording recordingId questionId)
        ({ rt with uploads :=
            (rt.uploads.accept rt.minRecordingMs number recordingId questionId reply.file).1 }.send
          (rt.uploads.accept rt.minRecordingMs number recordingId questionId reply.file).2)
  | fetch {effect kind} (fetches : effect.fetchKind = some kind) :
      Executes rt number reply effect { rt with fetcher := rt.fetcher.spawn number kind }
  | outward {effect} (silent : isOutward effect = true) : Executes rt number reply effect rt

theorem executeCases {rt rt' : Booth} {number : Nat} {effect : Effect} {reply : InlineReply}
    (done : rt.execute number effect reply = some rt') : Executes rt number reply effect rt' := by
  cases effect with
  | stopRecording =>
    obtain ⟨⟨recorder,notices⟩,stopped,rfl⟩ := Option.map_eq_some_iff.mp done
    exact .stopRecording stopped
  | play source => obtain rfl := Option.some.inj done; exact .play source
  | stopAudio => obtain rfl := Option.some.inj done; exact .stopAudio
  | startRecording => obtain rfl := Option.some.inj done; exact .startRecording
  | armRecordingTimeout => obtain rfl := Option.some.inj done; exact .armRecordingTimeout
  | cancelRecordingTimeout => obtain rfl := Option.some.inj done; exact .cancelRecordingTimeout
  | armPulseTimeout => obtain rfl := Option.some.inj done; exact .armPulseTimeout
  | cancelPulseTimeout => obtain rfl := Option.some.inj done; exact .cancelPulseTimeout
  | uploadRecording recordingId questionId =>
    obtain rfl := Option.some.inj done
    exact .uploadRecording recordingId questionId
  | fetchRandomQuestion | fetchRandomMessage | fetchInstructions =>
    obtain rfl := Option.some.inj done
    exact .fetch rfl
  | putStatus | log | setStatusLed | reboot | powerOff =>
    obtain rfl := Option.some.inj done
    exact .outward rfl

inductive BoothStep (rt : Booth) : Label → Booth → Prop where
  | sense {event} (outside : fromOutside event = true) :
      BoothStep rt (.sense event) (rt.send [{ event }])
  | handle {sent events} (running : rt.phase = .running) (next : rt.events = sent :: events) :
      BoothStep rt .handle ({ rt with events }.handleEvent sent.event sent.origin)
  | reconcile (running : rt.phase = .running) :
      BoothStep rt .reconcile ({ rt with acceptingCalls := rt.accepting }.handleEvent .tick none)
  | gate (accepting invalidates) : BoothStep rt (.gate accepting invalidates)
      { rt with accepting, fetcher := if invalidates then rt.fetcher.invalidate else rt.fetcher }
  | skip {reply number emitted effects} (received : rt.effects.receive = some ((number,emitted),effects))
      (stopping : rt.phase ≠ .running) (other : isUpload emitted.effect = false) :
      BoothStep rt (.take reply) { rt with effects }
  | defer {reply number emitted effects}
      (received : rt.effects.receive = some ((number,emitted),effects))
      (operator : isOperatorEffect emitted.effect = true) :
      BoothStep rt (.take reply) { rt with
        effects, pendingOperatorEffects := rt.pendingOperatorEffects ++ [⟨number,emitted,operator⟩] }
  | execute {reply number emitted effects rt'}
      (received : rt.effects.receive = some ((number,emitted),effects))
      (live : rt.phase = .running ∨ isUpload emitted.effect = true)
      (done : Executes { rt with effects } number reply emitted.effect rt') :
      BoothStep rt (.take reply) rt'
  | forget {reply next rest} (waiting : rt.pendingOperatorEffects = next :: rest)
      (stopping : rt.phase ≠ .running) (other : isUpload next.emitted.effect = false) :
      BoothStep rt (.resume reply) { rt with pendingOperatorEffects := rest }
  | resume {reply next rest rt'} (waiting : rt.pendingOperatorEffects = next :: rest)
      (live : rt.phase = .running ∨ isUpload next.emitted.effect = true)
      (done : Executes { rt with pendingOperatorEffects := rest } next.number reply
        next.emitted.effect rt') : BoothStep rt (.resume reply) rt'
  | spawn {uploads} (done : rt.uploads.spawn rt.shuttingDown = some uploads) :
      BoothStep rt .spawn { rt with uploads }
  | fetch {number reply fetcher notices}
      (done : rt.fetcher.step number reply = some (fetcher,notices)) :
      BoothStep rt (.fetch number reply) ({ rt with fetcher }.send notices)
  | upload {number reply uploads notices}
      (done : rt.uploads.step number rt.shuttingDown rt.accepting reply = some (uploads,notices)) :
      BoothStep rt (.upload number reply) ({ rt with uploads }.send notices)
  | cancelFetch {number fetcher} (stopping : rt.phase ≠ .running)
      (done : rt.fetcher.cancel number = some fetcher) :
      BoothStep rt (.cancel number) { rt with fetcher }
  | cancelUpload {number uploads} (stopping : rt.phase ≠ .running)
      (done : rt.uploads.cancel number = some uploads) :
      BoothStep rt (.cancel number) { rt with uploads }
  | joinFetch {number fetcher} (done : rt.fetcher.join number = some fetcher) :
      BoothStep rt (.join number) { rt with fetcher }
  | joinUpload {number uploads} (done : rt.uploads.join number = some uploads) :
      BoothStep rt (.join number) { rt with uploads }
  | pulseTimeout (armed : rt.pulseTimeout = true) :
      BoothStep rt .pulseTimeout ({ rt with pulseTimeout := false }.send [{ event := .tick }])
  | recordingTimeout {recorder notices} (done : rt.recorder.fire = some (recorder,notices)) :
      BoothStep rt .recordingTimeout ({ rt with recorder }.send notices)
  | speaker {label speaker notices} (done : rt.speaker.step label = some (speaker,notices)) :
      BoothStep rt (.speaker label) ({ rt with speaker }.send notices)
  | enqueued {job error uploads} (done : rt.uploads.enqueued job error = some uploads) :
      BoothStep rt (.enqueued job error) { rt with uploads }
  | dequeued {job removed uploads} (done : rt.uploads.dequeued job removed = some uploads) :
      BoothStep rt (.dequeued job removed) { rt with uploads }
  | replay {reply uploads} (done : rt.uploads.replayStep rt.accepting reply = some uploads) :
      BoothStep rt (.replay reply) { rt with uploads }
  | shutdown {rt'} (done : rt.advanceShutdown = some rt') : BoothStep rt .shutdown rt'
  | restart (accepting onHook) :
      BoothStep rt (.restart accepting onHook) (rt.restart accepting onHook)

inductive ShutdownStep (rt : Booth) : Booth → Prop where
  | flag (phase : rt.phase = .running) : ShutdownStep rt { rt with phase := .flagged }
  | deafen (phase : rt.phase = .flagged) : ShutdownStep rt { rt with phase := .deaf, events := [] }
  | silence (phase : rt.phase = .deaf) :
      ShutdownStep rt { rt with phase := .silenced, speaker := rt.speaker.enqueue .shutdown }
  | abort (phase : rt.phase = .silenced) : ShutdownStep rt { rt with
      phase := .aborted
      uploads := rt.uploads.abortReplay
      speaker := { rt.speaker with running := false } }
  | close (phase : rt.phase = .aborted) : ShutdownStep rt { rt with phase := .closing }
  | leave (phase : rt.phase = .closing) (drained : rt.effects.drained)
      (pending : rt.pendingOperatorEffects = []) (admitting : rt.uploads.admitting = none)
      (enqueues : rt.uploads.enqueues = []) : ShutdownStep rt { rt with
        phase := .returned
        fetcher := { rt.fetcher with tasks := [] }
        recorder := rt.recorder.cancel
        pulseTimeout := false
        uploads := rt.uploads.abortTasks }

theorem shutdownCases {rt rt' : Booth} (done : rt.advanceShutdown = some rt') :
    ShutdownStep rt rt' := by
  unfold advanceShutdown at done
  split at done
  case h_1 phase => cases done; exact .flag phase
  case h_2 phase => cases done; exact .deafen phase
  case h_3 phase => cases done; exact .silence phase
  case h_4 phase => cases done; exact .abort phase
  case h_5 phase => cases done; exact .close phase
  case h_6 phase =>
    split at done
    · rename_i finished
      cases done
      exact .leave phase finished.1 finished.2.1 finished.2.2.1 finished.2.2.2
    · cases done
  case h_7 => cases done

theorem dispatchCases {rt rt' : Booth} {number : Nat} {effect : Effect} {reply : InlineReply}
    (done : rt.dispatch number effect reply = some rt') :
    (rt.phase ≠ .running ∧ isUpload effect = false ∧ rt' = rt) ∨
    ((rt.phase = .running ∨ isUpload effect = true) ∧ Executes rt number reply effect rt') := by
  unfold dispatch at done
  split at done
  · rename_i skipped
    cases done
    simp only [shuttingDown,Bool.and_eq_true,decide_eq_true_eq,Bool.not_eq_true'] at skipped
    exact .inl ⟨skipped.1,skipped.2,rfl⟩
  · rename_i live
    simp only [shuttingDown,Bool.and_eq_true,decide_eq_true_eq,Bool.not_eq_true',not_and,
      Bool.not_eq_false] at live
    by_cases running : rt.phase = .running
    · exact .inr ⟨.inl running,executeCases done⟩
    · exact .inr ⟨.inr (live running),executeCases done⟩

theorem takeStep {rt rt' : Booth} {reply : InlineReply} (done : rt.take reply = some rt') :
    BoothStep rt (.take reply) rt' := by
  unfold take at done
  obtain ⟨⟨⟨number,emitted⟩,effects⟩,received,done⟩ := Option.bind_eq_some_iff.mp done
  have dispatched (done : ({ rt with effects } : Booth).dispatch number emitted.effect reply =
      some rt') : BoothStep rt (.take reply) rt' := by
    rcases dispatchCases done with ⟨stopping,other,rfl⟩ | ⟨live,done⟩
    · exact .skip received stopping other
    · exact .execute received live done
  dsimp only at done
  split at done
  · split at done
    · cases done
      exact .defer received (by assumption)
    · exact dispatched done
  · split at done
    · exact dispatched done
    · cases done

theorem resumeStep {rt rt' : Booth} {reply : InlineReply} (done : rt.resume reply = some rt') :
    BoothStep rt (.resume reply) rt' := by
  unfold Booth.resume at done
  split at done
  · rename_i next rest waiting
    split at done
    · cases done
    · rcases dispatchCases done with ⟨stopping,other,rfl⟩ | ⟨live,done⟩
      · exact .forget waiting stopping other
      · exact .resume waiting live done
  · cases done

theorem stepCases {rt rt' : Booth} {label : Label} (done : rt.step label = some rt') :
    BoothStep rt label rt' := by
  cases label with
  | sense event =>
    simp only [step] at done
    split at done
    · cases done; exact .sense (by assumption)
    · cases done
  | handle =>
    simp only [step] at done
    split at done
    · cases done; exact .handle (by assumption) (by assumption)
    · cases done
  | gate accepting invalidates => cases done; exact .gate _ _
  | reconcile =>
    simp only [step] at done
    split at done
    · rename_i ready
      cases done
      exact .reconcile ready.1
    · cases done
  | take reply =>
    simp only [step] at done
    split at done
    · exact takeStep done
    · cases done
  | resume reply =>
    simp only [step] at done
    split at done
    · exact resumeStep done
    · cases done
  | spawn =>
    obtain ⟨uploads,moved,rfl⟩ := Option.map_eq_some_iff.mp done
    exact .spawn moved
  | fetch number reply =>
    obtain ⟨⟨fetcher,notices⟩,moved,rfl⟩ := Option.map_eq_some_iff.mp done
    exact .fetch moved
  | upload number reply =>
    obtain ⟨⟨uploads,notices⟩,moved,rfl⟩ := Option.map_eq_some_iff.mp done
    exact .upload moved
  | cancel number =>
    simp only [step] at done
    split at done
    · rename_i stopping
      simp only [shuttingDown,decide_eq_true_eq] at stopping
      split at done
      · cases done; exact .cancelFetch stopping (by assumption)
      · obtain ⟨uploads,moved,rfl⟩ := Option.map_eq_some_iff.mp done
        exact .cancelUpload stopping moved
    · cases done
  | join number =>
    simp only [step] at done
    split at done
    · cases done; exact .joinFetch (by assumption)
    · obtain ⟨uploads,moved,rfl⟩ := Option.map_eq_some_iff.mp done
      exact .joinUpload moved
  | pulseTimeout =>
    simp only [step] at done
    split at done
    · cases done; exact .pulseTimeout (by assumption)
    · cases done
  | recordingTimeout =>
    obtain ⟨⟨recorder,notices⟩,moved,rfl⟩ := Option.map_eq_some_iff.mp done
    exact .recordingTimeout moved
  | speaker label =>
    obtain ⟨⟨speaker,notices⟩,moved,rfl⟩ := Option.map_eq_some_iff.mp done
    exact .speaker moved
  | enqueued job error =>
    obtain ⟨uploads,moved,rfl⟩ := Option.map_eq_some_iff.mp done
    exact .enqueued moved
  | dequeued job removed =>
    obtain ⟨uploads,moved,rfl⟩ := Option.map_eq_some_iff.mp done
    exact .dequeued moved
  | replay reply =>
    obtain ⟨uploads,moved,rfl⟩ := Option.map_eq_some_iff.mp done
    exact .replay moved
  | shutdown => exact .shutdown done
  | restart accepting onHook => cases done; exact .restart _ _

theorem takenReady {rt rt' : Booth} {label : Label} (done : rt.step label = some rt')
    (takes : (∃ reply, label = .take reply) ∨ ∃ reply, label = .resume reply) :
    rt.uploads.admitting = none := by
  rcases takes with ⟨reply,rfl⟩ | ⟨reply,rfl⟩ <;>
  · simp only [Booth.step] at done
    split at done
    · rename_i ready
      simp only [dispatcherReady,Bool.and_eq_true,Option.isNone_iff_eq_none] at ready
      exact ready.1.1
    · cases done

theorem sendNone (rt : Booth) : rt.send [] = rt := by
  unfold send
  split
  · simp
  · rfl

theorem bootInvariant {invariant : Booth → Prop} {minRecordingMs : Nat} {recordingsDir : String}
    {accepting onHook : Bool} {spool : Spool}
    (resting : invariant (atRest minRecordingMs recordingsDir accepting onHook spool))
    (lifted : invariant
      ((atRest minRecordingMs recordingsDir accepting onHook spool).handleEvent .hookOff none)) :
    invariant (boot minRecordingMs recordingsDir accepting onHook spool) := by
  unfold boot
  dsimp only
  split
  · exact lifted
  · exact resting

def Outcomes (notices : List Notice) : Prop :=
  ∀ notice ∈ notices, ∃ id outcome, notice = outcomeNotice id outcome

theorem outcomesNone : Outcomes [] := fun _ mem => absurd mem List.not_mem_nil

theorem outcomesOne (id : RecordingId) (outcome : UploadOutcome) :
    Outcomes [outcomeNotice id outcome] := fun _ mem => ⟨id,outcome,List.mem_singleton.mp mem⟩

theorem acceptOutcomes (u : Uploads) (minimum number : Nat) (id : RecordingId)
    (question : QuestionId) (file : FileReply) :
    Outcomes (u.accept minimum number id question file).2 := by
  unfold Uploads.accept
  repeat' split
  all_goals first
    | exact outcomesOne _ _
    | exact outcomesNone

theorem uploadOutcomes {u u' : Uploads} {number : Nat} {stopping accepting : Bool}
    {reply : Option OperatorError} {notices : List Notice}
    (done : u.step number stopping accepting reply = some (u',notices)) : Outcomes notices := by
  obtain ⟨task,_,done⟩ := Option.bind_eq_some_iff.mp done
  dsimp only at done
  repeat' split at done
  all_goals first
    | cases done; exact outcomesOne _ _
    | cases done; exact outcomesNone
    | cases done

def isQuiet : Label → Bool
  | .handle | .reconcile | .restart _ _ => false
  | _ => true

structure CoreStill (rt rt' : Booth) : Prop where
  state : rt'.state = rt.state
  hookMark : rt'.hookMark = rt.hookMark
  announced : rt'.announced = rt.announced
  log : rt'.effects.log = rt.effects.log

theorem executeStill {rt rt' : Booth} {number : Nat} {effect : Effect} {reply : InlineReply}
    (done : Executes rt number reply effect rt') : CoreStill rt rt' := by
  cases done <;> constructor <;> simp

theorem executeEffects {rt rt' : Booth} {number : Nat} {effect : Effect} {reply : InlineReply}
    (done : Executes rt number reply effect rt') : rt'.effects = rt.effects := by
  cases done <;> simp

theorem quietStill {rt rt' : Booth} {label : Label} (step : BoothStep rt label rt')
    (quiet : isQuiet label = true) : CoreStill rt rt' := by
  cases step with
  | handle | reconcile | restart => cases quiet
  | skip received | defer received =>
    obtain ⟨_,_,log,_⟩ := Channel.receiveCases received
    exact ⟨rfl,rfl,rfl,log⟩
  | execute received live done =>
    obtain ⟨_,_,log,_⟩ := Channel.receiveCases received
    have later := executeStill done
    exact ⟨later.state,later.hookMark,later.announced,later.log.trans log⟩
  | resume waiting live done =>
    have later := executeStill done
    exact ⟨later.state,later.hookMark,later.announced,later.log⟩
  | shutdown done => cases shutdownCases done <;> exact ⟨rfl,rfl,rfl,rfl⟩
  | _ => constructor <;> simp

theorem executePhase {rt rt' : Booth} {number : Nat} {effect : Effect} {reply : InlineReply}
    (done : Executes rt number reply effect rt') : rt'.phase = rt.phase := by
  cases done <;> simp

theorem quietRunning {rt rt' : Booth} {label : Label} (step : BoothStep rt label rt')
    (quiet : isQuiet label = true) (running : rt'.phase = .running) : rt.phase = .running := by
  cases step with
  | handle | reconcile | restart => cases quiet
  | execute received live done => exact (executePhase done).symm.trans running
  | resume waiting live done => exact (executePhase done).symm.trans running
  | shutdown done =>
    cases shutdownCases done with
    | flag phase => exact phase
    | _ => cases running
  | _ => simpa using running

theorem quietTaken {rt rt' : Booth} {label : Label} (step : BoothStep rt label rt')
    (quiet : isQuiet label = true) : rt.effects.taken ≤ rt'.effects.taken := by
  cases step with
  | handle | reconcile | restart => cases quiet
  | skip received | defer received => exact Channel.receivedTaken received
  | execute received live done =>
    rw [executeEffects done]
    exact Channel.receivedTaken received
  | resume waiting live done => rw [executeEffects done]
  | shutdown done => cases shutdownCases done <;> exact Nat.le_refl _
  | _ => simp

theorem waitsBack {rt rt' : Booth} {label : Label} (step : BoothStep rt label rt')
    (quiet : isQuiet label = true) {n : Nat} {emitted : Emitted}
    (waits : rt'.effects.Waits n emitted) : rt.effects.Waits n emitted := by
  obtain ⟨later,found⟩ := waits
  rw [(quietStill step quiet).log] at found
  exact ⟨Nat.le_trans (quietTaken step quiet) later,found⟩

def emits (rt : Booth) (event : Event) (origin : Option Nat) : List Emitted :=
  (coreStep rt.state (event,rt.accepting)).2.map fun effect =>
    ⟨effect,rt.announcedBy event origin⟩

theorem handleWaits {rt : Booth} {event : Event} {origin : Option Nat} {n : Nat} {emitted : Emitted}
    (waits : (rt.handleEvent event origin).effects.Waits n emitted) :
    rt.effects.Waits n emitted ∨ rt.effects.log.length ≤ n ∧
      (emits rt event origin)[n - rt.effects.log.length]? = some emitted :=
  (Channel.waitsSent waits).imp And.left id

theorem emitsMem {rt : Booth} {event : Event} {origin : Option Nat} {n : Nat} {emitted : Emitted}
    (found : (emits rt event origin)[n]? = some emitted) :
    emitted.effect ∈ (coreStep rt.state (event,rt.accepting)).2 := by
  obtain ⟨effect,mem,rfl⟩ := List.mem_map.mp (List.mem_of_getElem? found)
  exact mem

theorem emitsWaits {rt : Booth} {event : Event} (origin : Option Nat) {effect : Effect}
    (mem : effect ∈ (coreStep rt.state (event,rt.accepting)).2) :
    ∃ n emitted, rt.effects.log.length ≤ n ∧
      (rt.handleEvent event origin).effects.Waits n emitted ∧ emitted.effect = effect := by
  obtain ⟨i,found⟩ := List.mem_iff_getElem?.mp mem
  have new : (emits rt event origin)[i]? = some ⟨effect,rt.announcedBy event origin⟩ := by
    rw [emits,List.getElem?_map,found]
    rfl
  exact ⟨rt.effects.log.length + i,_,Nat.le_add_right _ _,Channel.sentNew rt.effects new,rfl⟩

end TelephoneBooth
