import TelephoneBooth.Fetches

/-! The speaker and the recorder at the end of the effect channel: which steps reach them
while the booth runs, and what those steps send back. -/
namespace TelephoneBooth
open Booth

def Event.ofRecorder : Event → Bool
  | .recordingFinished _ | .recordingFailed _ | .recordingTimedOut => true
  | _ => false

def isAudio : Effect → Bool
  | .play _ | .stopAudio | .startRecording | .armRecordingTimeout | .cancelRecordingTimeout
  | .stopRecording => true
  | _ => false

def Plain (notices : List Notice) : Prop :=
  ∀ notice ∈ notices, notice.event.ofRecorder = false ∧ notice.event ≠ .playbackEnded

theorem plainNone : Plain [] := fun _ mem => absurd mem List.not_mem_nil

theorem plainOne {notice : Notice} (other : notice.event.ofRecorder = false)
    (unended : notice.event ≠ .playbackEnded) : Plain [notice] := by
  intro any mem
  rw [List.mem_singleton.mp mem]
  exact ⟨other,unended⟩

theorem Outcomes.plain {notices : List Notice} (outcomes : Outcomes notices) : Plain notices := by
  intro notice mem
  obtain ⟨id,outcome,rfl⟩ := outcomes notice mem
  exact ⟨rfl,by intro same; cases same⟩

theorem outsidePlain {event : Event} (outside : fromOutside event = true) :
    Plain [{ event }] := by
  cases event with
  | hookOn | hookOff | rotaryPulse | digitDialed | powerButtonPressed | powerButtonHeld =>
    exact plainOne rfl (by intro same; cases same)
  | _ => cases outside

theorem fetchPlain {f f' : Fetcher} {task : FetchTask} {notices : List Notice}
    (step : FetchStep f task f' notices) : Plain notices := by
  cases step with
  | advance | check | store => exact plainNone
  | announce answer checked =>
    cases task.kind <;> exact plainOne rfl (by intro same; cases same)
  | fail reason => cases task.kind <;> exact plainOne rfl (by intro same; cases same)

theorem startReports {r : Recorder} {number : Nat} {error : Option String} {notice : Notice}
    (mem : notice ∈ (r.start number error).2) :
    ∃ reason, error = some reason ∧
      notice = { event := .recordingFailed reason, origin := some number } := by
  cases error with
  | none => cases mem
  | some reason => exact ⟨reason,rfl,List.mem_singleton.mp mem⟩

theorem stopReports {r r' : Recorder} {number : Nat} {reply : StopReply} {notices : List Notice}
    (done : r.stop number reply = some (r',notices)) :
    (∃ recordingId started, r.capture = some started ∧ r' = { r with capture := none } ∧
      notices = [{ event := .recordingFinished recordingId, origin := some number,
                   captured := some started }]) ∨
    (∃ reason, (r' = r ∨ r' = { r with capture := none }) ∧
      notices = [{ event := .recordingFailed reason, origin := some number }]) := by
  cases reply with
  | error reason => cases done; exact .inr ⟨reason,.inl rfl,rfl⟩
  | ok recordingId =>
    cases recordingId with
    | none => cases done; exact .inr ⟨_,.inr rfl,rfl⟩
    | some recordingId =>
      obtain ⟨started,capturing,same⟩ := Option.map_eq_some_iff.mp done
      cases same
      exact .inl ⟨recordingId,started,capturing,rfl,rfl⟩

theorem fireReports {r r' : Recorder} {notices : List Notice} (done : r.fire = some (r',notices)) :
    ∃ armed, r.timer = some armed ∧ r' = { r with timer := none } ∧
      notices = [{ event := .recordingTimedOut, origin := some armed }] := by
  obtain ⟨armed,ticking,same⟩ := Option.map_eq_some_iff.mp done
  cases same
  exact ⟨armed,ticking,rfl,rfl⟩

structure AudioStill (rt rt' : Booth) : Prop where
  state : rt'.state = rt.state
  events : rt'.events = rt.events
  effects : rt'.effects = rt.effects
  recorder : rt'.recorder = rt.recorder
  speaker : rt'.speaker = rt.speaker

inductive AudioEffect (rt : Booth) (number : Nat) (reply : InlineReply) : Effect → Booth → Prop where
  | play (source) : AudioEffect rt number reply (.play source) { rt with
      fetcher := (rt.fetcher.resolveAudioRef source).2
      speaker := rt.speaker.enqueue (.play (rt.fetcher.resolveAudioRef source).1 number) }
  | stopAudio : AudioEffect rt number reply .stopAudio
      { rt with fetcher := rt.fetcher.reset, speaker := rt.speaker.enqueue .stop }
  | startRecording : AudioEffect rt number reply .startRecording
      ({ rt with recorder := (rt.recorder.start number reply.start).1 }.send
        (rt.recorder.start number reply.start).2)
  | armRecordingTimeout : AudioEffect rt number reply .armRecordingTimeout
      { rt with recorder := rt.recorder.arm number }
  | cancelRecordingTimeout : AudioEffect rt number reply .cancelRecordingTimeout
      { rt with recorder := rt.recorder.cancel }
  | stopRecording {recorder notices}
      (stopped : rt.recorder.stop number reply.stop = some (recorder,notices)) :
      AudioEffect rt number reply .stopRecording ({ rt with recorder }.send notices)

inductive AudioStep (rt : Booth) : Label → Booth → Prop where
  | plain {label rt' notices} (still : AudioStill rt rt') (plain : Plain notices) :
      AudioStep rt label (rt'.send notices)
  | pass {reply number emitted effects rt' notices}
      (received : rt.effects.receive = some ((number,emitted),effects))
      (other : isAudio emitted.effect = false) (still : AudioStill { rt with effects } rt')
      (plain : Plain notices) : AudioStep rt (.take reply) (rt'.send notices)
  | execute {reply number emitted effects rt'}
      (received : rt.effects.receive = some ((number,emitted),effects))
      (done : AudioEffect { rt with effects } number reply emitted.effect rt') :
      AudioStep rt (.take reply) rt'
  | fire {recorder notices} (done : rt.recorder.fire = some (recorder,notices)) :
      AudioStep rt .recordingTimeout ({ rt with recorder }.send notices)
  | speaker {label speaker notices} (done : rt.speaker.step label = some (speaker,notices)) :
      AudioStep rt (.speaker label) ({ rt with speaker }.send notices)

theorem stillSilent {rt rt' : Booth} {label : Label} (still : AudioStill rt rt') :
    AudioStep rt label rt' := by
  have quiet : AudioStep rt label (rt'.send []) := .plain still plainNone
  rwa [sendNone] at quiet

theorem passSilent {rt rt' : Booth} {reply : InlineReply} {number : Nat} {emitted : Emitted}
    {effects : Channel Emitted} (received : rt.effects.receive = some ((number,emitted),effects))
    (other : isAudio emitted.effect = false) (still : AudioStill { rt with effects } rt') :
    AudioStep rt (.take reply) rt' := by
  have quiet : AudioStep rt (.take reply) (rt'.send []) := .pass received other still plainNone
  rwa [sendNone] at quiet

theorem AudioEffect.isAudio {rt rt' : Booth} {number : Nat} {effect : Effect} {reply : InlineReply}
    (done : AudioEffect rt number reply effect rt') : TelephoneBooth.isAudio effect = true := by
  cases done <;> rfl

theorem executeAudio {rt rt' : Booth} {number : Nat} {effect : Effect} {reply : InlineReply}
    (done : Executes rt number reply effect rt') :
    AudioEffect rt number reply effect rt' ∨ isAudio effect = false ∧
      ∃ mid notices, rt' = mid.send notices ∧ AudioStill rt mid ∧ Plain notices := by
  cases done with
  | play source => exact .inl (.play source)
  | stopAudio => exact .inl .stopAudio
  | startRecording => exact .inl .startRecording
  | armRecordingTimeout => exact .inl .armRecordingTimeout
  | cancelRecordingTimeout => exact .inl .cancelRecordingTimeout
  | stopRecording stopped => exact .inl (.stopRecording stopped)
  | uploadRecording recordingId questionId =>
    exact .inr ⟨rfl,_,_,rfl,⟨rfl,rfl,rfl,rfl,rfl⟩,(acceptOutcomes _ _ _ _ _ _).plain⟩
  | armPulseTimeout | cancelPulseTimeout =>
    exact .inr ⟨rfl,_,[],(sendNone _).symm,⟨rfl,rfl,rfl,rfl,rfl⟩,plainNone⟩
  | fetch fetches =>
    have other : isAudio effect = false := by cases effect <;> first | rfl | cases fetches
    exact .inr ⟨other,_,[],(sendNone _).symm,⟨rfl,rfl,rfl,rfl,rfl⟩,plainNone⟩
  | outward silent =>
    have other : isAudio effect = false := by cases effect <;> first | rfl | cases silent
    exact .inr ⟨other,_,[],(sendNone _).symm,⟨rfl,rfl,rfl,rfl,rfl⟩,plainNone⟩

theorem operatorOther {effect : Effect} (operator : isOperatorEffect effect = true) :
    isAudio effect = false := by
  cases effect <;> first
    | rfl
    | cases operator

theorem audioStepCases {rt rt' : Booth} {label : Label} (step : BoothStep rt label rt')
    (quiet : isQuiet label = true) (running : rt'.phase = .running) : AudioStep rt label rt' := by
  have started := quietRunning step quiet running
  cases step with
  | handle | reconcile | restart => cases quiet
  | sense outside => exact .plain ⟨rfl,rfl,rfl,rfl,rfl⟩ (outsidePlain outside)
  | skip received stopping => exact absurd started stopping
  | forget waiting stopping => exact absurd started stopping
  | cancelFetch stopping => exact absurd started stopping
  | cancelUpload stopping => exact absurd started stopping
  | defer received operator =>
    exact passSilent received (operatorOther operator) ⟨rfl,rfl,rfl,rfl,rfl⟩
  | execute received live done =>
    rename_i reply number emitted effects
    rcases executeAudio done with audio | ⟨other,mid,notices,rfl,still,plain⟩
    · exact .execute received audio
    · exact .pass received other still plain
  | resume waiting live done =>
    rename_i reply next rest
    rcases executeAudio done with audio | ⟨other,mid,notices,rfl,still,plain⟩
    · have other := operatorOther next.operator
      rw [audio.isAudio] at other
      cases other
    · exact .plain ⟨still.state,still.events,still.effects,still.recorder,still.speaker⟩ plain
  | fetch done =>
    obtain ⟨task,_,moves⟩ := fetchStepCases done
    exact .plain ⟨rfl,rfl,rfl,rfl,rfl⟩ (fetchPlain moves)
  | upload done => exact .plain ⟨rfl,rfl,rfl,rfl,rfl⟩ (uploadOutcomes done).plain
  | pulseTimeout armed =>
    exact .plain ⟨rfl,rfl,rfl,rfl,rfl⟩ (plainOne rfl (by intro same; cases same))
  | recordingTimeout done => exact .fire done
  | speaker done => exact .speaker done
  | shutdown done => cases shutdownCases done <;> cases running
  | gate | spawn | joinFetch | joinUpload | enqueued | dequeued | replay =>
    exact stillSilent ⟨rfl,rfl,rfl,rfl,rfl⟩

end TelephoneBooth
