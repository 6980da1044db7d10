import TelephoneBooth.AudioPath
import TelephoneBooth.Answers

/-! Recordings as the runtime makes them: when the core opens and closes one, and what a step
without the core does to the recorder, the timer and the events they send. -/
namespace TelephoneBooth
open Booth State Event Effect

def isRecorder : Effect → Bool
  | startRecording | armRecordingTimeout | cancelRecordingTimeout | stopRecording => true
  | _ => false

def State.recorded : State → Bool
  | recording _ => true
  | _ => false

def State.beeping : State → Bool
  | State.beep _ => true
  | _ => false

structure Records (s : State) (e : Event) (s' : State) (effects : List Effect) : Prop where
  opens : startRecording ∈ effects ∨ armRecordingTimeout ∈ effects ∨
    s.answering = none ∧ s'.answering.isSome = true →
    s.beeping = true ∧ e = playbackEnded ∧
      ∃ front back, effects = front ++ startRecording :: back ∧
        (∀ effect ∈ front, isRecorder effect = false) ∧ startRecording ∉ back
  starts : startRecording ∈ effects ∨ armRecordingTimeout ∈ effects → s'.recorded = true
  closes : s.recorded = true → s'.recorded = true ∨ cancelRecordingTimeout ∈ effects

theorem Records.silent {s e s' effects} (still : s'.answering = none) (before : s.recorded = false)
    (quiet : ∀ effect ∈ effects, effect ≠ startRecording ∧ effect ≠ armRecordingTimeout) :
    Records s e s' effects := by
  have none_ : ¬ (startRecording ∈ effects ∨ armRecordingTimeout ∈ effects) := by
    rintro (started | armed)
    · exact (quiet _ started).1 rfl
    · exact (quiet _ armed).2 rfl
  refine ⟨?_,fun starts => absurd starts none_,fun closes => by rw [before] at closes; cases closes⟩
  rintro (started | armed | ⟨_,under⟩)
  · exact absurd (.inl started) none_
  · exact absurd (.inr armed) none_
  · rw [still] at under
    cases under

theorem decodeRecords (digit : UInt8) : ∀ effect ∈ (decodeDigit digit).2,
    effect ≠ startRecording ∧ effect ≠ armRecordingTimeout := by
  unfold decodeDigit
  repeat' split
  all_goals simp

theorem armRecords {s e s' effects} (arm : Arm s e s' effects) : Records s e s' effects := by
  cases arm
  case stay same =>
    constructor <;> simp +contextual
  case power effect button =>
    rcases button with ⟨rfl,rfl⟩ | ⟨rfl,rfl⟩ <;> constructor <;> simp_all
  case beeped q =>
    refine ⟨fun _ => ⟨rfl,rfl,[],_,rfl,by simp,by simp⟩,fun _ => rfl,fun recorded => by cases recorded⟩
  case dial digit dials =>
    refine .silent (decodeAnswering digit) ?_ (decodeRecords digit)
    cases dials <;> rfl
  case rest rests => cases rests <;> exact .silent rfl rfl (by simp)
  case fail fails =>
    cases fails <;> constructor <;> simp [State.answering,State.recorded]
  case uploadedBeeping done => exact .silent rfl rfl (by simp)
  case silentUploaded done => exact .silent rfl rfl (by simp)
  case hangUpReset recording_ finishing timedOut =>
    have before : s.recorded = false := by
      cases s <;> first | rfl | exact absurd rfl (recording_ _)
    exact .silent rfl before (by simp)
  all_goals
    constructor <;> simp [State.answering,State.recorded]

theorem settlePlayback {s : State} {e : Event} (settled : settle s e = some playbackEnded) :
    e = playbackEnded := by
  refine settledSame settled ?_
  intro outcome same
  cases outcome <;> cases same

theorem Records.unsettle {s e e' s' effects} (records : Records s e' s' effects)
    (settled : settle s e = some e') : Records s e s' effects := by
  refine ⟨fun opens => ?_,records.starts,records.closes⟩
  obtain ⟨beeping,rfl,rest⟩ := records.opens opens
  exact ⟨beeping,settlePlayback settled,rest⟩

theorem silenceBeepRecorded (s : State) : (silenceBeep s).1.recorded = s.recorded :=
  silencedAlike State.recorded (fun _ _ => rfl) s

theorem protectedBeeping {s : State} (safe : s.isProtected = true) :
    (silenceBeep s).1.beeping = false := by
  cases s with
  | uploadingTimedOut r q pending => cases pending <;> rfl
  | beep q => cases safe
  | _ => rfl

theorem pausedRecorder (pending : Bool) (effects : List Effect) {back : List Effect}
    (others : ∀ x ∈ back, isRecorder x = false) {effect : Effect}
    (recorder : isRecorder effect = true) :
    effect ∈ stopIf pending ++ suppress effects ++ back ↔ effect ∈ effects := by
  have front : effect ∉ stopIf pending := by
    intro mem
    cases pending
    · cases mem
    · rw [List.mem_singleton.mp mem] at recorder
      cases recorder
  have behind : effect ∉ back := by
    intro mem
    rw [others effect mem] at recorder
    cases recorder
  have kept : effect ∈ suppress effects ↔ effect ∈ effects := by
    unfold suppress
    rw [List.mem_filter]
    cases effect with
    | play | putStatus => cases recorder
    | _ => simp
  simp [front,behind,kept]

theorem turnRecords {s e accepting s' effects} (turn : Turn s e accepting s' effects) :
    Records s e s' effects := by
  cases turn with
  | stale dropped => constructor <;> simp +contextual
  | inner settled open_ same => exact (armRecords (innerArm same)).unsettle settled
  | resumedIdle paused position => subst paused; exact .silent rfl rfl (by simp)
  | resumedTone paused position silent => subst paused; exact .silent rfl rfl (by simp)
  | resumedPulse paused position input => subst paused; exact .silent rfl rfl (by simp)
  | resumedDigit paused position input =>
    subst paused
    refine .silent (decodeAnswering _) rfl ?_
    intro effect mem
    rcases List.mem_append.mp mem with front | back
    · rcases List.mem_pair.mp front with rfl | rfl <;> simp
    · exact decodeRecords _ effect back
  | stillPaused paused => subst paused; exact .silent rfl rfl (by simp)
  | cut idle_ playing =>
    have before : s.recorded = false := by cases s <;> first | rfl | cases idle_
    exact .silent rfl before (by simp)
  | kept settled safe same still =>
    rename_i e' n effects
    have inner := armRecords (innerArm same)
    have shut : ¬ _ := fun opens => by
      have beeping := (inner.opens opens).1
      rw [protectedBeeping safe] at beeping
      cases beeping
    have none_ : ∀ x ∈ ([] : List Effect), isRecorder x = false := by simp
    have through {effect : Effect} (recorder : isRecorder effect = true) :=
      pausedRecorder ((silenceBeep s).2 || (silenceBeep n).2) effects none_ recorder
    simp only [List.append_nil] at through
    refine ⟨?_,?_,?_⟩
    · rw [through rfl,through rfl,silenceBeepAnswering]
      rw [silenceBeepAnswering] at shut
      exact fun opens => absurd opens shut
    · rw [through rfl,through rfl,silenceBeepRecorded]
      exact inner.starts
    · rw [through rfl,silenceBeepRecorded]
      have closes := inner.closes
      rwa [silenceBeepRecorded] at closes
  | released settled safe same ended =>
    rename_i e' n effects
    have inner := armRecords (innerArm same)
    have others : ∀ x ∈ [stopAudio,cancelPulseTimeout], isRecorder x = false := by simp [isRecorder]
    have through {effect : Effect} (recorder : isRecorder effect = true) :=
      pausedRecorder (silenceBeep s).2 effects others recorder
    have gone : n.recorded = false := by cases n <;> first | rfl | cases ended
    refine ⟨?_,?_,?_⟩
    · rw [through rfl,through rfl]
      rintro (started | armed | ⟨_,under⟩)
      · rw [inner.starts (.inl started)] at gone; cases gone
      · rw [inner.starts (.inr armed)] at gone; cases gone
      · cases under
    · rw [through rfl,through rfl]
      intro starts
      rw [inner.starts starts] at gone
      cases gone
    · rw [through rfl]
      intro recorded
      rw [← silenceBeepRecorded] at recorded
      rcases inner.closes recorded with still | cancels
      · rw [gone] at still; cases still
      · exact .inr cancels

theorem stepRecords (s : State) (i : Input) : Records s i.1 (coreStep s i).1 (coreStep s i).2 := by
  obtain ⟨effects,same,turn⟩ := stepTurn s i
  have records := turnRecords turn
  have led {effect : Effect} (mem : effect ∈ ledChange s (coreStep s i).1) :
      isRecorder effect = false := by
    obtain ⟨colour,pattern,rfl⟩ := ledChangeMem mem
    rfl
  have through {effect : Effect} (recorder : isRecorder effect = true) :
      effect ∈ ledChange s (coreStep s i).1 ++ effects ↔ effect ∈ effects := by
    rw [List.mem_append]
    refine ⟨fun mem => mem.elim (fun front => ?_) id,.inr⟩
    rw [led front] at recorder
    cases recorder
  rw [same]
  refine ⟨?_,?_,?_⟩
  · rw [through rfl,through rfl]
    intro opens
    obtain ⟨beeping,ended,front,back,rfl,quiet,once⟩ := records.opens opens
    refine ⟨beeping,ended,ledChange s (coreStep s i).1 ++ front,back,by simp,?_,once⟩
    intro effect mem
    exact (List.mem_append.mp mem).elim led (quiet effect)
  · rw [through rfl,through rfl]
    exact records.starts
  · rw [through rfl]
    exact records.closes

inductive Driven (r : Recorder) (number : Nat) : Effect → Recorder → List Notice → Prop where
  | started : Driven r number startRecording { r with capture := some number } []
  | refused (reason) : Driven r number startRecording r
      [{ event := recordingFailed reason, origin := some number }]
  | armed : Driven r number armRecordingTimeout { r with timer := some number } []
  | cancelled : Driven r number cancelRecordingTimeout { r with timer := none } []
  | finished (recordingId started) (capturing : r.capture = some started) :
      Driven r number stopRecording { r with capture := none }
        [{ event := recordingFinished recordingId, origin := some number,
           captured := some started }]
  | failed (reason r') (kept : r' = r ∨ r' = { r with capture := none }) :
      Driven r number stopRecording r'
        [{ event := recordingFailed reason, origin := some number }]

structure Bystands (rt rt' : Booth) : Prop where
  recorder : rt'.recorder = rt.recorder
  taken : rt.effects.taken ≤ rt'.effects.taken
  waits : ∀ number emitted, rt.effects.Waits number emitted → isRecorder emitted.effect = true →
    rt'.effects.Waits number emitted
  events : ∃ sent, rt'.events = rt.events ++ sent ∧ ∀ new ∈ sent, new.event.ofRecorder = false ∧
    (new.event = playbackEnded → new.origin = rt.speaker.current)

inductive RecorderStep (rt rt' : Booth) : Prop where
  | bystand (still : Bystands rt rt')
  | drive {number emitted effects notices}
      (received : rt.effects.receive = some ((number,emitted),effects))
      (driven : Driven rt.recorder number emitted.effect rt'.recorder notices)
      (taken : rt'.effects = effects)
      (events : rt'.events = rt.events ++ notices.map fun notice => ⟨notice,number + 1⟩)
  | fire {armed} (ticking : rt.recorder.timer = some armed)
      (recorder : rt'.recorder = { rt.recorder with timer := none })
      (effects : rt'.effects = rt.effects)
      (events : rt'.events = rt.events ++
        [⟨{ event := recordingTimedOut, origin := some armed },rt.effects.taken⟩])

theorem sendRunning (rt : Booth) (running : rt.phase = .running) (notices : List Notice) :
    (rt.send notices).events = rt.events ++ notices.map fun notice => ⟨notice,rt.effects.taken⟩ := by
  unfold send
  rw [if_pos (.inl running)]

theorem bystandPlain {rt mid : Booth} {notices : List Notice} (running : mid.phase = .running)
    (recorder : mid.recorder = rt.recorder) (events : mid.events = rt.events)
    (plain : Plain notices) (taken : rt.effects.taken ≤ mid.effects.taken)
    (waits : ∀ number emitted, rt.effects.Waits number emitted → isRecorder emitted.effect = true →
      mid.effects.Waits number emitted) : Bystands rt (mid.send notices) := by
  have sent := sendRunning mid running notices
  rw [events] at sent
  refine ⟨by simpa using recorder,by simpa using taken,by simpa using waits,_,sent,?_⟩
  intro new mem
  obtain ⟨notice,inside,rfl⟩ := List.mem_map.mp mem
  exact ⟨(plain notice inside).1,fun ended => absurd ended (plain notice inside).2⟩

theorem receiveBystands {rt : Booth} {number : Nat} {emitted : Emitted} {effects : Channel Emitted}
    (received : rt.effects.receive = some ((number,emitted),effects))
    (other : isRecorder emitted.effect = false) :
    rt.effects.taken ≤ effects.taken ∧ ∀ n item, rt.effects.Waits n item →
      isRecorder item.effect = true → effects.Waits n item := by
  obtain ⟨place,found,log,taken⟩ := Channel.receiveCases received
  refine ⟨by omega,?_⟩
  rintro n item ⟨later,waiting⟩ recorder
  have apart : n ≠ number := by
    rintro rfl
    rw [found] at waiting
    cases waiting
    rw [other] at recorder
    cases recorder
  exact ⟨by omega,by rw [log]; exact waiting⟩

theorem recorderOther {effect : Effect} (other : isAudio effect = false) :
    isRecorder effect = false := by
  cases effect <;> first
    | rfl
    | cases other

theorem stopDriven {r r' : Recorder} {number : Nat} {reply : StopReply} {notices : List Notice}
    (done : r.stop number reply = some (r',notices)) :
    Driven r number stopRecording r' notices := by
  rcases stopReports done with ⟨recordingId,started,capturing,rfl,rfl⟩ | ⟨reason,kept,rfl⟩
  · exact .finished recordingId started capturing
  · exact .failed reason r' kept

theorem startDriven (r : Recorder) (number : Nat) (error : Option String) :
    Driven r number startRecording (r.start number error).1 (r.start number error).2 := by
  cases error with
  | none => exact .started
  | some reason => exact .refused reason

theorem speakerBystands {rt : Booth} {label : SpeakerLabel} {speaker : Speaker}
    {notices : List Notice} (running : rt.phase = .running)
    (done : rt.speaker.step label = some (speaker,notices)) :
    Bystands rt ({ rt with speaker }.send notices) := by
  refine ⟨by simp,by simp,by simp +contextual,_,
    sendRunning { rt with speaker } running _,?_⟩
  intro new mem
  obtain ⟨notice,inside,rfl⟩ := List.mem_map.mp mem
  cases label with
  | command accepted =>
    simp only [Speaker.step] at done
    split at done <;> cases done
    cases inside
  | ended natural =>
    simp only [Speaker.step] at done
    split at done <;> cases done
    cases natural with
    | false => cases inside
    | true =>
      obtain rfl := List.mem_singleton.mp inside
      exact ⟨rfl,fun _ => rfl⟩

theorem executeRecorder {rt rt' : Booth} {number : Nat} {emitted : Emitted}
    {effects : Channel Emitted} {reply : InlineReply} (running : rt.phase = .running)
    (received : rt.effects.receive = some ((number,emitted),effects))
    (done : AudioEffect { rt with effects } number reply emitted.effect rt') :
    RecorderStep rt rt' := by
  obtain ⟨place,_,_,taken⟩ := Channel.receiveCases received
  have stamped (recorder : Recorder) (notices : List Notice) :
      (({ rt with effects, recorder } : Booth).send notices).events =
        rt.events ++ notices.map fun notice => ⟨notice,number + 1⟩ := by
    rw [sendRunning { rt with effects, recorder } running,taken]
  obtain ⟨effect,announced⟩ := emitted
  cases done with
  | play source =>
    obtain ⟨later,waits⟩ := receiveBystands received rfl
    exact .bystand ⟨rfl,later,waits,[],(List.append_nil _).symm,by simp⟩
  | stopAudio =>
    obtain ⟨later,waits⟩ := receiveBystands received rfl
    exact .bystand ⟨rfl,later,waits,[],(List.append_nil _).symm,by simp⟩
  | startRecording =>
    refine .drive received ?_ (by simp) (stamped _ _)
    rw [sendRecorder]
    exact startDriven _ _ _
  | armRecordingTimeout => exact .drive received .armed rfl (by simp)
  | cancelRecordingTimeout => exact .drive received .cancelled rfl (by simp)
  | stopRecording stopped =>
    refine .drive received ?_ (by simp) (stamped _ _)
    rw [sendRecorder]
    exact stopDriven stopped

theorem recorderStepCases {rt rt' : Booth} {label : Label} (step : BoothStep rt label rt')
    (quiet : isQuiet label = true) (running : rt'.phase = .running) : RecorderStep rt rt' := by
  have started := quietRunning step quiet running
  cases audioStepCases step quiet running with
  | plain same plain =>
    rw [sendPhase] at running
    refine .bystand (bystandPlain running same.recorder same.events plain ?_ ?_)
    · rw [same.effects]
    · rw [same.effects]
      exact fun _ _ waits _ => waits
  | pass received other same plain =>
    rw [sendPhase] at running
    obtain ⟨later,waits⟩ := receiveBystands received (recorderOther other)
    refine .bystand (bystandPlain running same.recorder same.events plain ?_ ?_)
    · rw [same.effects]
      exact later
    · rw [same.effects]
      exact waits
  | execute received done => exact executeRecorder started received done
  | fire done =>
    obtain ⟨armed,ticking,rfl,rfl⟩ := fireReports done
    exact .fire ticking (by simp) (by simp)
      (sendRunning { rt with recorder := { rt.recorder with timer := none } } started _)
  | speaker done => exact .bystand (speakerBystands started done)

end TelephoneBooth
