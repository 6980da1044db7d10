import TelephoneBooth.CoreStep
import TelephoneBooth.Channel
import TelephoneBooth.Speaker
import TelephoneBooth.Recorder
import TelephoneBooth.Uploads

/-! `run_runtime` with the tasks it spawns, as one transition function over the choices a
scheduler, the operator, the adapters and the caller can make. A task's step reaches from
one point at which another task can run to the next. -/
namespace TelephoneBooth

def operatorConcurrency : Nat := 4

/- Where the shutdown sequence of `run_runtime` is: the flag, `drop(event_rx)`, the audio
`Shutdown` command, the aborts, `drop(effect_tx)`, and the join of `effect_task`. -/
inductive Phase where
  | running | flagged | deaf | silenced | aborted | closing | returned
  deriving DecidableEq, Repr

/- `announced` is a ghost: the last announcement of a clip the core had taken. -/
structure Emitted where
  effect : Effect
  announced : Option Notice
  deriving DecidableEq

/- `stamp` is a ghost: how many effects had been taken when the event was sent. -/
structure Sent extends Notice where
  stamp : Nat
  deriving DecidableEq

def isUpload : Effect → Bool
  | .uploadRecording _ _ => true
  | _ => false

def isOperatorEffect (effect : Effect) : Bool := isUpload effect || effect.fetchKind.isSome

structure OperatorEffect where
  number : Nat
  emitted : Emitted
  operator : isOperatorEffect emitted.effect = true
  deriving DecidableEq

structure Booth where
  phase : Phase
  minRecordingMs : Nat
  /- the installation gate, and `run_runtime`'s own copy of its last reading -/
  accepting : Bool
  acceptingCalls : Bool
  state : State
  events : List Sent
  effects : Channel Emitted
  /- ghosts: effects emitted when the last `HookOn` had been handled, the last announcement -/
  hookMark : Nat
  announced : Option Notice
  pendingOperatorEffects : List OperatorEffect
  fetcher : Fetcher
  recorder : Recorder
  pulseTimeout : Bool
  speaker : Speaker
  uploads : Uploads
  deriving DecidableEq

structure InlineReply where
  start : Option String := none
  stop : StopReply := .ok none
  file : FileReply := {}

namespace Booth

def shuttingDown (rt : Booth) : Bool := rt.phase ≠ .running

/- Once `event_rx` is dropped, sends fail and are ignored. -/
def send (rt : Booth) (notices : List Notice) : Booth :=
  if rt.phase = .running ∨ rt.phase = .flagged then
    { rt with
      events := rt.events ++ notices.map fun notice => ⟨notice,rt.effects.taken⟩ }
  else rt

@[simp] theorem sendPhase (rt : Booth) (notices : List Notice) :
    (rt.send notices).phase = rt.phase := by
  unfold send
  split <;> rfl

@[simp] theorem sendState (rt : Booth) (notices : List Notice) :
    (rt.send notices).state = rt.state := by
  unfold send
  split <;> rfl

@[simp] theorem sendEffects (rt : Booth) (notices : List Notice) :
    (rt.send notices).effects = rt.effects := by
  unfold send
  split <;> rfl

@[simp] theorem sendHookMark (rt : Booth) (notices : List Notice) :
    (rt.send notices).hookMark = rt.hookMark := by
  unfold send
  split <;> rfl

@[simp] theorem sendAnnounced (rt : Booth) (notices : List Notice) :
    (rt.send notices).announced = rt.announced := by
  unfold send
  split <;> rfl

@[simp] theorem sendPendingOperatorEffects (rt : Booth) (notices : List Notice) :
    (rt.send notices).pendingOperatorEffects = rt.pendingOperatorEffects := by
  unfold send
  split <;> rfl

@[simp] theorem sendFetcher (rt : Booth) (notices : List Notice) :
    (rt.send notices).fetcher = rt.fetcher := by
  unfold send
  split <;> rfl

@[simp] theorem sendRecorder (rt : Booth) (notices : List Notice) :
    (rt.send notices).recorder = rt.recorder := by
  unfold send
  split <;> rfl

@[simp] theorem sendSpeaker (rt : Booth) (notices : List Notice) :
    (rt.send notices).speaker = rt.speaker := by
  unfold send
  split <;> rfl

@[simp] theorem sendUploads (rt : Booth) (notices : List Notice) :
    (rt.send notices).uploads = rt.uploads := by
  unfold send
  split <;> rfl

theorem sendEvents {rt : Booth} {notices : List Notice} {sent : Sent}
    (mem : sent ∈ (rt.send notices).events) :
    sent ∈ rt.events ∨ ∃ notice ∈ notices, sent = ⟨notice,rt.effects.taken⟩ := by
  unfold send at mem
  split at mem
  · rcases List.mem_append.mp mem with old | new
    · exact .inl old
    · obtain ⟨notice,inside,rfl⟩ := List.mem_map.mp new
      exact .inr ⟨notice,inside,rfl⟩
  · exact .inl mem

def announcedBy (rt : Booth) (event : Event) (origin : Option Nat) : Option Notice :=
  if rt.state = .dialTone ∧ event.readyKind.isSome then some { event, origin } else rt.announced

def handleEvent (rt : Booth) (event : Event) (origin : Option Nat) : Booth :=
  let (state,effects) := handleWithCallAvailability rt.state event rt.accepting
  let announced := rt.announcedBy event origin
  let log := rt.effects.send (effects.map fun effect => ⟨effect,announced⟩)
  { rt with
    state
    announced
    effects := log
    hookMark := if event = .hookOn then log.log.length else rt.hookMark }

@[simp] theorem handleState (rt : Booth) (event : Event) (origin : Option Nat) :
    (rt.handleEvent event origin).state = (coreStep rt.state (event,rt.accepting)).1 := rfl

theorem handleEffects (rt : Booth) (event : Event) (origin : Option Nat) :
    (rt.handleEvent event origin).effects =
      rt.effects.send ((coreStep rt.state (event,rt.accepting)).2.map fun effect =>
        ⟨effect,rt.announcedBy event origin⟩) := rfl

theorem handleHookMark (rt : Booth) (event : Event) (origin : Option Nat) :
    (rt.handleEvent event origin).hookMark =
      if event = .hookOn then (rt.handleEvent event origin).effects.log.length else rt.hookMark := rfl

theorem handleLog (rt : Booth) (event : Event) (origin : Option Nat) :
    rt.effects.log.length ≤ (rt.handleEvent event origin).effects.log.length := by
  rw [handleEffects]
  exact (List.prefix_append _ _).length_le

def operatorTasks (rt : Booth) : Nat := rt.fetcher.tasks.length + rt.uploads.tasks.length

def execute (rt : Booth) (number : Nat) (effect : Effect) (reply : InlineReply) :
    Option Booth :=
  match effect with
  | .play source =>
    let (source,fetcher) := rt.fetcher.resolveAudioRef source
    some { rt with fetcher, speaker := rt.speaker.enqueue (.play source number) }
  | .stopAudio =>
    some { rt with fetcher := rt.fetcher.reset, speaker := rt.speaker.enqueue .stop }
  | .startRecording =>
    let (recorder,notices) := rt.recorder.start number reply.start
    some ({ rt with recorder }.send notices)
  | .armRecordingTimeout => some { rt with recorder := rt.recorder.arm number }
  | .cancelRecordingTimeout => some { rt with recorder := rt.recorder.cancel }
  | .stopRecording =>
    (rt.recorder.stop number reply.stop).map fun (recorder,notices) =>
      { rt with recorder }.send notices
  | .armPulseTimeout => some { rt with pulseTimeout := true }
  | .cancelPulseTimeout => some { rt with pulseTimeout := false }
  | .uploadRecording recordingId questionId =>
    let (uploads,notices) :=
      rt.uploads.accept rt.minRecordingMs number recordingId questionId reply.file
    some ({ rt with uploads }.send notices)
  | .fetchRandomQuestion => some { rt with fetcher := rt.fetcher.spawn number .question }
  | .fetchRandomMessage => some { rt with fetcher := rt.fetcher.spawn number .message }
  | .fetchInstructions => some { rt with fetcher := rt.fetcher.spawn number .instructions }
  | .putStatus _ | .log _ | .setStatusLed _ _ | .reboot | .powerOff => some rt

/- While shutting down, every effect but an upload is skipped. -/
def dispatch (rt : Booth) (number : Nat) (effect : Effect) (reply : InlineReply) :
    Option Booth :=
  if rt.shuttingDown && !isUpload effect then some rt else rt.execute number effect reply

/- What the handset, the dial and the power button report; the debug surface may dial whole
digits. -/
def fromOutside : Event → Bool
  | .hookOn | .hookOff | .rotaryPulse | .digitDialed _ | .powerButtonPressed | .powerButtonHeld =>
    true
  | _ => false

def atRest (minRecordingMs : Nat) (recordingsDir : String) (accepting onHook : Bool)
    (spool : Spool) : Booth :=
  { phase := .running, minRecordingMs, accepting, acceptingCalls := accepting,
    state := if accepting then .idle else .callsPaused onHook,
    events := [], effects := .empty, hookMark := 0, announced := none,
    pendingOperatorEffects := [], fetcher := .idle recordingsDir, recorder := .idle,
    pulseTimeout := false, speaker := .idle, uploads := .idle spool }

def boot (minRecordingMs : Nat) (recordingsDir : String) (accepting onHook : Bool) (spool : Spool) :
    Booth :=
  let rt := atRest minRecordingMs recordingsDir accepting onHook spool
  if accepting && !onHook then rt.handleEvent .hookOff none else rt

def restart (rt : Booth) (accepting onHook : Bool) : Booth :=
  boot rt.minRecordingMs rt.fetcher.recordingsDir accepting onHook rt.uploads.spool.abandon

end Booth

inductive Label where
  | sense (event : Event)
  | handle
  | gate (accepting invalidates : Bool)
  | reconcile
  | take (reply : InlineReply)
  | resume (reply : InlineReply)
  | spawn
  | fetch (number : Nat) (reply : FetchReply)
  | upload (number : Nat) (reply : Option OperatorError)
  | cancel (number : Nat)
  | join (number : Nat)
  | pulseTimeout
  | recordingTimeout
  | speaker (label : SpeakerLabel)
  | enqueued (job : EnqueueJob) (error : Option String)
  | dequeued (job : DequeueJob) (removed : Bool)
  | replay (reply : ReplayReply)
  | shutdown
  | restart (accepting onHook : Bool)

namespace Booth

/- `effect_task` can go on: no upload is half spawned, and a drain waits for the disk. -/
def dispatcherReady (rt : Booth) : Bool :=
  rt.uploads.admitting.isNone && rt.phase ≠ .returned &&
    !(rt.shuttingDown && operatorConcurrency ≤ rt.uploads.enqueues.length)

def isPaused : State → Bool
  | .callsPaused _ => true
  | _ => false

/- The next effect off the channel. With every operator slot busy, operator effects are put
aside; with a slot free, those put aside come first. -/
def take (rt : Booth) (reply : InlineReply) : Option Booth :=
  rt.effects.receive.bind fun ((number,emitted),effects) =>
    let rt := { rt with effects }
    if operatorConcurrency ≤ rt.operatorTasks then
      if operator : isOperatorEffect emitted.effect = true then
        some { rt with
          pendingOperatorEffects := rt.pendingOperatorEffects ++ [⟨number,emitted,operator⟩] }
      else rt.dispatch number emitted.effect reply
    else if rt.pendingOperatorEffects = [] then rt.dispatch number emitted.effect reply
    else none

def resume (rt : Booth) (reply : InlineReply) : Option Booth :=
  match rt.pendingOperatorEffects with
  | next :: rest =>
    if operatorConcurrency ≤ rt.operatorTasks then none
    else { rt with pendingOperatorEffects := rest }.dispatch next.number next.emitted.effect reply
  | [] => none

/- The next stage of the shutdown. `effect_task` ends when nothing is left to carry out and
every enqueue job has run. -/
def advanceShutdown (rt : Booth) : Option Booth :=
  match rt.phase with
  | .running => some { rt with phase := .flagged }
  | .flagged => some { rt with phase := .deaf, events := [] }
  | .deaf => some { rt with phase := .silenced, speaker := rt.speaker.enqueue .shutdown }
  | .silenced => some { rt with
      phase := .aborted
      uploads := rt.uploads.abortReplay
      speaker := { rt.speaker with running := false } }
  | .aborted => some { rt with phase := .closing }
  | .closing =>
    if rt.effects.drained ∧ rt.pendingOperatorEffects = [] ∧ rt.uploads.admitting = none ∧
        rt.uploads.enqueues = [] then
      some { rt with
        phase := .returned
        fetcher := { rt.fetcher with tasks := [] }
        recorder := rt.recorder.cancel
        pulseTimeout := false
        uploads := rt.uploads.abortTasks }
    else none
  | .returned => none

def step (rt : Booth) : Label → Option Booth
  | .sense event => if fromOutside event then some (rt.send [{ event }]) else none
  | .handle =>
    match rt.phase, rt.events with
    | .running, sent :: events => some ({ rt with events }.handleEvent sent.event sent.origin)
    | _, _ => none
  | .gate accepting invalidates =>
    some { rt with accepting, fetcher := if invalidates then rt.fetcher.invalidate else rt.fetcher }
  | .reconcile =>
    if rt.phase = .running ∧
        (rt.accepting ≠ rt.acceptingCalls ∨ rt.accepting = true ∧ isPaused rt.state) then
      some ({ rt with acceptingCalls := rt.accepting }.handleEvent .tick none)
    else none
  | .take reply => if rt.dispatcherReady then rt.take reply else none
  | .resume reply => if rt.dispatcherReady then rt.resume reply else none
  | .spawn => (rt.uploads.spawn rt.shuttingDown).map fun uploads => { rt with uploads }
  | .fetch number reply =>
    (rt.fetcher.step number reply).map fun (fetcher,notices) => { rt with fetcher }.send notices
  | .upload number reply =>
    (rt.uploads.step number rt.shuttingDown rt.accepting reply).map fun (uploads,notices) =>
      { rt with uploads }.send notices
  | .cancel number =>
    if rt.shuttingDown then
      match rt.fetcher.cancel number with
      | some fetcher => some { rt with fetcher }
      | none => (rt.uploads.cancel number).map fun uploads => { rt with uploads }
    else none
  | .join number =>
    match rt.fetcher.join number with
    | some fetcher => some { rt with fetcher }
    | none => (rt.uploads.join number).map fun uploads => { rt with uploads }
  | .pulseTimeout =>
    if rt.pulseTimeout then some ({ rt with pulseTimeout := false }.send [{ event := .tick }])
    else none
  | .recordingTimeout =>
    rt.recorder.fire.map fun (recorder,notices) => { rt with recorder }.send notices
  | .speaker label =>
    (rt.speaker.step label).map fun (speaker,notices) => { rt with speaker }.send notices
  | .enqueued job error => (rt.uploads.enqueued job error).map fun uploads => { rt with uploads }
  | .dequeued job removed => (rt.uploads.dequeued job removed).map fun uploads => { rt with uploads }
  | .replay reply =>
    (rt.uploads.replayStep rt.accepting reply).map fun uploads => { rt with uploads }
  | .shutdown => rt.advanceShutdown
  | .restart accepting onHook => some (rt.restart accepting onHook)

end Booth
end TelephoneBooth
