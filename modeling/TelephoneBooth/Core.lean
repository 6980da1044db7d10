import TelephoneBooth.Hal

/-! The pure state machine of `booth_core`: its states, events and effects, and
the transition function `handle_with_call_availability` in the source's order of
arms. Nothing here is a specification; what the machine is for is stated later. -/
namespace TelephoneBooth

def maxPulsesPerDigit : UInt8 := 10
def ledBrightnessDim : UInt8 := 40
def ledBrightnessFull : UInt8 := 255
def ledFastBlinkMs : UInt32 := 300

inductive State where
  | callsPaused (onHook : Bool)
  | idle
  | dialTone
  | dialing (pulses : UInt8)
  | ringingQuestion (questionId : QuestionId)
  | playingQuestion (questionId : QuestionId)
  | beep (questionId : QuestionId)
  | recording (questionId : QuestionId)
  | finishingTimedOutRecording (questionId : QuestionId) (onHook : Bool)
  | finishingRecording (questionId : QuestionId) (onHook : Bool)
  | uploading (recordingId : RecordingId) (questionId : QuestionId) (onHook : Bool)
  | uploadingTimedOut (recordingId : RecordingId) (questionId : QuestionId) (beepPending : Bool)
  | recordingEndedBeep
  | playingMessage
  | playingInstructions
  | callUnavailable
  | error (reason : String)
  deriving DecidableEq, Repr

inductive UploadOutcome where
  | complete
  | deferred
  | failed (reason : String)
  deriving DecidableEq, Repr

inductive Event where
  | uploadFinished (recordingId : RecordingId) (outcome : UploadOutcome)
  | hookOn
  | hookOff
  | rotaryPulse
  | digitDialed (digit : UInt8)
  | playbackEnded
  | recordingTimedOut
  | recordingFinished (recordingId : RecordingId)
  | recordingFailed (reason : String)
  | uploadComplete
  | uploadDeferred
  | uploadFailed (reason : String)
  | questionReady (questionId : QuestionId)
  | questionFailed (reason : String)
  | messageReady
  | messageFailed (reason : String)
  | instructionsReady
  | instructionsFailed (reason : String)
  | tick
  | powerButtonPressed
  | powerButtonHeld
  deriving DecidableEq, Repr

inductive Effect where
  | play (source : AudioRef)
  | stopAudio
  | startRecording
  | armRecordingTimeout
  | cancelRecordingTimeout
  | stopRecording
  | uploadRecording (recordingId : RecordingId) (questionId : QuestionId)
  | fetchRandomQuestion
  | fetchRandomMessage
  | fetchInstructions
  | putStatus (status : BoothStatus)
  | armPulseTimeout
  | cancelPulseTimeout
  | log (message : String)
  | setStatusLed (colour : LedColour) (pattern : LedPattern)
  | reboot
  | powerOff
  deriving DecidableEq, Repr

def statusLedFor : State → LedColour × LedPattern
  | .callsPaused _ => (.blue, .steady ledBrightnessDim)
  | .idle => (.green, .steady ledBrightnessDim)
  | .dialTone | .dialing _ => (.green, .steady ledBrightnessFull)
  | .ringingQuestion _ | .playingQuestion _ | .playingMessage | .playingInstructions
  | .callUnavailable => (.blue, .steady ledBrightnessFull)
  | .beep _ | .recording _ | .uploadingTimedOut _ _ true | .recordingEndedBeep =>
      (.red, .steady ledBrightnessFull)
  | .finishingRecording _ _ | .finishingTimedOutRecording _ _ | .uploading _ _ _
  | .uploadingTimedOut _ _ false => (.blue, .blink ledFastBlinkMs)
  | .error _ => (.red, .blink ledFastBlinkMs)

/- The clip the runtime fills in from the slot the last fetch stored. -/
def unresolvedClip : AudioRef := .remoteUrl "" none

/- `handle_inner(Idle, HookOff)`, which other arms and the resume path call. -/
def pickUp : State × List Effect :=
  (.dialTone, [.play (.builtin .dialTone), .putStatus .dialTone])

def decodeDigit (digit : UInt8) : State × List Effect :=
  if digit = 1 then
    (.dialTone, [.log s!"dialed digit {digit}: fetching a random question",
      .fetchRandomQuestion, .cancelPulseTimeout])
  else if digit = 2 then
    (.dialTone, [.log s!"dialed digit {digit}: fetching a random message",
      .fetchRandomMessage, .cancelPulseTimeout])
  else if 3 ≤ digit ∧ digit ≤ 9 then
    (.callUnavailable, [.log s!"dialed digit {digit}: playing the call-cannot-be-completed prompt",
      .play (.builtin .callUnavailable), .cancelPulseTimeout, .putStatus .callUnavailable])
  else if digit = 0 then
    (.dialTone, [.log s!"dialed digit {digit}: fetching a random operator instructions clip",
      .fetchInstructions, .cancelPulseTimeout])
  else (.error s!"invalid digit {digit}", [.play (.builtin .lineBusy)])

def hangUp : State → State × List Effect
  | .recording questionId => (.finishingRecording questionId true,
      [.stopAudio, .cancelRecordingTimeout, .stopRecording, .cancelPulseTimeout,
        .putStatus .uploading])
  | .finishingRecording questionId _ => (.finishingRecording questionId true,
      [.stopAudio, .cancelPulseTimeout])
  | .finishingTimedOutRecording questionId _ => (.finishingTimedOutRecording questionId true,
      [.stopAudio, .cancelRecordingTimeout, .cancelPulseTimeout])
  | _ => (.idle, [.stopAudio, .cancelPulseTimeout, .cancelRecordingTimeout, .putStatus .idle])

def saturatingAdd (a b : UInt8) : UInt8 := if a.toNat + b.toNat < 256 then a + b else 255

def handleInner (state : State) (event : Event) : State × List Effect :=
  match state, event with
  | state, .hookOn => hangUp state
  | .uploading _ _ true, .uploadDeferred => (.idle, [.putStatus .idle])
  | .uploading _ _ false, .uploadDeferred => pickUp
  | .idle, .hookOff => pickUp
  | .dialTone, .rotaryPulse => (.dialing 1, [.stopAudio, .armPulseTimeout])
  | .dialing pulses, .rotaryPulse =>
      let next := saturatingAdd pulses 1
      if next > maxPulsesPerDigit then
        (.dialTone, [.play (.builtin .dialTone), .cancelPulseTimeout,
          .log "rotary pulses exceeded maximum"])
      else (.dialing next, [.armPulseTimeout])
  | .dialing pulses, .tick => decodeDigit (if pulses = 10 then 0 else pulses)
  | .dialTone, .digitDialed digit => decodeDigit digit
  | .dialing _, .digitDialed digit => decodeDigit digit
  | .ringingQuestion questionId, .playbackEnded => (.playingQuestion questionId,
      [.play unresolvedClip, .putStatus .playingQuestion])
  | .playingQuestion questionId, .playbackEnded => (.beep questionId,
      [.play (.builtin .beep), .putStatus .playingQuestion])
  | .beep questionId, .playbackEnded => (.recording questionId,
      [.startRecording, .armRecordingTimeout, .putStatus .recording])
  | .recording questionId, .recordingTimedOut => (.finishingTimedOutRecording questionId false,
      [.cancelRecordingTimeout, .stopRecording, .putStatus .uploading])
  | .recording questionId, .recordingFinished recordingId =>
      (.uploadingTimedOut recordingId questionId true,
        [.cancelRecordingTimeout, .play (.builtin .beep), .uploadRecording recordingId questionId,
          .putStatus .uploading])
  | .finishingTimedOutRecording questionId false, .recordingFinished recordingId =>
      (.uploadingTimedOut recordingId questionId true,
        [.play (.builtin .beep), .uploadRecording recordingId questionId, .putStatus .uploading])
  | .finishingTimedOutRecording questionId true, .recordingFinished recordingId =>
      (.uploading recordingId questionId true,
        [.uploadRecording recordingId questionId, .putStatus .uploading])
  | .finishingRecording questionId onHook, .recordingFinished recordingId =>
      (.uploading recordingId questionId onHook,
        [.uploadRecording recordingId questionId, .putStatus .uploading])
  | .finishingRecording questionId _, .hookOff => (.finishingRecording questionId false, [])
  | .finishingTimedOutRecording questionId _, .hookOff =>
      (.finishingTimedOutRecording questionId false, [])
  | .uploading recordingId questionId _, .hookOff => (.uploading recordingId questionId false, [])
  | .uploadingTimedOut recordingId questionId true, .playbackEnded =>
      (.uploadingTimedOut recordingId questionId false, [])
  | .uploadingTimedOut _ _ true, .uploadComplete => (.recordingEndedBeep, [])
  | .uploadingTimedOut _ _ true, .uploadDeferred => (.recordingEndedBeep, [])
  | .uploadingTimedOut _ _ false, .uploadComplete => pickUp
  | .uploadingTimedOut _ _ false, .uploadDeferred => pickUp
  | .recordingEndedBeep, .playbackEnded => pickUp
  | .recording _, .recordingFailed reason => (.error reason,
      [.play (.builtin .lineBusy), .log s!"recording failed: {reason}", .cancelRecordingTimeout,
        .putStatus .idle])
  | .finishingTimedOutRecording _ true, .recordingFailed reason => (.idle,
      [.stopAudio, .log s!"timed-out recording failed after hangup: {reason}", .putStatus .idle])
  | .finishingTimedOutRecording _ false, .recordingFailed reason => (.dialTone,
      [.play (.builtin .dialTone), .log s!"timed-out recording failed: {reason}",
        .putStatus .dialTone])
  | .finishingRecording _ true, .recordingFailed reason => (.idle,
      [.stopAudio, .log s!"recording failed after hangup: {reason}", .putStatus .idle])
  | .finishingRecording _ false, .recordingFailed reason => (.dialTone,
      [.play (.builtin .dialTone), .log s!"recording failed: {reason}", .putStatus .dialTone])
  | .uploading _ _ false, .uploadComplete => pickUp
  | .uploading _ _ true, .uploadComplete => (.idle, [.putStatus .idle])
  | .uploading _ _ false, .uploadFailed reason => (.error reason,
      [.play (.builtin .lineBusy), .log s!"upload failed: {reason}"])
  | .uploadingTimedOut _ _ _, .uploadFailed reason => (.error reason,
      [.play (.builtin .lineBusy), .log s!"timed-out recording upload failed: {reason}"])
  | .uploading _ _ true, .uploadFailed reason => (.idle,
      [.log s!"upload failed after hangup: {reason}", .putStatus .idle])
  | .dialTone, .questionReady questionId => (.ringingQuestion questionId,
      [.play (.builtin .ringback), .putStatus .playingQuestion,
        .log s!"question ready: {questionId}"])
  | .dialTone, .questionFailed reason => (.error reason,
      [.play (.builtin .lineBusy), .log s!"question fetch failed: {reason}"])
  | .dialTone, .messageReady => (.playingMessage,
      [.play unresolvedClip, .putStatus .playingMessage])
  | .dialTone, .messageFailed reason => (.error reason,
      [.play (.builtin .lineBusy), .log s!"message fetch failed: {reason}"])
  | .playingMessage, .playbackEnded => pickUp
  | .dialTone, .instructionsReady => (.playingInstructions,
      [.play unresolvedClip, .putStatus .playingInstructions])
  | .dialTone, .instructionsFailed reason => (.error reason,
      [.play (.builtin .lineBusy), .log s!"instructions fetch failed: {reason}"])
  | .playingInstructions, .playbackEnded => pickUp
  | .callUnavailable, .playbackEnded => pickUp
  | state, .powerButtonPressed => (state, [.reboot])
  | state, .powerButtonHeld => (state, [.powerOff])
  | state, _ => (state, [])

def State.uploadInFlight : State → Option RecordingId
  | .uploading recordingId _ _ | .uploadingTimedOut recordingId _ _ => some recordingId
  | _ => none

def State.isProtected : State → Bool
  | .recording _ | .finishingRecording _ _ | .finishingTimedOutRecording _ _
  | .uploading _ _ _ | .uploadingTimedOut _ _ _ => true
  | _ => false

def State.onHook : State → Bool
  | .idle => true
  | .callsPaused onHook | .finishingRecording _ onHook
  | .finishingTimedOutRecording _ onHook | .uploading _ _ onHook => onHook
  | _ => false

def hookAfter (state : State) : Event → Bool
  | .hookOn => true
  | .hookOff => false
  | _ => state.onHook

def resume (onHook : Bool) (event : Event) : State × List Effect :=
  let resumed := if onHook then (.idle, [.putStatus .idle]) else handleInner .idle .hookOff
  match event with
  | .rotaryPulse | .digitDialed _ =>
      let applied := handleInner resumed.1 event
      (applied.1, resumed.2 ++ applied.2)
  | _ => resumed

/- The end beep is not played while paused; the flag says whether it was pending. -/
def silenceBeep : State → State × Bool
  | .uploadingTimedOut recordingId questionId true =>
      (.uploadingTimedOut recordingId questionId false, true)
  | state => (state, false)

/- `retain` of the paused path: caller audio and status writes are suppressed. -/
def suppress (effects : List Effect) : List Effect :=
  effects.filter fun
    | .putStatus _ | .play _ => false
    | _ => true

def handlePaused (state : State) (event : Event) (onHook : Bool) : State × List Effect :=
  let (state, pendingBefore) := silenceBeep state
  if state.isProtected then
    let (next, effects) := handleInner state event
    let (next, pendingAfter) := silenceBeep next
    let effects := suppress effects
    let effects := if pendingBefore || pendingAfter then .stopAudio :: effects else effects
    if next.isProtected then (next, effects)
    else (.callsPaused onHook, effects ++ [.stopAudio, .cancelPulseTimeout])
  else (.callsPaused onHook, match state with
    | .callsPaused _ => []
    | _ => [.stopAudio, .cancelPulseTimeout])

def handleSettled (state : State) (event : Event) (acceptingCalls : Bool) : State × List Effect :=
  match event with
  | .powerButtonPressed | .powerButtonHeld => handleInner state event
  | _ =>
    let onHook := hookAfter state event
    if acceptingCalls then
      match state with
      | .callsPaused _ => resume onHook event
      | _ => handleInner state event
    else handlePaused state event onHook

def UploadOutcome.event : UploadOutcome → Event
  | .complete => .uploadComplete
  | .deferred => .uploadDeferred
  | .failed reason => .uploadFailed reason

/- The event `handle_available` goes on with. A completion of a recording that is
not in flight belongs to an abandoned call and is dropped. -/
def settle (state : State) : Event → Option Event
  | .uploadFinished recordingId outcome =>
      if state.uploadInFlight = some recordingId then some outcome.event else none
  | event => some event

def handleAvailable (state : State) (event : Event) (acceptingCalls : Bool) :
    State × List Effect :=
  match settle state event with
  | none => (state, [])
  | some event => handleSettled state event acceptingCalls

def ledChange (before after : State) : List Effect :=
  if statusLedFor after ≠ statusLedFor before then
    [.setStatusLed (statusLedFor after).1 (statusLedFor after).2]
  else []

/- The LED update is queued first: later effects may block the dispatcher. -/
def handleWithCallAvailability (state : State) (event : Event) (acceptingCalls : Bool) :
    State × List Effect :=
  let (next, effects) := handleAvailable state event acceptingCalls
  (next, ledChange state next ++ effects)

def handle (state : State) (event : Event) : State × List Effect :=
  handleWithCallAvailability state event true

end TelephoneBooth
