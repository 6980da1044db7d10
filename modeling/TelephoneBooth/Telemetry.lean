import TelephoneBooth.Advertised

/-! What `handle_event` publishes of each step, and the heartbeat that reads the status back
from it. The core maps a state to its status, the heartbeat maps the state's tag; the two
tables differ in one row. -/
namespace TelephoneBooth
open State Event Effect

def State.tag : State → String
  | idle => "idle"
  | callsPaused _ => "calls_paused"
  | dialTone => "dial_tone"
  | dialing _ => "dialing"
  | ringingQuestion _ => "ringing_question"
  | playingQuestion _ => "playing_question"
  | State.beep _ => "beep"
  | recording _ => "recording"
  | finishingRecording _ _ => "finishing_recording"
  | finishingTimedOutRecording _ _ => "finishing_timeout_recording"
  | uploading _ _ _ => "uploading"
  | uploadingTimedOut _ _ _ => "uploading_timeout"
  | recordingEndedBeep => "recording_end_beep"
  | playingMessage => "playing_message"
  | playingInstructions => "playing_instructions"
  | callUnavailable => "call_unavailable"
  | error _ => "error"

inductive CallOutcome where
  | hungUpBeforeDial | hungUpDuringPrompt | hungUpDuringRecording | hungUpDuringUpload
  | recordingCompleted | recordingFailed | uploadFailed | operatorError | aborted
  deriving DecidableEq, Repr

/- Records that are read again in the process; of the rest only that they pass is kept. -/
inductive TelemetryEvent where
  | stateTransition (source target : String)
  | digitDialed (digit pulses : UInt8)
  | uploadCompleted
  | uploadFailed
  | callStarted (sessionId : String)
  | callEnded (sessionId : String) (outcome : CallOutcome) (digitsDialed : String)
  | other
  deriving DecidableEq, Repr

def dialedDigitForTelemetry (state : State) (event : Event) : Option (UInt8 × UInt8) :=
  match state, event with
  | dialing pulses, tick =>
    if 1 ≤ pulses ∧ pulses ≤ 10 then some (if pulses = 10 then 0 else pulses,pulses) else none
  | dialTone, digitDialed digit | dialing _, digitDialed digit
  | callsPaused false, digitDialed digit =>
    if digit ≤ 9 then some (digit,if digit = 0 then 10 else digit) else none
  | _, _ => none

def State.resting : State → Bool
  | idle | callsPaused _ => true
  | _ => false

def resumesCall (state after : State) : Bool :=
  match state with
  | callsPaused _ => !after.resting
  | _ => false

def digitsPublished (state : State) (i : Input) : List TelemetryEvent :=
  ((if i.2 then dialedDigitForTelemetry state i.1 else none).toList).map fun dialed =>
    .digitDialed dialed.1 dialed.2

/- What `handle_event` publishes, in order: a transition that resumes a call comes before the
digit it dials, any other one after. -/
def published (state : State) (i : Input) : List TelemetryEvent :=
  let after := (coreStep state i).1
  let transition : TelemetryEvent := .stateTransition state.tag after.tag
  if resumesCall state after then transition :: digitsPublished state i
  else digitsPublished state i ++ [transition]

def publishedBy (state : State) : List Input → List TelemetryEvent
  | [] => []
  | i :: rest => published state i ++ publishedBy (coreStep state i).1 rest

def ofCore : TelemetryEvent → Bool
  | .stateTransition _ _ | .digitDialed _ _ => true
  | _ => false

def Feeds (feed : List TelemetryEvent) (state : State) (inputs : List Input) : Prop :=
  feed.filter ofCore = publishedBy state inputs

instance (feed : List TelemetryEvent) (state : State) (inputs : List Input) :
    Decidable (Feeds feed state inputs) := inferInstanceAs (Decidable (_ = _))

def isTransition : TelemetryEvent → Bool
  | .stateTransition _ _ => true
  | _ => false

def transitions (state : State) : List Input → List TelemetryEvent
  | [] => []
  | i :: rest => .stateTransition state.tag (coreStep state i).1.tag ::
      transitions (coreStep state i).1 rest

theorem digitsNoTransition (state : State) (i : Input) :
    (digitsPublished state i).filter isTransition = [] := by
  rw [List.filter_eq_nil_iff]
  intro record mem
  obtain ⟨digit,_,rfl⟩ := List.mem_map.mp mem
  exact Bool.false_ne_true

theorem publishedTransition (state : State) (i : Input) :
    (published state i).filter isTransition =
      [.stateTransition state.tag (coreStep state i).1.tag] := by
  have digits := digitsNoTransition state i
  unfold published
  dsimp only
  split
  · rw [List.filter_cons_of_pos (by rfl),digits]
  · rw [List.filter_append,digits]
    rfl

theorem publishedTransitions (state : State) (inputs : List Input) :
    (publishedBy state inputs).filter isTransition = transitions state inputs := by
  induction inputs generalizing state with
  | nil => rfl
  | cons i rest ih =>
    rw [publishedBy,List.filter_append,publishedTransition,ih]
    rfl

theorem feedTransitions {feed : List TelemetryEvent} {state : State} {inputs : List Input}
    (feeds : Feeds feed state inputs) : feed.filter isTransition = transitions state inputs := by
  have inside : feed.filter isTransition = (feed.filter ofCore).filter isTransition := by
    rw [List.filter_filter]
    refine List.filter_congr fun record _ => ?_
    cases record <;> rfl
  rw [inside,feeds]
  exact publishedTransitions state inputs

/- Map a state-machine state name to the coarse status pushed to the operator. -/
def stateNameToBoothStatus (name : String) : BoothStatus :=
  match name with
  | "idle" | "Idle" => .idle
  | "dial_tone" | "dialing" | "DialTone" => .dialTone
  | "ringing_question" | "playing_question" | "beep" | "PlayingQuestion" => .playingQuestion
  | "recording" | "Recording" => .recording
  | "finishing_timeout_recording" | "uploading" | "uploading_timeout" | "recording_end_beep"
  | "Uploading" => .uploading
  | "playing_message" | "PlayingMessage" => .playingMessage
  | "playing_instructions" | "PlayingInstructions" => .playingInstructions
  | "call_unavailable" | "CallUnavailable" => .callUnavailable
  | _ => .idle

def heartbeatReceives (status : BoothStatus) : TelemetryEvent → BoothStatus
  | .stateTransition _ target => stateNameToBoothStatus target
  | _ => status

def heartbeatStatus (status : BoothStatus) (feed : List TelemetryEvent) : BoothStatus :=
  feed.foldl heartbeatReceives status

def State.isFinishing : State → Bool
  | finishingRecording _ _ => true
  | _ => false

theorem tableAgrees (state : State) :
    stateNameToBoothStatus state.tag = state.status ↔ state.isFinishing = false := by
  cases state with
  | finishingRecording q onHook =>
    have missing : ¬ stateNameToBoothStatus "finishing_recording" = .uploading := by decide
    exact iff_of_false missing Bool.noConfusion
  | _ => exact iff_of_true rfl rfl

theorem heartbeatTransitions (status : BoothStatus) (feed : List TelemetryEvent) :
    heartbeatStatus status feed = heartbeatStatus status (feed.filter isTransition) := by
  induction feed generalizing status with
  | nil => rfl
  | cons record rest ih =>
    cases record with
    | stateTransition source target => exact ih _
    | _ => exact ih _

theorem heartbeatFollows (status : BoothStatus) (state : State) (inputs : List Input)
    (named : status = stateNameToBoothStatus state.tag) :
    heartbeatStatus status (transitions state inputs) =
      stateNameToBoothStatus (coreRun state inputs).tag := by
  induction inputs generalizing state status with
  | nil => exact named
  | cons i rest ih => exact ih _ _ rfl

/- A runtime starts in `Idle` or `CallsPaused`. After every record of a run has been received,
the heartbeat's status is the core's unless the core is in `FinishingRecording`, whose tag the
table lacks. -/
theorem heartbeatAgrees {state : State} (initial : state.resting = true) (inputs : List Input)
    {feed : List TelemetryEvent} (feeds : Feeds feed state inputs) :
    heartbeatStatus .idle feed = (coreRun state inputs).status ↔
      (coreRun state inputs).isFinishing = false := by
  have named : BoothStatus.idle = stateNameToBoothStatus state.tag := by
    cases state <;> first | rfl | cases initial
  rw [heartbeatTransitions,feedTransitions feeds,heartbeatFollows _ _ _ named]
  exact tableAgrees _

def answerHungUp : List Input :=
  [hookOff,digitDialed 1,questionReady "q",playbackEnded,playbackEnded,playbackEnded,hookOn].map
    fun event => (event,true)

theorem dialHeard : heartbeatStatus .idle (publishedBy idle [(hookOff,true),(rotaryPulse,true)]) =
    (coreRun idle [(hookOff,true),(rotaryPulse,true)]).status := by
  have feeds : Feeds (publishedBy idle [(hookOff,true),(rotaryPulse,true)]) idle
      [(hookOff,true),(rotaryPulse,true)] := by decide
  exact (heartbeatAgrees rfl _ feeds).mpr (by decide)

theorem hangUpReportedIdle : ¬ ∀ (state : State) (inputs : List Input)
    (feed : List TelemetryEvent), state.resting = true → Feeds feed state inputs →
    heartbeatStatus .idle feed = (coreRun state inputs).status := by
  intro agrees
  have feeds : Feeds (publishedBy idle answerHungUp) idle answerHungUp := by decide
  have stale := agrees idle answerHungUp _ rfl feeds
  revert stale
  decide

end TelephoneBooth
