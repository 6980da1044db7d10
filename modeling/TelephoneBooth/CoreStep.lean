import TelephoneBooth.Core
import TelephoneBooth.Machine

/-! What one step of the core can do, said once. Every invariant of the core is a
case analysis over `Arm`; no later proof unfolds `handleInner` again. -/
namespace TelephoneBooth
open State Event Effect

inductive Dials : State → Event → UInt8 → Prop where
  | group (pulses) : Dials (dialing pulses) tick (if pulses = 10 then 0 else pulses)
  | direct (digit) : Dials dialTone (digitDialed digit) digit
  | interrupted (pulses digit) : Dials (dialing pulses) (digitDialed digit) digit

inductive Fails : State → Event → State → List Effect → Prop where
  | recording (q reason) : Fails (.recording q) (recordingFailed reason) (.error reason)
      [play (.builtin .lineBusy), log s!"recording failed: {reason}", cancelRecordingTimeout,
        putStatus .idle]
  | upload (r q reason) : Fails (uploading r q false) (uploadFailed reason) (.error reason)
      [play (.builtin .lineBusy), log s!"upload failed: {reason}"]
  | timedOut (r q pending reason) :
      Fails (uploadingTimedOut r q pending) (uploadFailed reason) (.error reason)
        [play (.builtin .lineBusy), log s!"timed-out recording upload failed: {reason}"]
  | question (reason) : Fails dialTone (questionFailed reason) (.error reason)
      [play (.builtin .lineBusy), log s!"question fetch failed: {reason}"]
  | message (reason) : Fails dialTone (messageFailed reason) (.error reason)
      [play (.builtin .lineBusy), log s!"message fetch failed: {reason}"]
  | instructions (reason) : Fails dialTone (instructionsFailed reason) (.error reason)
      [play (.builtin .lineBusy), log s!"instructions fetch failed: {reason}"]

inductive Rests : State → Event → Prop where
  | pickedUp : Rests idle hookOff
  | deferred (r q) : Rests (uploading r q false) uploadDeferred
  | uploaded (r q) : Rests (uploading r q false) uploadComplete
  | beepedUploaded (r q) : Rests (uploadingTimedOut r q false) uploadComplete
  | beepedDeferred (r q) : Rests (uploadingTimedOut r q false) uploadDeferred
  | endBeep : Rests recordingEndedBeep playbackEnded
  | message : Rests playingMessage playbackEnded
  | instructions : Rests playingInstructions playbackEnded
  | unavailable : Rests callUnavailable playbackEnded

inductive Arm : State → Event → State → List Effect → Prop where
  | stay {s e} (same : handleInner s e = (s,[])) : Arm s e s []
  | power (s e effect) (button : e = powerButtonPressed ∧ effect = reboot ∨
      e = powerButtonHeld ∧ effect = powerOff) : Arm s e s [effect]
  | hangUpRecording (q) : Arm (recording q) hookOn (finishingRecording q true)
      [stopAudio, cancelRecordingTimeout, stopRecording, cancelPulseTimeout, putStatus .uploading]
  | hangUpFinishing (q onHook) :
      Arm (finishingRecording q onHook) hookOn (finishingRecording q true)
        [stopAudio, cancelPulseTimeout]
  | hangUpTimedOut (q onHook) :
      Arm (finishingTimedOutRecording q onHook) hookOn (finishingTimedOutRecording q true)
        [stopAudio, cancelRecordingTimeout, cancelPulseTimeout]
  | hangUpReset (s) (recording : ∀ q, s ≠ recording q)
      (finishing : ∀ q h, s ≠ finishingRecording q h)
      (timedOut : ∀ q h, s ≠ finishingTimedOutRecording q h) :
      Arm s hookOn idle [stopAudio, cancelPulseTimeout, cancelRecordingTimeout, putStatus .idle]
  | rest {s e} (rests : Rests s e) :
      Arm s e dialTone [play (.builtin .dialTone), putStatus .dialTone]
  | fail {s e s' effects} (fails : Fails s e s' effects) : Arm s e s' effects
  | firstPulse : Arm dialTone rotaryPulse (dialing 1) [stopAudio, armPulseTimeout]
  | excessPulse (pulses) (excess : saturatingAdd pulses 1 > maxPulsesPerDigit) :
      Arm (dialing pulses) rotaryPulse dialTone
        [play (.builtin .dialTone), cancelPulseTimeout, log "rotary pulses exceeded maximum"]
  | nextPulse (pulses) (fits : ¬ saturatingAdd pulses 1 > maxPulsesPerDigit) :
      Arm (dialing pulses) rotaryPulse (dialing (saturatingAdd pulses 1)) [armPulseTimeout]
  | dial {s e digit} (dials : Dials s e digit) : Arm s e (decodeDigit digit).1 (decodeDigit digit).2
  | answered (q) : Arm (ringingQuestion q) playbackEnded (playingQuestion q)
      [play unresolvedClip, putStatus .playingQuestion]
  | asked (q) : Arm (playingQuestion q) playbackEnded (State.beep q)
      [play (.builtin .beep), putStatus .playingQuestion]
  | beeped (q) : Arm (State.beep q) playbackEnded (recording q)
      [startRecording, armRecordingTimeout, putStatus .recording]
  | timedOut (q) : Arm (recording q) recordingTimedOut (finishingTimedOutRecording q false)
      [cancelRecordingTimeout, stopRecording, putStatus .uploading]
  | finished (q r) : Arm (recording q) (recordingFinished r) (uploadingTimedOut r q true)
      [cancelRecordingTimeout, play (.builtin .beep), uploadRecording r q, putStatus .uploading]
  | timedOutFinished (q r) : Arm (finishingTimedOutRecording q false) (recordingFinished r)
      (uploadingTimedOut r q true)
      [play (.builtin .beep), uploadRecording r q, putStatus .uploading]
  | timedOutHungUp (q r) : Arm (finishingTimedOutRecording q true) (recordingFinished r)
      (uploading r q true) [uploadRecording r q, putStatus .uploading]
  | hungUpFinished (q onHook r) : Arm (finishingRecording q onHook) (recordingFinished r)
      (uploading r q onHook) [uploadRecording r q, putStatus .uploading]
  | liftFinishing (q onHook) :
      Arm (finishingRecording q onHook) hookOff (finishingRecording q false) []
  | liftTimedOut (q onHook) :
      Arm (finishingTimedOutRecording q onHook) hookOff (finishingTimedOutRecording q false) []
  | liftUploading (r q onHook) : Arm (uploading r q onHook) hookOff (uploading r q false) []
  | endBeeped (r q) :
      Arm (uploadingTimedOut r q true) playbackEnded (uploadingTimedOut r q false) []
  | uploadedBeeping (r q e) (done : e = uploadComplete ∨ e = uploadDeferred) :
      Arm (uploadingTimedOut r q true) e recordingEndedBeep []
  | silentTimedOutFailure (q reason) :
      Arm (finishingTimedOutRecording q true) (recordingFailed reason) idle
        [stopAudio, log s!"timed-out recording failed after hangup: {reason}", putStatus .idle]
  | timedOutFailure (q reason) :
      Arm (finishingTimedOutRecording q false) (recordingFailed reason) dialTone
        [play (.builtin .dialTone), log s!"timed-out recording failed: {reason}",
          putStatus .dialTone]
  | silentFailure (q reason) : Arm (finishingRecording q true) (recordingFailed reason) idle
      [stopAudio, log s!"recording failed after hangup: {reason}", putStatus .idle]
  | failure (q reason) : Arm (finishingRecording q false) (recordingFailed reason) dialTone
      [play (.builtin .dialTone), log s!"recording failed: {reason}", putStatus .dialTone]
  | silentUploaded (r q e) (done : e = uploadComplete ∨ e = uploadDeferred) :
      Arm (uploading r q true) e idle [putStatus .idle]
  | silentUploadFailure (r q reason) : Arm (uploading r q true) (uploadFailed reason) idle
      [log s!"upload failed after hangup: {reason}", putStatus .idle]
  | ring (q) : Arm dialTone (questionReady q) (ringingQuestion q)
      [play (.builtin .ringback), putStatus .playingQuestion, log s!"question ready: {q}"]
  | playMessage : Arm dialTone messageReady playingMessage
      [play unresolvedClip, putStatus .playingMessage]
  | playInstructions : Arm dialTone instructionsReady playingInstructions
      [play unresolvedClip, putStatus .playingInstructions]

theorem hangUpArm (s : State) : Arm s hookOn (hangUp s).1 (hangUp s).2 := by
  cases s <;> first
    | exact .hangUpRecording _
    | exact .hangUpFinishing _ _
    | exact .hangUpTimedOut _ _
    | exact .hangUpReset _ (by simp) (by simp) (by simp)

theorem handleInnerPulse (pulses : UInt8) : handleInner (dialing pulses) rotaryPulse =
    if saturatingAdd pulses 1 > maxPulsesPerDigit then
      (dialTone,[play (.builtin .dialTone),cancelPulseTimeout,log "rotary pulses exceeded maximum"])
    else (dialing (saturatingAdd pulses 1),[armPulseTimeout]) := rfl

theorem handleInnerArm (s : State) (e : Event) :
    Arm s e (handleInner s e).1 (handleInner s e).2 := by
  cases e with
  | hookOn => exact hangUpArm s
  | rotaryPulse =>
    cases s <;> try exact .stay rfl
    · exact .firstPulse
    · rw [handleInnerPulse]
      split
      · exact .excessPulse _ (by assumption)
      · exact .nextPulse _ (by assumption)
  | hookOff =>
    cases s <;> first
      | exact .rest .pickedUp
      | exact .liftFinishing _ _
      | exact .liftTimedOut _ _
      | exact .liftUploading _ _ _
      | exact .stay rfl
  | tick =>
    cases s <;> first
      | exact .dial (.group _)
      | exact .stay rfl
  | digitDialed digit =>
    cases s <;> first
      | exact .dial (.direct _)
      | exact .dial (.interrupted _ _)
      | exact .stay rfl
  | playbackEnded =>
    cases s with
    | uploadingTimedOut r q pending =>
      cases pending
      · exact .stay rfl
      · exact .endBeeped _ _
    | ringingQuestion q => exact .answered _
    | playingQuestion q => exact .asked _
    | beep q => exact .beeped _
    | recordingEndedBeep => exact .rest .endBeep
    | playingMessage => exact .rest .message
    | playingInstructions => exact .rest .instructions
    | callUnavailable => exact .rest .unavailable
    | _ => exact .stay rfl
  | recordingTimedOut =>
    cases s <;> first
      | exact .timedOut _
      | exact .stay rfl
  | recordingFinished r =>
    cases s with
    | recording q => exact .finished _ _
    | finishingRecording q onHook => exact .hungUpFinished _ _ _
    | finishingTimedOutRecording q onHook =>
      cases onHook
      · exact .timedOutFinished _ _
      · exact .timedOutHungUp _ _
    | _ => exact .stay rfl
  | recordingFailed reason =>
    cases s with
    | recording q => exact .fail (.recording _ _)
    | finishingRecording q onHook =>
      cases onHook
      · exact .failure _ _
      · exact .silentFailure _ _
    | finishingTimedOutRecording q onHook =>
      cases onHook
      · exact .timedOutFailure _ _
      · exact .silentTimedOutFailure _ _
    | _ => exact .stay rfl
  | uploadComplete =>
    cases s with
    | uploading r q onHook =>
      cases onHook
      · exact .rest (.uploaded _ _)
      · exact .silentUploaded _ _ _ (.inl rfl)
    | uploadingTimedOut r q pending =>
      cases pending
      · exact .rest (.beepedUploaded _ _)
      · exact .uploadedBeeping _ _ _ (.inl rfl)
    | _ => exact .stay rfl
  | uploadDeferred =>
    cases s with
    | uploading r q onHook =>
      cases onHook
      · exact .rest (.deferred _ _)
      · exact .silentUploaded _ _ _ (.inr rfl)
    | uploadingTimedOut r q pending =>
      cases pending
      · exact .rest (.beepedDeferred _ _)
      · exact .uploadedBeeping _ _ _ (.inr rfl)
    | _ => exact .stay rfl
  | uploadFailed reason =>
    cases s with
    | uploading r q onHook =>
      cases onHook
      · exact .fail (.upload _ _ _)
      · exact .silentUploadFailure _ _ _
    | uploadingTimedOut r q pending => exact .fail (.timedOut _ _ _ _)
    | _ => exact .stay rfl
  | questionReady q =>
    cases s <;> first
      | exact .ring _
      | exact .stay rfl
  | questionFailed reason =>
    cases s <;> first
      | exact .fail (.question _)
      | exact .stay rfl
  | messageReady =>
    cases s <;> first
      | exact .playMessage
      | exact .stay rfl
  | messageFailed reason =>
    cases s <;> first
      | exact .fail (.message _)
      | exact .stay rfl
  | instructionsReady =>
    cases s <;> first
      | exact .playInstructions
      | exact .stay rfl
  | instructionsFailed reason =>
    cases s <;> first
      | exact .fail (.instructions _)
      | exact .stay rfl
  | powerButtonPressed => cases s <;> exact .power _ _ _ (.inl ⟨rfl,rfl⟩)
  | powerButtonHeld => cases s <;> exact .power _ _ _ (.inr ⟨rfl,rfl⟩)
  | uploadFinished r outcome => cases s <;> exact .stay rfl

theorem innerArm {s e s' effects} (same : handleInner s e = (s',effects)) : Arm s e s' effects := by
  have arm := handleInnerArm s e
  rwa [same] at arm

theorem decodedElsewhere {digit pulses : UInt8} {effects : List Effect}
    (decoded : decodeDigit digit = (dialing pulses,effects)) : False := by
  unfold decodeDigit at decoded
  repeat' split at decoded
  all_goals cases decoded

def stopIf (pending : Bool) : List Effect := if pending then [stopAudio] else []

inductive Turn (s : State) (e : Event) : Bool → State → List Effect → Prop where
  | stale {accepting} (dropped : settle s e = none) : Turn s e accepting s []
  | inner {accepting e' s' effects} (settled : settle s e = some e')
      (open_ : (e' = powerButtonPressed ∨ e' = powerButtonHeld) ∨
        accepting = true ∧ ∀ h, s ≠ callsPaused h)
      (same : handleInner s e' = (s',effects)) : Turn s e accepting s' effects
  | resumedIdle {h} (paused : s = callsPaused h) (position : hookAfter s e = true) :
      Turn s e true idle [putStatus .idle]
  | resumedTone {h} (paused : s = callsPaused h) (position : hookAfter s e = false)
      (silent : e ≠ rotaryPulse ∧ ∀ digit, e ≠ digitDialed digit) :
      Turn s e true dialTone [play (.builtin .dialTone), putStatus .dialTone]
  | resumedPulse {h} (paused : s = callsPaused h) (position : hookAfter s e = false)
      (input : e = rotaryPulse) : Turn s e true (dialing 1)
        [play (.builtin .dialTone), putStatus .dialTone, stopAudio, armPulseTimeout]
  | resumedDigit {h digit} (paused : s = callsPaused h) (position : hookAfter s e = false)
      (input : e = digitDialed digit) : Turn s e true (decodeDigit digit).1
        ([play (.builtin .dialTone), putStatus .dialTone] ++ (decodeDigit digit).2)
  | stillPaused {h} (paused : s = callsPaused h) : Turn s e false (callsPaused (hookAfter s e)) []
  | cut (idle_ : s.isProtected = false) (playing : ∀ h, s ≠ callsPaused h) :
      Turn s e false (callsPaused (hookAfter s e)) [stopAudio, cancelPulseTimeout]
  | kept {e' n effects} (settled : settle s e = some e') (safe : s.isProtected = true)
      (same : handleInner (silenceBeep s).1 e' = (n,effects)) (still : n.isProtected = true) :
      Turn s e false (silenceBeep n).1
        (stopIf ((silenceBeep s).2 || (silenceBeep n).2) ++ suppress effects)
  | released {e' n effects} (settled : settle s e = some e') (safe : s.isProtected = true)
      (same : handleInner (silenceBeep s).1 e' = (n,effects)) (ended : n.isProtected = false) :
      Turn s e false (callsPaused (hookAfter s e'))
        (stopIf (silenceBeep s).2 ++ suppress effects ++ [stopAudio, cancelPulseTimeout])

theorem silencedAlike {β : Type} (f : State → β)
    (alike : ∀ r q, f (uploadingTimedOut r q false) = f (uploadingTimedOut r q true)) (s : State) :
    f (silenceBeep s).1 = f s := by
  cases s with
  | uploadingTimedOut r q pending =>
    cases pending with
    | true => exact alike r q
    | false => rfl
  | _ => rfl

@[simp] theorem silenceBeepProtected (s : State) :
    (silenceBeep s).1.isProtected = s.isProtected :=
  silencedAlike State.isProtected (fun _ _ => rfl) s

theorem silenceBeepUnprotected {s : State} (ended : s.isProtected = false) :
    silenceBeep s = (s,false) := by
  cases s <;> first | rfl | cases ended

inductive Settles (s : State) : Event → Event → Prop where
  | same {e} (other : ∀ r outcome, e ≠ uploadFinished r outcome) : Settles s e e
  | outcome {r outcome} (flight : s.uploadInFlight = some r) :
      Settles s (uploadFinished r outcome) outcome.event

theorem settleCases {s : State} {e e' : Event} (settled : settle s e = some e') : Settles s e e' := by
  cases e with
  | uploadFinished r outcome =>
    simp only [settle] at settled
    split at settled
    · cases settled
      exact .outcome (by assumption)
    · cases settled
  | _ =>
    cases settled
    exact .same (by simp)

theorem settledSame {s : State} {e e' : Event} (settled : settle s e = some e')
    (other : ∀ outcome : UploadOutcome, e' ≠ outcome.event) : e = e' := by
  cases settleCases settled with
  | same => rfl
  | @outcome r outcome => exact absurd rfl (other outcome)

theorem settledAlike {β : Type} (f : Event → β)
    (alike : ∀ r (outcome : UploadOutcome), f outcome.event = f (uploadFinished r outcome))
    {s : State} {e e' : Event} (settled : settle s e = some e') : f e' = f e := by
  cases settleCases settled with
  | same => rfl
  | outcome => exact alike _ _

theorem settleUnprotected {s : State} {e e' : Event} (ended : s.isProtected = false)
    (settled : settle s e = some e') : e' = e := by
  cases settleCases settled with
  | same => rfl
  | outcome flight => cases s <;> first | (cases ended; done) | cases flight

theorem resumeTurn {h : Bool} (e : Event) :
    Turn (callsPaused h) e true (resume (hookAfter (callsPaused h) e) e).1
      (resume (hookAfter (callsPaused h) e) e).2 := by
  cases position : hookAfter (callsPaused h) e with
  | true =>
    have resting : resume true e = (idle,[putStatus .idle]) := by cases e <;> rfl
    rw [resting]
    exact .resumedIdle rfl position
  | false =>
    cases e with
    | rotaryPulse => exact .resumedPulse rfl position rfl
    | digitDialed digit => exact .resumedDigit rfl position rfl
    | _ => exact .resumedTone rfl position (by simp)

theorem pausedTurn {s : State} {e e' : Event} (settled : settle s e = some e') :
    Turn s e false (handlePaused s e' (hookAfter s e')).1 (handlePaused s e' (hookAfter s e')).2 := by
  cases safe : s.isProtected with
  | false =>
    obtain rfl := settleUnprotected safe settled
    simp only [handlePaused,silenceBeepUnprotected safe,safe,Bool.false_eq_true,if_false]
    cases s with
    | callsPaused h => exact .stillPaused rfl
    | _ => exact .cut safe (by simp)
  | true =>
    have same : handleInner (silenceBeep s).1 e' =
      ((handleInner (silenceBeep s).1 e').1,(handleInner (silenceBeep s).1 e').2) := rfl
    cases still : (handleInner (silenceBeep s).1 e').1.isProtected with
    | true =>
      have kept := Turn.kept settled safe same still
      simp only [handlePaused,silenceBeepProtected,safe,still,if_true]
      cases pending : (silenceBeep s).2 || (silenceBeep (handleInner (silenceBeep s).1 e').1).2 <;>
        simpa [pending,stopIf] using kept
    | false =>
      have released := Turn.released settled safe same still
      simp only [handlePaused,silenceBeepProtected,safe,still,if_true,
        silenceBeepUnprotected still,Bool.or_false]
      cases pending : (silenceBeep s).2 <;> simpa [pending,stopIf] using released

theorem handleSettledPaused {s : State} {e : Event}
    (button : ¬ (e = powerButtonPressed ∨ e = powerButtonHeld)) :
    handleSettled s e false = handlePaused s e (hookAfter s e) := by
  cases e <;> first | rfl | simp at button

theorem handleSettledOpen {s : State} {e : Event} (playing : ∀ h, s ≠ callsPaused h) :
    handleSettled s e true = handleInner s e := by
  cases s with
  | callsPaused h => exact absurd rfl (playing h)
  | _ => cases e <;> rfl

theorem handleSettledResume {h : Bool} {e : Event}
    (button : ¬ (e = powerButtonPressed ∨ e = powerButtonHeld)) :
    handleSettled (callsPaused h) e true = resume (hookAfter (callsPaused h) e) e := by
  cases e <;> first | rfl | simp at button

theorem handleSettledTurn {s : State} {e e' : Event} (accepting : Bool)
    (settled : settle s e = some e') :
    Turn s e accepting (handleSettled s e' accepting).1 (handleSettled s e' accepting).2 := by
  by_cases button : e' = powerButtonPressed ∨ e' = powerButtonHeld
  · have same : handleSettled s e' accepting = handleInner s e' := by
      rcases button with rfl | rfl <;> rfl
    rw [same]
    exact .inner settled (.inl button) rfl
  · cases accepting with
    | false => rw [handleSettledPaused button]; exact pausedTurn settled
    | true =>
      by_cases paused : ∃ h, s = callsPaused h
      · obtain ⟨h,rfl⟩ := paused
        obtain rfl := settleUnprotected rfl settled
        rw [handleSettledResume button]
        exact resumeTurn _
      · have playing : ∀ h, s ≠ callsPaused h := fun h same => paused ⟨h,same⟩
        rw [handleSettledOpen playing]
        exact .inner settled (.inr ⟨rfl,playing⟩) rfl

theorem handleAvailableTurn (s : State) (e : Event) (accepting : Bool) :
    Turn s e accepting (handleAvailable s e accepting).1 (handleAvailable s e accepting).2 := by
  unfold handleAvailable
  split
  · exact .stale (by assumption)
  · exact handleSettledTurn accepting (by assumption)

theorem filterMapSuppress {β : Type} {f : Effect → Option β} (status : ∀ x, f (putStatus x) = none)
    (audio : ∀ x, f (play x) = none) (effects : List Effect) :
    (suppress effects).filterMap f = effects.filterMap f := by
  induction effects with
  | nil => rfl
  | cons effect rest ih =>
    cases effect <;> simp_all [suppress,List.filterMap_cons]

theorem filterMapLed {β : Type} {f : Effect → Option β} (led : ∀ c p, f (setStatusLed c p) = none)
    (s t : State) : (ledChange s t).filterMap f = [] := by
  unfold ledChange
  split
  · simp [led]
  · rfl

theorem ledChangeMem {s t : State} {effect : Effect} (mem : effect ∈ ledChange s t) :
    ∃ colour pattern, effect = setStatusLed colour pattern := by
  unfold ledChange at mem
  split at mem
  · exact ⟨_,_,List.mem_singleton.mp mem⟩
  · exact absurd mem List.not_mem_nil

abbrev Input := Event × Bool

def coreStep (s : State) (i : Input) : State × List Effect := handleWithCallAvailability s i.1 i.2

def coreRun (s : State) (inputs : List Input) : State := Machine.run coreStep s inputs

theorem stepTurn (s : State) (i : Input) :
    ∃ effects, (coreStep s i).2 = ledChange s (coreStep s i).1 ++ effects ∧
      Turn s i.1 i.2 (coreStep s i).1 effects :=
  ⟨_,rfl,handleAvailableTurn s i.1 i.2⟩

end TelephoneBooth
