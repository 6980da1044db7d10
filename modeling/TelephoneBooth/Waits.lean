import TelephoneBooth.Playback
import TelephoneBooth.PulseGroups

/-! What the states that wait wait for, and how the core asks for it. A step that leaves the
core waiting has asked last for what it waits for, or the core waited before and the step's
event was not the answer. -/
namespace TelephoneBooth
open State Event Effect

/- States that wait, the effects that ask for something or call it off, those of them that
ask, and the events that are the answer. -/
structure Wait where
  waits : State → Bool
  concerns : Effect → Bool
  asks : Effect → Bool
  answers : Event → Bool

namespace Wait
variable (w : Wait)

def ask (asked : Bool) (effect : Effect) : Bool :=
  if w.concerns effect then w.asks effect else asked

def askAll (asked : Bool) (effects : List Effect) : Bool := effects.foldl w.ask asked

def Owes (s : State) (answered : Bool) (s' : State) (effects : List Effect) : Prop :=
  w.waits s' = true → w.askAll (w.waits s && !answered) effects = true

def heard (s : State) (e : Event) : Bool := (settle s e).any w.answers

structure Deaf (w : Wait) : Prop where
  play : ∀ source, w.concerns (play source) = false
  stop : w.concerns stopAudio = false
  status : ∀ status, w.concerns (putStatus status) = false

end Wait

def soundsOut : Effect → Bool
  | play _ | stopAudio => true
  | _ => false

def timesRecording : Effect → Bool
  | armRecordingTimeout | cancelRecordingTimeout => true
  | _ => false

def capturesVoice : Effect → Bool
  | startRecording | stopRecording => true
  | _ => false

def uploadsFor (id : RecordingId) : Effect → Bool
  | uploadRecording recordingId _ => decide (recordingId = id)
  | _ => false

def State.awaitsStop : State → Bool
  | finishingRecording _ _ | finishingTimedOutRecording _ _ => true
  | _ => false

def endsClip : Event → Bool
  | playbackEnded => true
  | _ => false

def endsGroup : Event → Bool
  | tick => true
  | _ => false

def endsAnswer : Event → Bool
  | recordingTimedOut => true
  | _ => false

def reportsStop : Event → Bool
  | recordingFinished _ | recordingFailed _ => true
  | _ => false

def reportsUpload : Event → Bool
  | uploadComplete | uploadDeferred | uploadFailed _ => true
  | _ => false

def clipWait : Wait := ⟨State.awaitsPlayback,soundsOut,isClip,endsClip⟩
def groupWait : Wait := ⟨State.isDialing,timesPulses,fun effect => effect == armPulseTimeout,endsGroup⟩
def answerWait : Wait :=
  ⟨State.isRecording,timesRecording,fun effect => effect == armRecordingTimeout,endsAnswer⟩
def stopWait : Wait :=
  ⟨State.awaitsStop,capturesVoice,fun effect => effect == stopRecording,reportsStop⟩
def uploadWait (id : RecordingId) : Wait :=
  ⟨fun s => decide (s.uploadInFlight = some id),uploadsFor id,uploadsFor id,reportsUpload⟩

def State.atEase : State → Bool
  | callsPaused _ | idle | dialTone | error _ => true
  | _ => false

theorem waitsUnlessAtEase (s : State) : s.atEase = true ∨ clipWait.waits s = true ∨
    groupWait.waits s = true ∨ answerWait.waits s = true ∨ stopWait.waits s = true ∨
    ∃ id, (uploadWait id).waits s = true := by
  cases s with
  | callsPaused | idle | dialTone | error => exact .inl rfl
  | dialing => exact .inr (.inr (.inl rfl))
  | recording => exact .inr (.inr (.inr (.inl rfl)))
  | finishingRecording | finishingTimedOutRecording => exact .inr (.inr (.inr (.inr (.inl rfl))))
  | uploading r | uploadingTimedOut r =>
    exact .inr (.inr (.inr (.inr (.inr ⟨r,decide_eq_true rfl⟩))))
  | _ => exact .inr (.inl rfl)

namespace Wait
variable {w : Wait}

theorem askAllAppend (w : Wait) (asked : Bool) (xs ys : List Effect) :
    w.askAll asked (xs ++ ys) = w.askAll (w.askAll asked xs) ys := by
  simp [askAll]

theorem askedCases {asked : Bool} {effects : List Effect} (last : w.askAll asked effects = true) :
    (∃ front effect back, effects = front ++ effect :: back ∧ w.asks effect = true ∧
      ∀ later ∈ back, w.concerns later = false) ∨
    asked = true ∧ ∀ effect ∈ effects, w.concerns effect = false := by
  induction effects using List.reverseRecOn with
  | nil => exact .inr ⟨last,by simp⟩
  | append_singleton front newest ih =>
    rw [askAllAppend] at last
    cases concerned : w.concerns newest with
    | true =>
      have asks : w.asks newest = true := by
        simpa [askAll,ask,concerned] using last
      exact .inl ⟨front,newest,[],rfl,asks,by simp⟩
    | false =>
      have before : w.askAll asked front = true := by
        simpa [askAll,ask,concerned] using last
      rcases ih before with ⟨first,effect,back,rfl,asks,others⟩ | ⟨asked_,others⟩
      · refine .inl ⟨first,effect,back ++ [newest],by simp,asks,?_⟩
        intro later mem
        rcases List.mem_append.mp mem with old | new
        · exact others later old
        · rw [List.mem_singleton.mp new]
          exact concerned
      · refine .inr ⟨asked_,?_⟩
        intro effect mem
        rcases List.mem_append.mp mem with old | new
        · exact others effect old
        · rw [List.mem_singleton.mp new]
          exact concerned

theorem askAllOthers {effects : List Effect} (others : ∀ effect ∈ effects, w.concerns effect = false)
    (asked : Bool) : w.askAll asked effects = asked := by
  induction effects generalizing asked with
  | nil => rfl
  | cons effect rest ih =>
    have first : w.ask asked effect = asked := by
      simp [ask,others effect List.mem_cons_self]
    show w.askAll (w.ask asked effect) rest = asked
    rw [first]
    exact ih (fun later mem => others later (List.mem_cons_of_mem _ mem)) asked

theorem askAllSuppressed (deaf : w.Deaf) (effects : List Effect) (asked : Bool) :
    w.askAll asked (suppress effects) = w.askAll asked effects := by
  induction effects generalizing asked with
  | nil => rfl
  | cons effect rest ih =>
    cases effect with
    | play source =>
      have dropped : w.ask asked (play source) = asked := by
        simp [ask,deaf.play]
      show w.askAll asked (suppress rest) = w.askAll (w.ask asked (play source)) rest
      rw [dropped]
      exact ih asked
    | putStatus status =>
      have dropped : w.ask asked (putStatus status) = asked := by
        simp [ask,deaf.status]
      show w.askAll asked (suppress rest) = w.askAll (w.ask asked (putStatus status)) rest
      rw [dropped]
      exact ih asked
    | _ => exact ih _

theorem askAllStopIf (deaf : w.Deaf) (pending asked : Bool) :
    w.askAll asked (stopIf pending) = asked := by
  refine askAllOthers ?_ asked
  intro effect mem
  cases pending with
  | false => cases mem
  | true =>
    obtain rfl := List.mem_singleton.mp mem
    exact deaf.stop

/- What makes the arms' obligations those of every step: a pause leaves no wait behind but a
protected one, which it only silences. -/
structure Lawful (w : Wait) : Prop where
  arm : ∀ {s e s' effects}, Arm s e s' effects → w.Owes s (w.answers e) s' effects
  decoded : ∀ digit asked, w.waits (decodeDigit digit).1 = true →
    w.askAll asked (decodeDigit digit).2 = true
  resumed : w.waits (dialing 1) = true →
    w.askAll false [play (.builtin .dialTone), putStatus .dialTone, stopAudio, armPulseTimeout] = true
  restful : ∀ s, s.atEase = true → w.waits s = false
  silenced : (w.Deaf ∧ ∀ s, w.waits (silenceBeep s).1 = w.waits s) ∨
    ∀ s, s.isProtected = true → w.waits (silenceBeep s).1 = false
  led : ∀ colour pattern, w.concerns (setStatusLed colour pattern) = false

variable (lawful : w.Lawful)
include lawful

theorem turnOwes {s e accepting s' effects} (turn : Turn s e accepting s' effects) :
    w.Owes s (w.heard s e) s' effects := by
  intro waits
  have atRest {t : State} (ease : t.atEase = true) (waits : w.waits t = true) : False := by
    rw [lawful.restful t ease] at waits
    cases waits
  cases turn with
  | stale dropped =>
    simp only [heard,dropped,Option.any_none]
    simpa [askAll] using waits
  | inner settled open_ same =>
    simp only [heard,settled,Option.any_some]
    exact lawful.arm (innerArm same) waits
  | resumedIdle | resumedTone | stillPaused | cut | released => exact (atRest rfl waits).elim
  | resumedPulse paused position input =>
    subst paused
    rw [lawful.restful _ rfl]
    exact lawful.resumed waits
  | resumedDigit paused position input =>
    rw [askAllAppend]
    exact lawful.decoded _ _ waits
  | kept settled safe same still =>
    rcases lawful.silenced with ⟨deaf,same_⟩ | silent
    · rw [same_] at waits
      have inner := lawful.arm (innerArm same) waits
      rw [same_] at inner
      simp only [heard,settled,Option.any_some]
      rw [askAllAppend,askAllStopIf deaf,askAllSuppressed deaf]
      exact inner
    · rw [silent _ still] at waits
      cases waits

theorem stepOwes (s : State) (i : Input) :
    w.Owes s (w.heard s i.1) (coreStep s i).1 (coreStep s i).2 := by
  obtain ⟨effects,same,turn⟩ := stepTurn s i
  intro waits
  have others : ∀ effect ∈ ledChange s (coreStep s i).1, w.concerns effect = false := by
    intro effect mem
    obtain ⟨colour,pattern,rfl⟩ := ledChangeMem mem
    exact lawful.led colour pattern
  rw [same,askAllAppend,askAllOthers others]
  exact turnOwes lawful turn waits

end Wait

open Wait

theorem stayUnanswered {s : State} {e : Event} (same : handleInner s e = (s,[])) :
    (clipWait.waits s = true → endsClip e = false) ∧ (groupWait.waits s = true → endsGroup e = false) ∧
    (answerWait.waits s = true → endsAnswer e = false) ∧
    (stopWait.waits s = true → reportsStop e = false) ∧
    ∀ id, (uploadWait id).waits s = true → reportsUpload e = false := by
  refine ⟨?_,?_,?_,?_,?_⟩
  · intro waits
    cases e with
    | playbackEnded =>
      cases s with
      | uploadingTimedOut r q pending =>
        cases pending
        · cases waits
        · cases same
      | _ => first | (cases waits; done) | cases same
    | _ => rfl
  · intro waits
    cases e with
    | tick =>
      cases s with
      | dialing pulses => exact (decodedElsewhere same).elim
      | _ => cases waits
    | _ => rfl
  · intro waits
    cases e with
    | recordingTimedOut => cases s <;> first | (cases waits; done) | cases same
    | _ => rfl
  · intro waits
    cases e with
    | recordingFinished | recordingFailed =>
      cases s with
      | finishingRecording q onHook => cases onHook <;> cases same
      | finishingTimedOutRecording q onHook => cases onHook <;> cases same
      | _ => cases waits
    | _ => rfl
  · intro id waits
    cases e with
    | uploadComplete | uploadDeferred | uploadFailed =>
      cases s with
      | uploading r q onHook => cases onHook <;> cases same
      | uploadingTimedOut r q pending => cases pending <;> cases same
      | _ => cases waits
    | _ => rfl

theorem decodedWaits (digit : UInt8) : (decodeDigit digit).1.atEase = true ∨
    ∃ message, decodeDigit digit = (callUnavailable,[log message,
      play (.builtin .callUnavailable),cancelPulseTimeout,putStatus .callUnavailable]) := by
  have decoded := decodeCases digit
  generalize decodeDigit digit = result at decoded ⊢
  obtain ⟨s,effects⟩ := result
  cases decoded with
  | fetch | invalid => exact .inl rfl
  | unavailable message => exact .inr ⟨message,rfl⟩

theorem clipDecoded (digit : UInt8) (asked : Bool)
    (waits : clipWait.waits (decodeDigit digit).1 = true) :
    clipWait.askAll asked (decodeDigit digit).2 = true := by
  rcases decodedWaits digit with ease | ⟨message,same⟩
  · generalize (decodeDigit digit).1 = s at ease waits
    cases s <;> first | (cases ease; done) | cases waits
  · rw [same]
    rfl

theorem decodedSettled {w : Wait} (restful : ∀ s, s.atEase = true → w.waits s = false)
    (unavailable : w.waits callUnavailable = false) (digit : UInt8) :
    w.waits (decodeDigit digit).1 = false := by
  rcases decodedWaits digit with ease | ⟨message,same⟩
  · exact restful _ ease
  · rw [same]
    exact unavailable

theorem deafLawful {w : Wait} (deaf : w.Deaf)
    (restful : ∀ s, s.atEase = true → w.waits s = false) (unavailable : w.waits callUnavailable = false)
    (silenced : ∀ r q, w.waits (uploadingTimedOut r q false) = w.waits (uploadingTimedOut r q true))
    (resumed : w.waits (dialing 1) = true →
      w.askAll false [play (.builtin .dialTone), putStatus .dialTone, stopAudio, armPulseTimeout] = true)
    (led : ∀ colour pattern, w.concerns (setStatusLed colour pattern) = false)
    (arm : ∀ {s e s' effects}, Arm s e s' effects → w.Owes s (w.answers e) s' effects) : w.Lawful := by
  refine ⟨arm,?_,resumed,restful,.inl ⟨deaf,silencedAlike w.waits silenced⟩,led⟩
  intro digit asked waits
  rw [decodedSettled restful unavailable digit] at waits
  cases waits

theorem clipLawful : clipWait.Lawful := by
  constructor
  case arm =>
    intro s e s' effects arm waits
    cases arm
    case stay same =>
      show (clipWait.waits s && !endsClip e) = true
      rw [waits,(stayUnanswered same).1 waits]
      rfl
    case power effect button =>
      rcases button with ⟨rfl,rfl⟩ | ⟨rfl,rfl⟩ <;> exact (Bool.and_true _).trans waits
    case rest rests => cases waits
    case fail fails => cases fails <;> cases waits
    case dial digit dials => exact clipDecoded digit _ waits
    case uploadedBeeping r q done => rcases done with rfl | rfl <;> rfl
    all_goals first
      | rfl
      | cases waits
  case decoded => exact clipDecoded
  case resumed => intro waits; cases waits
  case restful => intro s ease; cases s <;> first | rfl | cases ease
  case silenced => exact .inr fun s safe => silencedAwaits safe
  case led => intro colour pattern; rfl

theorem groupRestful (s : State) (ease : s.atEase = true) : groupWait.waits s = false := by
  cases s <;> first | rfl | cases ease

theorem groupLawful : groupWait.Lawful := by
  have decoded (digit : UInt8) := decodedSettled groupRestful rfl digit
  refine deafLawful ⟨fun _ => rfl,rfl,fun _ => rfl⟩ groupRestful rfl (fun _ _ => rfl)
    (fun _ => rfl) (fun _ _ => rfl) ?_
  intro s e s' effects arm waits
  cases arm
  case stay same =>
    show (groupWait.waits s && !endsGroup e) = true
    rw [waits,(stayUnanswered same).2.1 waits]
    rfl
  case power effect button =>
    rcases button with ⟨rfl,rfl⟩ | ⟨rfl,rfl⟩ <;> exact (Bool.and_true _).trans waits
  case fail fails => cases fails <;> cases waits
  case dial digit dials => rw [decoded digit] at waits; cases waits
  all_goals first
    | rfl
    | cases waits

theorem answerRestful (s : State) (ease : s.atEase = true) : answerWait.waits s = false := by
  cases s <;> first | rfl | cases ease

theorem answerLawful : answerWait.Lawful := by
  have decoded (digit : UInt8) := decodedSettled answerRestful rfl digit
  refine deafLawful ⟨fun _ => rfl,rfl,fun _ => rfl⟩ answerRestful rfl (fun _ _ => rfl)
    (fun waits => nomatch waits) (fun _ _ => rfl) ?_
  intro s e s' effects arm waits
  cases arm
  case stay same =>
    show (answerWait.waits s && !endsAnswer e) = true
    rw [waits,(stayUnanswered same).2.2.1 waits]
    rfl
  case power effect button =>
    rcases button with ⟨rfl,rfl⟩ | ⟨rfl,rfl⟩ <;> exact (Bool.and_true _).trans waits
  case fail fails => cases fails <;> cases waits
  case dial digit dials => rw [decoded digit] at waits; cases waits
  all_goals first
    | rfl
    | cases waits

theorem stopRestful (s : State) (ease : s.atEase = true) : stopWait.waits s = false := by
  cases s <;> first | rfl | cases ease

theorem stopLawful : stopWait.Lawful := by
  have decoded (digit : UInt8) := decodedSettled stopRestful rfl digit
  refine deafLawful ⟨fun _ => rfl,rfl,fun _ => rfl⟩ stopRestful rfl (fun _ _ => rfl)
    (fun waits => nomatch waits) (fun _ _ => rfl) ?_
  intro s e s' effects arm waits
  cases arm
  case stay same =>
    show (stopWait.waits s && !reportsStop e) = true
    rw [waits,(stayUnanswered same).2.2.2.1 waits]
    rfl
  case power effect button =>
    rcases button with ⟨rfl,rfl⟩ | ⟨rfl,rfl⟩ <;> exact (Bool.and_true _).trans waits
  case fail fails => cases fails <;> cases waits
  case dial digit dials => rw [decoded digit] at waits; cases waits
  all_goals first
    | rfl
    | cases waits

theorem uploadRestful (id : RecordingId) (s : State) (ease : s.atEase = true) :
    (uploadWait id).waits s = false := by
  cases s <;> first | rfl | cases ease

theorem uploadLawful (id : RecordingId) : (uploadWait id).Lawful := by
  have decoded (digit : UInt8) := decodedSettled (uploadRestful id) rfl digit
  refine deafLawful ⟨fun _ => rfl,rfl,fun _ => rfl⟩ (uploadRestful id) rfl (fun _ _ => rfl)
    (fun waits => nomatch waits) (fun _ _ => rfl) ?_
  intro s e s' effects arm waits
  cases arm
  case stay same =>
    show ((uploadWait id).waits s && !reportsUpload e) = true
    rw [waits,(stayUnanswered same).2.2.2.2 id waits]
    rfl
  case power effect button =>
    rcases button with ⟨rfl,rfl⟩ | ⟨rfl,rfl⟩ <;> exact (Bool.and_true _).trans waits
  case fail fails => cases fails <;> cases waits
  case dial digit dials => rw [decoded digit] at waits; cases waits
  case finished q r | timedOutFinished q r | timedOutHungUp q r | hungUpFinished q onHook r =>
    obtain rfl : r = id := Option.some.inj (of_decide_eq_true waits)
    simp [uploadWait,askAll,ask,uploadsFor]
  case liftUploading r q onHook | endBeeped r q =>
    exact (Bool.and_true _).trans waits
  all_goals cases waits

end TelephoneBooth
