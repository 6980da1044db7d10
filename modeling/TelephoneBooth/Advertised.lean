import TelephoneBooth.ClosedAdmission

/-! The status the operator is shown. It is written by hand in each arm, and six arms that
end in `Error` leave it as it was. -/
namespace TelephoneBooth
open State Event Effect

def State.status : State → BoothStatus
  | idle | callsPaused _ => .idle
  | dialTone | dialing _ => .dialTone
  | ringingQuestion _ | playingQuestion _ | State.beep _ => .playingQuestion
  | recording _ => .recording
  | finishingRecording _ _ | finishingTimedOutRecording _ _ | uploading _ _ _
  | uploadingTimedOut _ _ _ | recordingEndedBeep => .uploading
  | playingMessage => .playingMessage
  | playingInstructions => .playingInstructions
  | callUnavailable => .callUnavailable
  | error _ => .idle

def advertise (status : BoothStatus) : Effect → BoothStatus
  | putStatus next => next
  | _ => status

def advertiseAll (status : BoothStatus) (effects : List Effect) : BoothStatus :=
  effects.foldl advertise status

def noteStatus (status : BoothStatus) (s : State) (e : Event) : BoothStatus :=
  advertiseAll status (handle s e).2

def Advertised (s : State × BoothStatus) : Prop := s.2 = s.1.status

instance (s : State × BoothStatus) : Decidable (Advertised s) := inferInstanceAs (Decidable (_ = _))

def dialled : State → Event → Option UInt8
  | dialing pulses, tick => some (if pulses = 10 then 0 else pulses)
  | dialTone, digitDialed digit | dialing _, digitDialed digit => some digit
  | callsPaused false, digitDialed digit => some digit
  | _, _ => none

def failsUntold (s : State) (e : Event) : Bool :=
  (dialled s e).any (fun digit => decide (9 < digit)) ||
    match s, e with
    | dialTone, questionFailed _ | dialTone, messageFailed _ | dialTone, instructionsFailed _
    | uploading _ _ false, uploadFailed _ | uploadingTimedOut _ _ _, uploadFailed _ => true
    | _, _ => false

def failsSilently (s : State) (e : Event) : Bool := (settle s e).any (failsUntold s)

theorem advertiseAppend (status : BoothStatus) (xs ys : List Effect) :
    advertiseAll status (xs ++ ys) = advertiseAll (advertiseAll status xs) ys := by
  simp [advertiseAll]

theorem advertiseLed (status : BoothStatus) (s t : State) :
    advertiseAll status (ledChange s t) = status := by
  unfold ledChange
  split <;> rfl

inductive Decoded (digit : UInt8) : State → List Effect → Prop where
  | fetch (message) {effect} (named : ¬ 9 < digit) (fetches : effect.fetchKind.isSome = true) :
      Decoded digit dialTone [log message,effect,cancelPulseTimeout]
  | unavailable (message) (named : ¬ 9 < digit) : Decoded digit callUnavailable
      [log message,play (.builtin .callUnavailable),cancelPulseTimeout,putStatus .callUnavailable]
  | invalid (reason) (nameless : 9 < digit) : Decoded digit (.error reason) [play (.builtin .lineBusy)]

theorem decodeCases (digit : UInt8) : Decoded digit (decodeDigit digit).1 (decodeDigit digit).2 := by
  unfold decodeDigit
  split
  · subst digit; exact .fetch _ (by decide) rfl
  split
  · subst digit; exact .fetch _ (by decide) rfl
  split
  · rename_i range
    exact .unavailable _ (UInt8.not_lt.mpr range.2)
  split
  · subst digit; exact .fetch _ (by decide) rfl
  · rename_i one two range zero
    refine .invalid _ ?_
    by_contra named
    have high : digit.toNat ≤ 9 := UInt8.le_iff_toNat_le.mp (UInt8.not_lt.mp named)
    have low : digit.toNat < 3 :=
      UInt8.lt_iff_toNat_lt.mp (UInt8.not_le.mp fun low => range ⟨low,UInt8.not_lt.mp named⟩)
    have apart (n : UInt8) (other : ¬ digit = n) : digit.toNat ≠ n.toNat := fun same =>
      other (UInt8.toNat_inj.mp same)
    have first : digit.toNat ≠ 1 := apart 1 one
    have second : digit.toNat ≠ 2 := apart 2 two
    have last : digit.toNat ≠ 0 := apart 0 zero
    omega

theorem decodeAdvertised (digit : UInt8) :
    advertiseAll .dialTone (decodeDigit digit).2 = (decodeDigit digit).1.status ↔ ¬ 9 < digit := by
  have decoded := decodeCases digit
  generalize decodeDigit digit = result at decoded ⊢
  obtain ⟨s,effects⟩ := result
  cases decoded with
  | fetch message named fetches =>
    rename_i effect
    refine ⟨fun _ => named,fun _ => ?_⟩
    cases effect <;> first | rfl | cases fetches
  | unavailable message named => exact ⟨fun _ => named,fun _ => rfl⟩
  | invalid reason nameless =>
    constructor
    · intro told
      cases told
    · exact fun named => absurd nameless named

theorem stayTold {s : State} {e : Event} (same : handleInner s e = (s,[]))
    (playing : ∀ h, s ≠ callsPaused h) : failsUntold s e = false := by
  cases s with
  | callsPaused h => exact absurd rfl (playing h)
  | dialTone =>
    cases e with
    | digitDialed digit =>
      have decoded : decodeDigit digit = (dialTone,[]) := same
      have told := decodeAdvertised digit
      rw [decoded] at told
      have inside := told.mp rfl
      simp [failsUntold,dialled,inside]
    | _ => first | rfl | cases same
  | dialing pulses =>
    cases e with
    | digitDialed | tick => exact (decodedElsewhere same).elim
    | _ => rfl
  | uploading r q onHook =>
    cases onHook with
    | true => cases e <;> rfl
    | false => cases e <;> first | rfl | cases same
  | uploadingTimedOut r q pending => cases e <;> first | rfl | cases same
  | _ => cases e <;> rfl

theorem armAdvertised {s e s' effects} (arm : Arm s e s' effects)
    (playing : (∀ h, s ≠ callsPaused h) ∨ e = powerButtonPressed ∨ e = powerButtonHeld) :
    advertiseAll s.status effects = s'.status ↔ failsUntold s e = false := by
  cases arm
  case stay same =>
    have told : failsUntold s e = false := by
      rcases playing with open_ | rfl | rfl
      · exact stayTold same open_
      · cases s <;> cases same
      · cases s <;> cases same
    exact ⟨fun _ => told,fun _ => rfl⟩
  case power effect button =>
    rcases button with ⟨rfl,rfl⟩ | ⟨rfl,rfl⟩ <;> cases s <;>
      simp [advertiseAll,advertise,failsUntold,dialled]
  case dial digit dials =>
    cases dials with
    | group pulses =>
      have told := decodeAdvertised (if pulses = 10 then 0 else pulses)
      simpa [failsUntold,dialled,State.status] using told
    | direct digit => simpa [failsUntold,dialled,State.status] using decodeAdvertised digit
    | interrupted pulses digit => simpa [failsUntold,dialled,State.status] using decodeAdvertised digit
  case rest rests => cases rests <;> simp [advertiseAll,advertise,failsUntold,dialled,State.status]
  case fail fails => cases fails <;> simp [advertiseAll,advertise,failsUntold,dialled,State.status]
  case uploadedBeeping r q done =>
    rcases done with rfl | rfl <;> simp [advertiseAll,failsUntold,dialled,State.status]
  case silentUploaded r q done =>
    rcases done with rfl | rfl <;> simp [advertiseAll,advertise,failsUntold,dialled,State.status]
  case hangUpReset => cases s <;> simp [advertiseAll,advertise,failsUntold,dialled,State.status]
  all_goals simp [advertiseAll,advertise,failsUntold,dialled,State.status]

theorem turnAdvertised {s e s' effects} (turn : Turn s e true s' effects) :
    advertiseAll s.status effects = s'.status ↔ failsSilently s e = false := by
  cases turn with
  | stale dropped => simp [advertiseAll,failsSilently,dropped]
  | inner settled open_ same =>
    rw [failsSilently,settled,Option.any_some]
    exact armAdvertised (innerArm same) (open_.symm.imp And.right id)
  | resumedIdle paused position =>
    rename_i h
    subst paused
    refine ⟨fun _ => ?_,fun _ => rfl⟩
    cases e with
    | digitDialed digit =>
      obtain rfl : h = true := position
      rfl
    | uploadFinished => simp [failsSilently,settle,State.uploadInFlight]
    | _ => cases h <;> rfl
  | resumedTone paused position silent =>
    rename_i h
    subst paused
    refine ⟨fun _ => ?_,fun _ => rfl⟩
    cases e with
    | digitDialed digit => exact absurd rfl (silent.2 digit)
    | uploadFinished => simp [failsSilently,settle,State.uploadInFlight]
    | _ => cases h <;> rfl
  | resumedPulse paused position input =>
    rename_i h
    subst paused input
    exact ⟨fun _ => by cases h <;> rfl,fun _ => rfl⟩
  | resumedDigit paused position input =>
    rename_i h digit
    subst paused input
    obtain rfl : h = false := position
    rw [advertiseAppend]
    have told : failsSilently (callsPaused false) (digitDialed digit) = decide (9 < digit) := by
      simp [failsSilently,settle,failsUntold,dialled]
    rw [told,decide_eq_false_iff_not]
    exact decodeAdvertised digit

theorem stepAdvertised (s : State) (e : Event) :
    noteStatus s.status s e = (handle s e).1.status ↔ failsSilently s e = false := by
  obtain ⟨effects,same,turn⟩ := stepTurn s (e,true)
  rw [noteStatus,show (handle s e).2 = _ from same,advertiseAppend,advertiseLed]
  exact turnAdvertised turn

/- With calls always admitted, the last status written is the state's own after every step
exactly in the runs in which no arm fails without telling. -/
theorem statusFollows (events : List Event) :
    Machine.Throughout (Machine.observed handle noteStatus) Advertised (idle,.idle) events ↔
    Machine.EachStep handle (fun s e => failsSilently s e = false) idle events := by
  rw [← Machine.observedSteps handle noteStatus _ idle BoothStatus.idle]
  have initial : Advertised (idle,.idle) := rfl
  refine Machine.throughoutIff _ (fun s e follows => ?_) initial events
  obtain ⟨s,status⟩ := s
  obtain rfl : status = s.status := follows
  exact stepAdvertised s e

theorem failureKeepsDialTone : ¬ ∀ events, Machine.Throughout (Machine.observed handle noteStatus)
    Advertised (idle,.idle) events := by
  intro follows
  have stale := follows [hookOff,digitDialed 1,questionFailed "no question"]
  revert stale
  simp only [Machine.Throughout]
  decide

end TelephoneBooth
