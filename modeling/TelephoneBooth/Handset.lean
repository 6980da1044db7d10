import TelephoneBooth.CoreStep

/-! The core has no handset sensor: it reads the position off its own state. Every
step moves that reading exactly as the hook event it handles, if it handles one. -/
namespace TelephoneBooth
open State Event Effect

/- Position a hook event reports; `true` is on hook. -/
def hookLevel : Event → Option Bool
  | hookOn => some true
  | hookOff => some false
  | _ => none

def lastHook (initial : Bool) (inputs : List Input) : Bool :=
  (inputs.filterMap (fun i => hookLevel i.1)).getLast?.getD initial

theorem lastHookCons (initial : Bool) (i : Input) (rest : List Input) :
    lastHook initial (i :: rest) = lastHook ((hookLevel i.1).getD initial) rest := by
  unfold lastHook
  cases h : hookLevel i.1 with
  | none => simp [h]
  | some level =>
    simp only [List.filterMap_cons,h,List.getLast?_cons,Option.getD_some]

theorem hookAfterLevel (s : State) (e : Event) : hookAfter s e = (hookLevel e).getD s.onHook := by
  cases e <;> rfl

theorem settleHookLevel {s : State} {e e' : Event} (settled : settle s e = some e') :
    hookLevel e' = hookLevel e := by
  refine settledAlike hookLevel ?_ settled
  intro r outcome
  cases outcome <;> rfl

@[simp] theorem silenceBeepOnHook (s : State) : (silenceBeep s).1.onHook = s.onHook :=
  silencedAlike State.onHook (fun _ _ => rfl) s

theorem decodeDigitOnHook (digit : UInt8) : (decodeDigit digit).1.onHook = false := by
  unfold decodeDigit
  repeat' split
  all_goals rfl

theorem stayLifted {s : State} (same : handleInner s hookOff = (s,[]))
    (playing : ∀ h, s ≠ callsPaused h) : s.onHook = false := by
  cases s with
  | callsPaused h => exact absurd rfl (playing h)
  | idle => cases same
  | finishingRecording q h | finishingTimedOutRecording q h | uploading r q h =>
    cases same
    rfl
  | _ => rfl

theorem armOnHook {s e s' effects} (arm : Arm s e s' effects)
    (playing : (∀ h, s ≠ callsPaused h) ∨ e = powerButtonPressed ∨ e = powerButtonHeld) :
    s'.onHook = (hookLevel e).getD s.onHook := by
  cases arm
  case stay same =>
    cases e <;> try rfl
    · cases s <;> cases same
    · exact stayLifted same (by simpa using playing)
  case power effect button => rcases button with ⟨rfl,_⟩ | ⟨rfl,_⟩ <;> rfl
  case rest rests => cases rests <;> rfl
  case fail fails => cases fails <;> rfl
  case dial digit dials => rw [decodeDigitOnHook]; cases dials <;> rfl
  case uploadedBeeping done => rcases done with rfl | rfl <;> rfl
  case silentUploaded done => rcases done with rfl | rfl <;> rfl
  all_goals rfl

theorem turnOnHook {s e accepting s' effects} (turn : Turn s e accepting s' effects) :
    s'.onHook = (hookLevel e).getD s.onHook := by
  cases turn with
  | stale dropped =>
    cases e <;> first | rfl | cases dropped
  | inner settled open_ same =>
    rw [← settleHookLevel settled]
    exact armOnHook (innerArm same) (open_.symm.imp And.right id)
  | resumedIdle paused position => rw [← hookAfterLevel,position]; rfl
  | resumedTone paused position silent => rw [← hookAfterLevel,position]; rfl
  | resumedPulse paused position input => rw [← hookAfterLevel,position]; rfl
  | resumedDigit paused position input =>
    rw [← hookAfterLevel,position]; exact decodeDigitOnHook _
  | stillPaused paused => exact hookAfterLevel s e
  | cut idle_ playing => exact hookAfterLevel s e
  | kept settled safe same still =>
    have inside : ∀ h, (silenceBeep s).1 ≠ callsPaused h := by
      intro h equal
      have : (silenceBeep s).1.isProtected = true := by rw [silenceBeepProtected,safe]
      simp [equal,State.isProtected] at this
    rw [silenceBeepOnHook,armOnHook (innerArm same) (.inl inside),settleHookLevel settled,silenceBeepOnHook]
  | released settled safe same ended =>
    rw [← settleHookLevel settled]
    exact hookAfterLevel s _

theorem stepOnHook (s : State) (i : Input) :
    (coreStep s i).1.onHook = (hookLevel i.1).getD s.onHook := by
  obtain ⟨effects,_,turn⟩ := stepTurn s i
  exact turnOnHook turn

theorem runOnHook (s : State) (inputs : List Input) :
    (coreRun s inputs).onHook = lastHook s.onHook inputs := by
  induction inputs generalizing s with
  | nil => rfl
  | cons i rest ih =>
    have later := ih (coreStep s i).1
    rw [stepOnHook] at later
    rw [lastHookCons]
    exact later

/- A booth starts at rest on the hook, or paused with the sampled position. -/
theorem handsetPositionKnown (inputs : List Input) :
    (coreRun idle inputs).onHook = lastHook true inputs ∧
    ∀ h, (coreRun (callsPaused h) inputs).onHook = lastHook h inputs :=
  ⟨runOnHook idle inputs,fun h => runOnHook (callsPaused h) inputs⟩

end TelephoneBooth
