import TelephoneBooth.ClipTurn

/-! Admission closed and reopened. Closed, the core starts nothing for a caller and ends
either paused or on an answer it still has to finish; reopened, it is as if the handset had
just been found where it is, with a first dial input kept. -/
namespace TelephoneBooth
open State Event Effect

def admits : Effect → Bool
  | play _ | putStatus _ | startRecording => true
  | effect => effect.fetchKind.isSome

def passes (s : State) : Event → Bool
  | powerButtonPressed | powerButtonHeld => true
  | uploadFinished r _ => decide (s.uploadInFlight ≠ some r)
  | _ => false

def Closed (onHook : Bool) (s : State) : Prop :=
  s = callsPaused onHook ∨ s.isProtected = true ∧ (silenceBeep s).2 = false

def withoutLed (step : State × List Effect) : State × List Effect :=
  (step.1,step.2.filter fun
    | setStatusLed _ _ => false
    | _ => true)

def reopened (onHook : Bool) : State × List Effect :=
  if onHook then (idle,[putStatus .idle]) else withoutLed (handle idle hookOff)

def thenHandle (first : State × List Effect) (e : Event) : State × List Effect :=
  ((handle first.1 e).1,first.2 ++ (withoutLed (handle first.1 e)).2)

def isDialInput : Event → Bool
  | rotaryPulse | digitDialed _ => true
  | _ => false

theorem suppressAdmits {effects : List Effect} (harmless : Harmless effects) :
    ∀ effect ∈ suppress effects, admits effect = false := by
  intro effect mem
  obtain ⟨inside,kept⟩ := List.mem_filter.mp mem
  obtain ⟨_,fetches,start⟩ := harmless effect inside
  cases effect <;> first
    | rfl
    | (cases fetches; done)
    | exact absurd rfl start
    | cases kept

theorem stopIfAdmits (pending : Bool) : ∀ effect ∈ stopIf pending, admits effect = false := by
  cases pending <;> simp [stopIf,admits,Effect.fetchKind]

theorem settledPower {s : State} {e e' : Event} (settled : settle s e = some e')
    (button : e' = powerButtonPressed ∨ e' = powerButtonHeld) : e = e' := by
  refine settledSame settled ?_
  rintro outcome rfl
  cases outcome <;> rcases button with same | same <;> cases same

theorem settlePasses {s : State} {e : Event} (dropped : settle s e = none) : passes s e = true := by
  cases e with
  | uploadFinished r outcome =>
    simp only [settle] at dropped
    split at dropped
    · cases dropped
    · simpa [passes] using by assumption
  | _ => cases dropped

theorem settledHook {s : State} {e e' : Event} (settled : settle s e = some e') :
    hookAfter s e' = hookAfter s e := by
  refine settledAlike (hookAfter s) ?_ settled
  intro r outcome
  cases outcome <;> rfl

theorem settledMoves {s : State} {e e' : Event} (settled : settle s e = some e')
    (other : ¬ (e' = powerButtonPressed ∨ e' = powerButtonHeld)) : passes s e = false := by
  cases e with
  | uploadFinished r outcome =>
    simp only [settle] at settled
    split at settled
    · simpa [passes] using by assumption
    · cases settled
  | powerButtonPressed => exact absurd (.inl (Option.some.inj settled).symm) other
  | powerButtonHeld => exact absurd (.inr (Option.some.inj settled).symm) other
  | _ => rfl

theorem powerInner (s : State) {e : Event} (button : e = powerButtonPressed ∨ e = powerButtonHeld) :
    (handleInner s e).1 = s ∧ ∀ effect ∈ (handleInner s e).2, admits effect = false := by
  rcases button with rfl | rfl <;> cases s <;>
    exact ⟨rfl,fun effect mem => by rw [List.mem_singleton.mp mem]; rfl⟩

theorem silencedStill (s : State) : (silenceBeep (silenceBeep s).1).2 = false := by
  cases s with
  | uploadingTimedOut r q pending => cases pending <;> rfl
  | _ => rfl

theorem turnAdmits {s e s' effects} (turn : Turn s e false s' effects) :
    ∀ effect ∈ effects, admits effect = false := by
  have keeps {s : State} {e : Event} {n : State} {effects : List Effect} (pending : Bool)
      (safe : s.isProtected = true) (same : handleInner (silenceBeep s).1 e = (n,effects)) :
      ∀ effect ∈ stopIf pending ++ suppress effects, admits effect = false := by
    have harmless := armHarmless (innerArm same) (by rw [silenceBeepProtected,safe])
    intro effect mem
    exact (List.mem_append.mp mem).elim (stopIfAdmits pending effect) (suppressAdmits harmless effect)
  cases turn with
  | stale => exact fun _ mem => absurd mem List.not_mem_nil
  | inner settled open_ same =>
    rcases open_ with button | ⟨opened,_⟩
    · have quiet := (powerInner s button).2
      rwa [same] at quiet
    · cases opened
  | stillPaused => exact fun _ mem => absurd mem List.not_mem_nil
  | cut => simp [admits,Effect.fetchKind]
  | kept settled safe same still => exact keeps _ safe same
  | released settled safe same ended =>
    intro effect mem
    rcases List.mem_append.mp mem with front | back
    · exact keeps _ safe same effect front
    · rcases List.mem_pair.mp back with rfl | rfl <;> rfl

theorem pausedRests (s : State) (e : Event) (onHook : Bool) :
    Closed onHook (handlePaused s e onHook).1 := by
  unfold handlePaused
  dsimp only
  split
  · split
    · exact .inr ⟨by assumption,silencedStill _⟩
    · exact .inl rfl
  · exact .inl rfl

theorem closedRests (s : State) (e : Event) :
    if passes s e then (handleAvailable s e false).1 = s
    else Closed (hookAfter s e) (handleAvailable s e false).1 := by
  unfold handleAvailable
  cases settled : settle s e with
  | none => rw [if_pos (settlePasses settled)]
  | some e' =>
    by_cases button : e' = powerButtonPressed ∨ e' = powerButtonHeld
    · have power : passes s e = true := by
        rw [settledPower settled button]
        rcases button with rfl | rfl <;> rfl
      have same : handleSettled s e' false = handleInner s e' := by
        rcases button with rfl | rfl <;> rfl
      rw [if_pos power]
      exact (congrArg Prod.fst same).trans (powerInner s button).1
    · have moves : ¬ passes s e = true := by simp [settledMoves settled button]
      rw [if_neg moves,← settledHook settled]
      have rests := pausedRests s e' (hookAfter s e')
      rwa [← handleSettledPaused button] at rests

theorem closedAdmits (s : State) (e : Event) :
    ∀ effect ∈ (coreStep s (e,false)).2, admits effect = false := by
  obtain ⟨effects,same,turn⟩ := stepTurn s (e,false)
  rw [same]
  intro effect mem
  rcases List.mem_append.mp mem with led | inside
  · obtain ⟨colour,pattern,rfl⟩ := ledChangeMem led
    rfl
  · exact turnAdmits turn effect inside

theorem withoutLedStep (s : State) (e : Event) (accepting : Bool) :
    withoutLed (handleWithCallAvailability s e accepting) = withoutLed (handleAvailable s e accepting) := by
  have led : (ledChange s (handleAvailable s e accepting).1).filter (fun
      | setStatusLed _ _ => false
      | _ => true) = [] := by
    rw [List.filter_eq_nil_iff]
    intro effect mem
    obtain ⟨colour,pattern,rfl⟩ := ledChangeMem mem
    simp
  simp only [withoutLed,handleWithCallAvailability,List.filter_append,led,List.nil_append]

theorem decodeDigitLed (digit : UInt8) : withoutLed (decodeDigit digit) = decodeDigit digit := by
  unfold decodeDigit
  repeat' split
  all_goals rfl

theorem reopenedStep (h : Bool) (e : Event) (moves : passes (callsPaused h) e = false) :
    withoutLed (coreStep (callsPaused h) (e,true)) =
      if isDialInput e then thenHandle (reopened (hookAfter (callsPaused h) e)) e
      else reopened (hookAfter (callsPaused h) e) := by
  rw [coreStep,withoutLedStep]
  have button : ¬ (e = powerButtonPressed ∨ e = powerButtonHeld) := by
    rintro (rfl | rfl) <;> cases moves
  have live : settle (callsPaused h) e = some e := by
    cases e with
    | uploadFinished => cases moves
    | _ => rfl
  have step : handleAvailable (callsPaused h) e true = resume (hookAfter (callsPaused h) e) e := by
    unfold handleAvailable
    rw [live]
    exact handleSettledResume button
  have lifted : reopened false = pickUp := by decide
  rw [step]
  cases position : hookAfter (callsPaused h) e with
  | true => cases e <;> rfl
  | false =>
    rw [lifted]
    cases e with
    | digitDialed digit =>
      have digits : withoutLed (handle dialTone (digitDialed digit)) = decodeDigit digit := by
        rw [handle,withoutLedStep]
        exact decodeDigitLed digit
      have heard : (handle dialTone (digitDialed digit)).1 = (decodeDigit digit).1 := by
        rw [← digits]
        rfl
      have kept : (withoutLed (decodeDigit digit)).2 = (decodeDigit digit).2 :=
        congrArg Prod.snd (decodeDigitLed digit)
      simp only [isDialInput,if_true,thenHandle,pickUp,heard,digits]
      exact Prod.ext rfl (congrArg (pickUp.2 ++ ·) kept)
    | rotaryPulse => decide
    | _ => rfl

/- Closed, nothing is admitted and the core ends paused or finishing an answer; reopened, the
booth is found as the handset lies, and a first pulse or digit is dialled. -/
theorem closedAdmission :
    (∀ s e, (∀ effect ∈ (coreStep s (e,false)).2, admits effect = false) ∧
      if passes s e then (coreStep s (e,false)).1 = s
      else Closed (hookAfter s e) (coreStep s (e,false)).1) ∧
    ∀ h e, passes (callsPaused h) e = false →
      withoutLed (coreStep (callsPaused h) (e,true)) =
        if isDialInput e then thenHandle (reopened (hookAfter (callsPaused h) e)) e
        else reopened (hookAfter (callsPaused h) e) :=
  ⟨fun s e => ⟨closedAdmits s e,closedRests s e⟩,reopenedStep⟩

theorem reopeningDropsAnnouncement : ¬ ∀ h e, passes (callsPaused h) e = false →
    withoutLed (coreStep (callsPaused h) (e,true)) =
      thenHandle (reopened (hookAfter (callsPaused h) e)) e := by
  intro handled
  have rings := handled false (questionReady "q1") rfl
  revert rings
  decide

end TelephoneBooth
