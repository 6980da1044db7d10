import TelephoneBooth.CoreStep

/-! Admission decides what the caller hears, never how an answer is finished. Both
admission modes follow one flag-free machine on states whose end beep is silenced,
and two runs that follow the same machine agree with each other. -/
namespace TelephoneBooth
open State Event Effect

def recordingEffect : Effect → Option Effect
  | startRecording => none
  | stopRecording => some stopRecording
  | uploadRecording r q => some (uploadRecording r q)
  | armRecordingTimeout => some armRecordingTimeout
  | cancelRecordingTimeout => some cancelRecordingTimeout
  | _ => none

def recordingEffects (effects : List Effect) : List Effect := effects.filterMap recordingEffect

def SameUpToBeep (s t : State) : Prop := (silenceBeep s).1 = (silenceBeep t).1

theorem recordingAppend (xs ys : List Effect) :
    recordingEffects (xs ++ ys) = recordingEffects xs ++ recordingEffects ys := by
  simp [recordingEffects]

theorem recordingSuppress (effects : List Effect) :
    recordingEffects (suppress effects) = recordingEffects effects :=
  filterMapSuppress (fun _ => rfl) (fun _ => rfl) effects

theorem recordingLed (s t : State) : recordingEffects (ledChange s t) = [] :=
  filterMapLed (fun _ _ => rfl) s t

theorem recordingStopIf (pending : Bool) : recordingEffects (stopIf pending) = [] := by
  cases pending <;> rfl

def finish (s : State) (e : Event) : State × List Effect :=
  match settle s e with
  | none => (s,[])
  | some e => ((silenceBeep (handleInner s e).1).1,(handleInner s e).2)

structure Follows (base : State × List Effect) (s' : State) (effects : List Effect) : Prop where
  leaves : s'.isProtected = base.1.isProtected
  agrees : s'.isProtected = true → (silenceBeep s').1 = base.1
  records : recordingEffects effects = recordingEffects base.2

theorem silenceBeepTwice (s : State) : (silenceBeep (silenceBeep s).1).1 = (silenceBeep s).1 :=
  silencedAlike (fun s => (silenceBeep s).1) (fun _ _ => rfl) s

@[simp] theorem uploadInFlightSilenced (s : State) :
    (silenceBeep s).1.uploadInFlight = s.uploadInFlight :=
  silencedAlike State.uploadInFlight (fun _ _ => rfl) s

theorem settleSilenced (s : State) (e : Event) : settle (silenceBeep s).1 e = settle s e := by
  cases e <;> simp [settle]

theorem finishStale {s : State} {e : Event} (dropped : settle s e = none) :
    finish (silenceBeep s).1 e = ((silenceBeep s).1,[]) := by
  simp only [finish,settleSilenced,dropped]

theorem finishSettled {s : State} {e e' : Event} (settled : settle s e = some e') :
    finish (silenceBeep s).1 e =
      ((silenceBeep (handleInner (silenceBeep s).1 e').1).1,(handleInner (silenceBeep s).1 e').2) := by
  simp only [finish,settleSilenced,settled]

theorem followsSelf (n : State) (effects : List Effect) :
    Follows ((silenceBeep n).1,effects) n effects :=
  ⟨(silenceBeepProtected n).symm,fun _ => rfl,rfl⟩

theorem innerFollows (s : State) (e : Event) :
    Follows ((silenceBeep (handleInner (silenceBeep s).1 e).1).1,(handleInner (silenceBeep s).1 e).2)
      (handleInner s e).1 (handleInner s e).2 := by
  cases s with
  | uploadingTimedOut r q pending =>
    cases pending with
    | false => exact followsSelf _ _
    | true =>
      cases e <;> refine ⟨rfl,?_,rfl⟩ <;> intro inside <;> first
        | rfl
        | cases inside
  | _ => exact followsSelf _ _

theorem turnFollows {s e accepting s' effects} (turn : Turn s e accepting s' effects)
    (safe : s.isProtected = true) : Follows (finish (silenceBeep s).1 e) s' effects := by
  cases turn with
  | stale dropped => rw [finishStale dropped]; exact followsSelf s []
  | inner settled open_ same =>
    rename_i e'
    have follows := innerFollows s e'
    rw [same] at follows
    rw [finishSettled settled]
    exact follows
  | resumedIdle paused | resumedTone paused | resumedPulse paused | resumedDigit paused
  | stillPaused paused => subst paused; cases safe
  | cut idle_ playing => rw [safe] at idle_; cases idle_
  | kept settled safe same still =>
    rw [finishSettled settled,same]
    refine ⟨rfl,fun _ => silenceBeepTwice _,?_⟩
    rw [recordingAppend,recordingStopIf,recordingSuppress]; rfl
  | released settled safe same ended =>
    rw [finishSettled settled,same]
    refine ⟨?_,?_,?_⟩
    · rw [silenceBeepProtected,ended]; rfl
    · intro inside; cases inside
    · rw [recordingAppend,recordingAppend,recordingStopIf,recordingSuppress]
      exact List.append_nil _

theorem stepFollows {s : State} (i : Input) (safe : s.isProtected = true) :
    Follows (finish (silenceBeep s).1 i.1) (coreStep s i).1 (coreStep s i).2 := by
  obtain ⟨effects,same,turn⟩ := stepTurn s i
  have follows := turnFollows turn safe
  refine ⟨follows.leaves,follows.agrees,?_⟩
  rw [same,recordingAppend,recordingLed]
  exact follows.records

abbrev Decided := Event × Bool × Bool

def firstInput (i : Decided) : Input := (i.1,i.2.1)
def secondInput (i : Decided) : Input := (i.1,i.2.2)

/- Two runs over the same events, whatever their flags: while protected they are the same
state up to the beep, they stop being protected at the same step, and up to that step they
ask for the same recording work. -/
theorem admissionKeepsFinish (q : QuestionId) (inputs : List Decided) :
    Machine.Lockstep coreStep firstInput secondInput (fun s => s.isProtected = true) SameUpToBeep
      (fun first second => recordingEffects first = recordingEffects second)
      (recording q) (recording q) inputs := by
  have sameStart : SameUpToBeep (recording q) (recording q) := rfl
  apply Machine.runLockstep _ _ _ _ _ _ _ (by rfl) (by rfl) sameStart
  intro s t i safe safe' same
  have first := stepFollows (firstInput i) safe
  have second := stepFollows (secondInput i) safe'
  have base : finish (silenceBeep s).1 (firstInput i).1 =
      finish (silenceBeep t).1 (secondInput i).1 := by rw [show (silenceBeep s).1 = _ from same]; rfl
  rw [base] at first
  refine ⟨first.records.trans second.records.symm,by rw [first.leaves,second.leaves],?_⟩
  intro still
  have still' : (coreStep t (secondInput i)).1.isProtected = true := by
    rw [second.leaves,← first.leaves,still]
  exact (first.agrees still).trans (second.agrees still').symm

end TelephoneBooth
