import TelephoneBooth.CoreStep

/-! What the caller hears, as a ghost beside the core: `Play` starts a source,
`StopAudio` and a reported end silence it. The ghost never strays from the source
that belongs to the state, under either admission mode. -/
namespace TelephoneBooth
open State Event Effect

def hear (playing : Option AudioRef) : Effect → Option AudioRef
  | play source => some source
  | stopAudio => none
  | _ => playing

def hearAll (playing : Option AudioRef) (effects : List Effect) : Option AudioRef :=
  effects.foldl hear playing

def hearEnd (playing : Option AudioRef) : Event → Option AudioRef
  | playbackEnded => none
  | _ => playing

def noteSound (playing : Option AudioRef) (s : State) (i : Input) : Option AudioRef :=
  hearAll (hearEnd playing i.1) (coreStep s i).2

def sourceOf : State → Option AudioRef
  | dialTone => some (.builtin .dialTone)
  | ringingQuestion _ => some (.builtin .ringback)
  | playingQuestion _ | playingMessage | playingInstructions => some unresolvedClip
  | State.beep _ | uploadingTimedOut _ _ true | recordingEndedBeep => some (.builtin .beep)
  | callUnavailable => some (.builtin .callUnavailable)
  | error _ => some (.builtin .lineBusy)
  | _ => none

def Sounds (s : State) (playing : Option AudioRef) : Prop :=
  ∀ source, playing = some source → sourceOf s = some source

theorem soundsNone (s : State) : Sounds s none := by simp [Sounds]

theorem soundsSource {s : State} {source : AudioRef} (own : sourceOf s = some source) :
    Sounds s (some source) := by simp [Sounds,own]

theorem soundsSilent {s : State} {playing : Option AudioRef} (silent : sourceOf s = none)
    (sounds : Sounds s playing) : playing = none := by
  cases playing with
  | none => rfl
  | some source => simpa [silent] using sounds source rfl

theorem soundsHearEnd {s : State} {playing : Option AudioRef} (e : Event)
    (sounds : Sounds s playing) : Sounds s (hearEnd playing e) := by
  cases e <;> first | exact sounds | exact soundsNone s

theorem hearAllAppend (playing : Option AudioRef) (xs ys : List Effect) :
    hearAll playing (xs ++ ys) = hearAll (hearAll playing xs) ys := by
  simp [hearAll]

theorem hearAllLed (playing : Option AudioRef) (s t : State) :
    hearAll playing (ledChange s t) = playing := by
  unfold ledChange
  split <;> rfl

theorem hearAllSuppressed (effects : List Effect) : hearAll none (suppress effects) = none := by
  induction effects with
  | nil => rfl
  | cons effect rest ih => cases effect <;> simpa [suppress,hearAll,hear] using ih

theorem decodeDigitSounds {s : State} {playing : Option AudioRef} (digit : UInt8)
    (dialing_ : s = dialTone ∨ ∃ pulses, s = dialing pulses) (sounds : Sounds s playing) :
    Sounds (decodeDigit digit).1 (hearAll playing (decodeDigit digit).2) := by
  have tone : Sounds dialTone playing := by
    rcases dialing_ with rfl | ⟨pulses,rfl⟩
    · exact sounds
    · rw [soundsSilent rfl sounds]; exact soundsNone _
  unfold decodeDigit
  repeat' split
  all_goals first | exact tone | exact soundsSource rfl

theorem armSounds {s e s' effects playing} (arm : Arm s e s' effects) (sounds : Sounds s playing) :
    Sounds s' (hearAll (hearEnd playing e) effects) := by
  cases arm
  case stay => exact soundsHearEnd e sounds
  case power effect button => rcases button with ⟨rfl,rfl⟩ | ⟨rfl,rfl⟩ <;> exact sounds
  case rest rests => exact soundsSource rfl
  case fail fails => cases fails <;> exact soundsSource rfl
  case dial digit dials =>
    have from_ : s = dialTone ∨ ∃ pulses, s = dialing pulses := by cases dials <;> simp
    exact decodeDigitSounds digit from_ (soundsHearEnd e sounds)
  case uploadedBeeping r q done => rcases done with rfl | rfl <;> exact sounds
  case silentUploaded r q done =>
    rcases done with rfl | rfl <;> rw [soundsSilent rfl sounds] <;> exact soundsNone _
  all_goals first
    | exact soundsSource rfl
    | exact soundsNone _
    | (rw [soundsSilent rfl sounds]; exact soundsNone _)

theorem settleHearEnd {s : State} {e e' : Event} (settled : settle s e = some e')
    (playing : Option AudioRef) : hearEnd playing e' = hearEnd playing e := by
  refine settledAlike (hearEnd playing) ?_ settled
  intro r outcome
  cases outcome <;> rfl

theorem silencedSource {s : State} (safe : s.isProtected = true) :
    sourceOf (silenceBeep s).1 = none := by
  cases s with
  | uploadingTimedOut r q pending => cases pending <;> rfl
  | _ => first | rfl | cases safe

theorem silencedSounds {s : State} {playing : Option AudioRef} (safe : s.isProtected = true)
    (sounds : Sounds s playing) : hearAll playing (stopIf (silenceBeep s).2) = none := by
  cases pending : (silenceBeep s).2 with
  | true => rfl
  | false =>
    have same : (silenceBeep s).1 = s := by
      cases s with
      | uploadingTimedOut r q beeping => cases beeping <;> first | rfl | cases pending
      | _ => rfl
    exact soundsSilent (same ▸ silencedSource safe) sounds

theorem pausedSilence {s : State} {playing : Option AudioRef} (e : Event) (pending : Bool)
    (effects : List Effect) (safe : s.isProtected = true) (sounds : Sounds s playing) :
    hearAll (hearEnd playing e)
      (stopIf ((silenceBeep s).2 || pending) ++ suppress effects) = none := by
  have start : hearAll (hearEnd playing e) (stopIf ((silenceBeep s).2 || pending)) = none := by
    cases pending with
    | true => rw [Bool.or_true]; rfl
    | false => rw [Bool.or_false]; exact silencedSounds safe (soundsHearEnd e sounds)
  rw [hearAllAppend,start,hearAllSuppressed]

theorem turnSounds {s e accepting s' effects playing} (turn : Turn s e accepting s' effects)
    (sounds : Sounds s playing) : Sounds s' (hearAll (hearEnd playing e) effects) := by
  have heard := soundsHearEnd e sounds
  cases turn with
  | stale dropped => exact heard
  | inner settled open_ same => rw [← settleHearEnd settled]; exact armSounds (innerArm same) sounds
  | resumedIdle paused position =>
    subst paused
    rw [soundsSilent rfl heard]; exact soundsNone _
  | resumedTone paused position silent => exact soundsSource rfl
  | resumedPulse paused position input => exact soundsNone _
  | resumedDigit paused position input =>
    rw [hearAllAppend]
    exact decodeDigitSounds _ (.inl rfl) (soundsSource rfl)
  | stillPaused paused =>
    subst paused
    rw [soundsSilent rfl heard]; exact soundsNone _
  | cut idle_ playing => exact soundsNone _
  | kept settled safe same still =>
    rw [pausedSilence e _ _ safe sounds]; exact soundsNone _
  | released settled safe same ended =>
    rw [hearAllAppend]
    exact soundsNone _

theorem stepSounds {s : State} {playing : Option AudioRef} (i : Input) (sounds : Sounds s playing) :
    Sounds (coreStep s i).1 (noteSound playing s i) := by
  obtain ⟨effects,same,turn⟩ := stepTurn s i
  rw [noteSound,same,hearAllAppend,hearAllLed]
  exact turnSounds turn sounds

def soundingRun (inputs : List Input) : State × Option AudioRef :=
  Machine.run (Machine.observed coreStep noteSound) (idle,none) inputs

theorem soundingRunCore (inputs : List Input) : (soundingRun inputs).1 = coreRun idle inputs :=
  Machine.observedRun coreStep noteSound idle none inputs

theorem playingMatchesState (inputs : List Input) :
    (soundingRun inputs).1 = coreRun idle inputs ∧
    ∀ source, (soundingRun inputs).2 = some source → sourceOf (coreRun idle inputs) = some source := by
  have sounds : Sounds (soundingRun inputs).1 (soundingRun inputs).2 :=
    Machine.runInvariant _ (fun s : State × Option AudioRef => Sounds s.1 s.2) (fun _ => True)
      (fun s i _ sounds => stepSounds i sounds) (soundsNone idle) (fun _ _ => trivial)
  refine ⟨soundingRunCore inputs,?_⟩
  rw [← soundingRunCore]
  exact sounds

end TelephoneBooth
