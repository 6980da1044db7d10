import TelephoneBooth.Advertised

/-! The two runtime timers, as the core arms and cancels them. Every way out of a state with
a timer cancels it, but for one digit that no dial can produce. -/
namespace TelephoneBooth
open State Event Effect

structure Timers where
  pulse : Bool
  recording : Bool
  deriving DecidableEq

def setTimer (t : Timers) : Effect → Timers
  | armPulseTimeout => { t with pulse := true }
  | cancelPulseTimeout => { t with pulse := false }
  | armRecordingTimeout => { t with recording := true }
  | cancelRecordingTimeout => { t with recording := false }
  | _ => t

def setTimers (t : Timers) (effects : List Effect) : Timers := effects.foldl setTimer t

def noteTimers (t : Timers) (s : State) (i : Input) : Timers := setTimers t (coreStep s i).2

def State.isDialing : State → Bool
  | dialing _ => true
  | _ => false

def State.isRecording : State → Bool
  | State.recording _ => true
  | _ => false

def groupFits : State → Bool
  | dialing pulses => decide (1 ≤ pulses ∧ pulses ≤ maxPulsesPerDigit ∧
      (if pulses = 10 then 0 else pulses) ≤ 9)
  | _ => true

structure Disciplined (s : State × Timers) : Prop where
  pulse : s.2.pulse = s.1.isDialing
  recording : s.2.recording = s.1.isRecording
  group : groupFits s.1 = true

instance (s : State × Timers) : Decidable (Disciplined s) :=
  decidable_of_iff (s.2.pulse = s.1.isDialing ∧ s.2.recording = s.1.isRecording ∧ groupFits s.1 = true)
    ⟨fun held => ⟨held.1,held.2.1,held.2.2⟩,fun held => ⟨held.pulse,held.recording,held.group⟩⟩

def misdials : State → Event → Bool
  | dialing _, digitDialed digit => decide (9 < digit)
  | _, _ => false

theorem timersAppend (t : Timers) (xs ys : List Effect) :
    setTimers t (xs ++ ys) = setTimers (setTimers t xs) ys := by
  simp [setTimers]

theorem timersLed (t : Timers) (s s' : State) : setTimers t (ledChange s s') = t := by
  unfold ledChange
  split <;> rfl

theorem timersStopIf (t : Timers) (pending : Bool) : setTimers t (stopIf pending) = t := by
  cases pending <;> rfl

theorem timersSuppress (t : Timers) (effects : List Effect) :
    setTimers t (suppress effects) = setTimers t effects := by
  induction effects generalizing t with
  | nil => rfl
  | cons effect rest ih => cases effect <;> exact ih _

theorem decodeTimers (digit : UInt8) {t : Timers} {dialing : Bool} (pulse : t.pulse = dialing)
    (silent : t.recording = false) :
    Disciplined ((decodeDigit digit).1,setTimers t (decodeDigit digit).2) ↔
      ¬ (dialing = true ∧ 9 < digit) := by
  have decoded := decodeCases digit
  generalize decodeDigit digit = result at decoded ⊢
  obtain ⟨s,effects⟩ := result
  cases decoded with
  | fetch message named fetches =>
    rename_i effect
    refine ⟨fun _ both => named both.2,fun _ => ?_⟩
    cases effect <;> first
      | exact ⟨rfl,silent,rfl⟩
      | cases fetches
  | unavailable message named => exact ⟨fun _ both => named both.2,fun _ => ⟨rfl,silent,rfl⟩⟩
  | invalid reason nameless =>
    constructor
    · rintro ⟨stopped,_,_⟩ ⟨rfl,_⟩
      rw [show t.pulse = false from stopped] at pulse
      cases pulse
    · intro named
      have resting : dialing = false := by
        cases dialing with
        | false => rfl
        | true => exact absurd ⟨rfl,nameless⟩ named
      exact ⟨pulse.trans resting,silent,rfl⟩

theorem firstPulseFits : groupFits (dialing 1) = true := by decide

theorem nextPulseFits {pulses : UInt8} (group : groupFits (dialing pulses) = true)
    (fits : ¬ saturatingAdd pulses 1 > maxPulsesPerDigit) :
    groupFits (dialing (saturatingAdd pulses 1)) = true := by
  simp only [groupFits,decide_eq_true_eq] at group ⊢
  have low : 1 ≤ pulses.toNat := UInt8.le_iff_toNat_le.mp group.1
  have high : pulses.toNat ≤ 10 := UInt8.le_iff_toNat_le.mp group.2.1
  have sum : saturatingAdd pulses 1 = pulses + 1 := by
    unfold saturatingAdd
    rw [if_pos]
    show pulses.toNat + 1 < 256
    omega
  rw [sum] at fits ⊢
  have value : (pulses + 1).toNat = pulses.toNat + 1 := by
    rw [UInt8.toNat_add]
    show (pulses.toNat + 1) % 256 = _
    omega
  have bound : (pulses + 1).toNat ≤ 10 := UInt8.le_iff_toNat_le.mp (UInt8.not_lt.mp fits)
  refine ⟨UInt8.le_iff_toNat_le.mpr ?_,UInt8.not_lt.mp fits,?_⟩
  · show 1 ≤ (pulses + 1).toNat
    omega
  · split
    · decide
    · rename_i other
      have apart : (pulses + 1).toNat ≠ 10 := fun same => other (UInt8.toNat_inj.mp same)
      refine UInt8.le_iff_toNat_le.mpr ?_
      show (pulses + 1).toNat ≤ 9
      omega

theorem groupNamed {pulses : UInt8} (group : groupFits (dialing pulses) = true) :
    ¬ 9 < (if pulses = 10 then 0 else pulses) := by
  simp only [groupFits,decide_eq_true_eq] at group
  exact UInt8.not_lt.mpr group.2.2

theorem armDisciplined {s e s' effects t} (arm : Arm s e s' effects) (held : Disciplined (s,t)) :
    Disciplined (s',setTimers t effects) ↔ misdials s e = false := by
  obtain ⟨pulse,recording_,group⟩ := held
  have fine (disciplined : Disciplined (s',setTimers t effects)) (named : misdials s e = false) :
      Disciplined (s',setTimers t effects) ↔ misdials s e = false :=
    ⟨fun _ => named,fun _ => disciplined⟩
  cases arm
  case stay same =>
    refine fine ⟨pulse,recording_,group⟩ ?_
    cases s with
    | dialing pulses =>
      cases e with
      | digitDialed digit => exact (decodedElsewhere same).elim
      | _ => rfl
    | _ => cases e <;> rfl
  case power effect button =>
    rcases button with ⟨rfl,rfl⟩ | ⟨rfl,rfl⟩ <;> cases s <;>
      exact fine ⟨pulse,recording_,group⟩ rfl
  case dial digit dials =>
    cases dials with
    | group pulses =>
      have named := groupNamed group
      have decoded := (decodeTimers _ pulse recording_).mpr fun both => named both.2
      exact fine decoded rfl
    | direct digit =>
      have decoded := (decodeTimers digit pulse recording_).mpr fun both => by cases both.1
      exact fine decoded rfl
    | interrupted pulses digit =>
      rw [decodeTimers digit pulse recording_]
      simp [misdials,State.isDialing]
  case rest rests => cases rests <;> exact fine ⟨pulse,recording_,rfl⟩ rfl
  case fail fails =>
    cases fails <;> first
      | exact fine ⟨pulse,recording_,rfl⟩ rfl
      | exact fine ⟨pulse,rfl,rfl⟩ rfl
  case hangUpReset recording finishing timedOut =>
    refine fine ⟨rfl,rfl,rfl⟩ ?_
    cases s <;> rfl
  case nextPulse pulses fits => exact fine ⟨rfl,recording_,nextPulseFits group fits⟩ rfl
  case uploadedBeeping done => rcases done with rfl | rfl <;> exact fine ⟨pulse,recording_,rfl⟩ rfl
  case silentUploaded done => rcases done with rfl | rfl <;> exact fine ⟨pulse,recording_,rfl⟩ rfl
  all_goals first
    | exact fine ⟨pulse,recording_,rfl⟩ rfl
    | exact fine ⟨rfl,recording_,rfl⟩ rfl
    | exact fine ⟨pulse,rfl,rfl⟩ rfl
    | exact fine ⟨rfl,rfl,rfl⟩ rfl

theorem unprotectedSilent {s : State} (ended : s.isProtected = false) : s.isRecording = false := by
  cases s <;> first | rfl | cases ended

theorem silencedDisciplined {s : State} {t : Timers} :
    Disciplined ((silenceBeep s).1,t) ↔ Disciplined (s,t) := by
  cases s with
  | uploadingTimedOut r q pending =>
    cases pending <;> exact ⟨fun held => ⟨held.1,held.2,rfl⟩,fun held => ⟨held.1,held.2,rfl⟩⟩
  | _ => exact Iff.rfl

theorem settleMisdials {s : State} {e e' : Event} (settled : settle s e = some e') :
    misdials s e' = misdials s e := by
  refine settledAlike (misdials s) ?_ settled
  intro r outcome
  cases s <;> cases outcome <;> rfl

theorem protectedDials {s : State} (safe : s.isProtected = true) (e : Event) :
    misdials s e = false := by
  cases s <;> first | (cases safe; done) | rfl

theorem turnDisciplined {s e accepting s' effects t} (turn : Turn s e accepting s' effects)
    (held : Disciplined (s,t)) :
    Disciplined (s',setTimers t effects) ↔ (accepting && misdials s e) = false := by
  have fine (disciplined : Disciplined (s',setTimers t effects))
      (named : (accepting && misdials s e) = false) :
      Disciplined (s',setTimers t effects) ↔ (accepting && misdials s e) = false :=
    ⟨fun _ => named,fun _ => disciplined⟩
  -- behind a protected state the arm's own effects on the timers are kept
  have behind {e' : Event} {n : State} {effects : List Effect} (pending : Bool)
      (safe : s.isProtected = true) (same : handleInner (silenceBeep s).1 e' = (n,effects)) :
      Disciplined (n,setTimers t (stopIf pending ++ suppress effects)) := by
    rw [timersAppend,timersStopIf,timersSuppress]
    have safe_ : (silenceBeep s).1.isProtected = true := by rw [silenceBeepProtected,safe]
    exact (armDisciplined (innerArm same) (silencedDisciplined.mpr held)).mpr (protectedDials safe_ e')
  cases turn with
  | stale dropped =>
    refine fine held ?_
    cases e with
    | uploadFinished => cases s <;> simp [misdials]
    | _ => cases dropped
  | inner settled open_ same =>
    rw [armDisciplined (innerArm same) held,settleMisdials settled]
    rcases open_ with button | ⟨rfl,_⟩
    · have power : misdials s e = false := by
        rw [← settleMisdials settled]
        rcases button with rfl | rfl <;> cases s <;> rfl
      simp [power]
    · simp
  | resumedIdle paused | resumedTone paused =>
    subst paused
    exact fine ⟨held.pulse,held.recording,rfl⟩ rfl
  | resumedPulse paused =>
    subst paused
    exact fine ⟨rfl,held.recording,firstPulseFits⟩ rfl
  | resumedDigit paused position input =>
    rename_i h digit
    subst paused
    rw [timersAppend]
    have pulse : t.pulse = false := held.pulse
    exact fine ((decodeTimers digit pulse held.recording).mpr fun both => by cases both.1) rfl
  | stillPaused paused =>
    subst paused
    exact fine ⟨held.pulse,held.recording,rfl⟩ rfl
  | cut idle_ playing => exact fine ⟨rfl,held.recording.trans (unprotectedSilent idle_),rfl⟩ rfl
  | kept settled safe same still => exact fine (silencedDisciplined.mpr (behind _ safe same)) rfl
  | released settled safe same ended =>
    have left := behind (silenceBeep s).2 safe same
    refine fine ?_ rfl
    rw [timersAppend]
    exact ⟨rfl,left.recording.trans (unprotectedSilent ended),rfl⟩

theorem stepDisciplined {s : State} {t : Timers} (i : Input) (held : Disciplined (s,t)) :
    Disciplined ((coreStep s i).1,noteTimers t s i) ↔ (i.2 && misdials s i.1) = false := by
  obtain ⟨effects,same,turn⟩ := stepTurn s i
  rw [noteTimers,same,timersAppend,timersLed]
  exact turnDisciplined turn held

/- Over any events and admission flags the timers follow the state after every step exactly
in the runs in which no digit above 9 breaks into a pulse group. -/
theorem timersFollow (inputs : List Input) :
    Machine.Throughout (Machine.observed coreStep noteTimers) Disciplined (idle,⟨false,false⟩)
      inputs ↔
    Machine.EachStep coreStep (fun s i => (i.2 && misdials s i.1) = false) idle inputs := by
  rw [← Machine.observedSteps coreStep noteTimers _ idle (⟨false,false⟩ : Timers)]
  have initial : Disciplined (idle,⟨false,false⟩) := ⟨rfl,rfl,rfl⟩
  refine Machine.throughoutIff _ (fun s i held => ?_) initial inputs
  exact stepDisciplined i held

/- The debug surface may inject any byte for a digit. -/
theorem strayDigitKeepsTimer : ¬ ∀ inputs, Machine.Throughout
    (Machine.observed coreStep noteTimers) Disciplined (idle,⟨false,false⟩) inputs := by
  intro follows
  have stray := follows [(hookOff,true),(rotaryPulse,true),(digitDialed 12,true)]
  revert stray
  simp only [Machine.Throughout]
  decide

end TelephoneBooth
