import TelephoneBooth.AudioPath
import TelephoneBooth.Timers

/-! Which timer a pulse group is closed by. A tick carries nothing, so the timer behind it is
read off the number of effects carried out when it was sent: the last of them that armed or
cancelled the pulse timer is the one that armed it. -/
namespace TelephoneBooth
open State Event Effect Booth

def isArm (emitted : Emitted) : Bool := emitted.effect == armPulseTimeout

def timesPulses : Effect → Bool
  | armPulseTimeout | cancelPulseTimeout => true
  | _ => false

structure ArmedBy (log : List Emitted) (stamp n : Nat) : Prop where
  within : n < stamp
  fits : stamp ≤ log.length
  arms : ∃ emitted ∈ log[n]?, isArm emitted = true
  untouched : ∀ m < stamp, n < m → ∀ emitted ∈ log[m]?, timesPulses emitted.effect = false

structure LastArm (log : List Emitted) (n : Nat) : Prop where
  arms : ∃ emitted ∈ log[n]?, isArm emitted = true
  newest : ∀ m < log.length, n < m → ∀ emitted ∈ log[m]?, isArm emitted = false

instance (log : List Emitted) (stamp n : Nat) : Decidable (ArmedBy log stamp n) :=
  decidable_of_iff (n < stamp ∧ stamp ≤ log.length ∧ (∃ emitted ∈ log[n]?, isArm emitted = true) ∧
      ∀ m < stamp, n < m → ∀ emitted ∈ log[m]?, timesPulses emitted.effect = false)
    ⟨fun armed => ⟨armed.1,armed.2.1,armed.2.2.1,armed.2.2.2⟩,
      fun armed => ⟨armed.within,armed.fits,armed.arms,armed.untouched⟩⟩

instance (log : List Emitted) (n : Nat) : Decidable (LastArm log n) :=
  decidable_of_iff ((∃ emitted ∈ log[n]?, isArm emitted = true) ∧
      ∀ m < log.length, n < m → ∀ emitted ∈ log[m]?, isArm emitted = false)
    ⟨fun last => ⟨last.1,last.2⟩,fun last => ⟨last.arms,last.newest⟩⟩

def OwnTimeout (log : List Emitted) (stamp : Nat) : Prop :=
  ∃ n < log.length, ArmedBy log stamp n ∧ LastArm log n

instance (log : List Emitted) (stamp : Nat) : Decidable (OwnTimeout log stamp) :=
  inferInstanceAs (Decidable (∃ n < log.length, _))

def State.takesPulse : State → Bool
  | dialTone | callsPaused false => true
  | dialing pulses => decide (¬ saturatingAdd pulses 1 > maxPulsesPerDigit)
  | _ => false

def countsPulse (s : State) (i : Input) : Bool := decide (i.1 = rotaryPulse) && i.2 && s.takesPulse

def closesGroup (s : State) (i : Input) : Bool := decide (i.1 = tick) && i.2 && s.isDialing

def ClosedByOwn (rt : Booth) (label : Label) (_ : Booth) : Prop :=
  match label with
  | .handle => ∀ sent ∈ rt.events.head?,
    closesGroup rt.state (sent.event,rt.accepting) = true → OwnTimeout rt.effects.log sent.stamp
  | .reconcile => closesGroup rt.state (tick,rt.accepting) = false
  | _ => True

/- No installation change is handled inside a group, no tick is queued when a pulse is
counted, and the timer does not run out while it waits to be armed again. -/
def TimelyPulses (rt : Booth) (label : Label) (_ : Booth) : Prop :=
  match label with
  | .handle => ∀ sent ∈ rt.events.head?, countsPulse rt.state (sent.event,rt.accepting) = true →
    ∀ other ∈ rt.events.tail, other.event ≠ tick
  | .reconcile => closesGroup rt.state (tick,rt.accepting) = false
  | .pulseTimeout => rt.effects.pending isArm = []
  | _ => True

instance (rt : Booth) (label : Label) (after : Booth) : Decidable (ClosedByOwn rt label after) := by
  unfold ClosedByOwn
  split <;> infer_instance

instance (rt : Booth) (label : Label) (after : Booth) : Decidable (TimelyPulses rt label after) := by
  unfold TimelyPulses
  split <;> infer_instance

theorem armPulses {s e s' effects} (arm : Arm s e s' effects) (mem : armPulseTimeout ∈ effects) :
    e = rotaryPulse ∧ s.takesPulse = true := by
  cases arm
  case firstPulse => exact ⟨rfl,rfl⟩
  case nextPulse pulses fits => exact ⟨rfl,decide_eq_true fits⟩
  case power effect button => rcases button with ⟨_,rfl⟩ | ⟨_,rfl⟩ <;> simp at mem
  case rest rests => cases rests <;> simp at mem
  case fail fails => cases fails <;> simp at mem
  case dial digit dials =>
    unfold decodeDigit at mem
    repeat' split at mem
    all_goals simp at mem
  all_goals simp at mem

theorem settlePulse {s : State} {e : Event} (settled : settle s e = some rotaryPulse) :
    e = rotaryPulse := by
  refine settledSame settled ?_
  intro outcome same
  cases outcome <;> cases same

theorem protectedPulse {s : State} (safe : s.isProtected = true) :
    (silenceBeep s).1.takesPulse = false := by
  cases s with
  | uploadingTimedOut r q pending => cases pending <;> rfl
  | recording | finishingRecording | finishingTimedOutRecording | uploading => rfl
  | _ => cases safe

theorem pausedPulses {s e n effects} {pending : Bool} {back : List Effect}
    (safe : s.isProtected = true) (same : handleInner (silenceBeep s).1 e = (n,effects))
    (others : armPulseTimeout ∉ back) :
    armPulseTimeout ∉ stopIf pending ++ suppress effects ++ back := by
  intro mem
  rcases List.mem_append.mp mem with front | behind
  · rcases List.mem_append.mp front with stops | kept
    · cases pending
      · cases stops
      · cases List.mem_singleton.mp stops
    · have takes := (armPulses (innerArm same) (List.mem_of_mem_filter kept)).2
      rw [protectedPulse safe] at takes
      cases takes
  · exact others behind

theorem turnPulses {s e accepting s' effects} (turn : Turn s e accepting s' effects)
    (mem : armPulseTimeout ∈ effects) : countsPulse s (e,accepting) = true := by
  cases turn with
  | stale | stillPaused => cases mem
  | inner settled open_ same =>
    obtain ⟨rfl,takes⟩ := armPulses (innerArm same) mem
    obtain rfl := settlePulse settled
    have admitted : accepting = true := by
      rcases open_ with button | ⟨rfl,_⟩
      · rcases button with button | button <;> cases button
      · rfl
    simp [countsPulse,admitted,takes]
  | resumedIdle | resumedTone | cut => simp at mem
  | resumedPulse paused position input =>
    rename_i h
    subst paused input
    obtain rfl : h = false := position
    rfl
  | resumedDigit paused position input =>
    simp only [List.mem_append,List.mem_cons] at mem
    unfold decodeDigit at mem
    repeat' split at mem
    all_goals simp at mem
  | kept settled safe same still =>
    rw [← List.append_nil (stopIf _ ++ _)] at mem
    exact absurd mem (pausedPulses safe same List.not_mem_nil)
  | released settled safe same ended => exact absurd mem (pausedPulses safe same (by simp))

theorem stepPulses {s : State} {i : Input} (mem : armPulseTimeout ∈ (coreStep s i).2) :
    countsPulse s i = true := by
  obtain ⟨effects,same,turn⟩ := stepTurn s i
  rw [same] at mem
  rcases List.mem_append.mp mem with led | mem
  · obtain ⟨_,_,same⟩ := ledChangeMem led
    cases same
  · exact turnPulses turn mem

def Tickless (notices : List Notice) : Prop := ∀ notice ∈ notices, notice.event ≠ tick

theorem ticklessNone : Tickless [] := fun _ mem => absurd mem List.not_mem_nil

theorem ticklessOne {notice : Notice} (other : notice.event ≠ tick) : Tickless [notice] := by
  intro any mem
  rw [List.mem_singleton.mp mem]
  exact other

theorem Outcomes.tickless {notices : List Notice} (outcomes : Outcomes notices) :
    Tickless notices := by
  intro notice mem same
  obtain ⟨id,outcome,rfl⟩ := outcomes notice mem
  cases same

theorem outsideTickless {event : Event} (outside : fromOutside event = true) :
    Tickless [{ event }] := by
  refine ticklessOne fun same => ?_
  rw [show event = tick from same] at outside
  cases outside

theorem fetchTickless {f f' : Fetcher} {task : FetchTask} {notices : List Notice}
    (step : FetchStep f task f' notices) : Tickless notices := by
  cases step with
  | advance | check | store => exact ticklessNone
  | announce answer checked => cases task.kind <;> exact ticklessOne (by intro same; cases same)
  | fail reason => cases task.kind <;> exact ticklessOne (by intro same; cases same)

theorem stopTickless {r r' : Recorder} {number : Nat} {reply : StopReply} {notices : List Notice}
    (done : r.stop number reply = some (r',notices)) : Tickless notices := by
  rcases stopReports done with ⟨_,_,_,_,rfl⟩ | ⟨_,_,rfl⟩ <;>
    exact ticklessOne (by intro same; cases same)

theorem speakerTickless {s s' : Speaker} {label : SpeakerLabel} {notices : List Notice}
    (done : s.step label = some (s',notices)) : Tickless notices := by
  unfold Speaker.step at done
  repeat' split at done
  all_goals cases done
  · exact ticklessNone
  · exact ticklessOne (by intro same; cases same)
  · exact ticklessNone

def timed : Effect → Bool → Bool
  | armPulseTimeout, _ => true
  | cancelPulseTimeout, _ => false
  | _, armed => armed

structure PulseStill (rt rt' : Booth) : Prop where
  events : rt'.events = rt.events
  effects : rt'.effects = rt.effects
  timer : rt'.pulseTimeout = rt.pulseTimeout

inductive PulseStep (rt : Booth) : Label → Booth → Prop where
  | still {label} {mid : Booth} {notices} (still : PulseStill rt mid) (tickless : Tickless notices) :
      PulseStep rt label (mid.send notices)
  | carry {reply number emitted effects} {mid : Booth} {notices}
      (received : rt.effects.receive = some ((number,emitted),effects))
      (events : mid.events = rt.events) (after : mid.effects = effects)
      (timer : mid.pulseTimeout = timed emitted.effect rt.pulseTimeout)
      (tickless : Tickless notices) : PulseStep rt (.take reply) (mid.send notices)
  | fire (armed : rt.pulseTimeout = true) : PulseStep rt .pulseTimeout
      ({ rt with pulseTimeout := false }.send [{ event := tick }])

theorem pulseSilent {rt rt' : Booth} {label : Label} (still : PulseStill rt rt') :
    PulseStep rt label rt' := by
  have quiet : PulseStep rt label (rt'.send []) := .still still ticklessNone
  rwa [sendNone] at quiet

theorem executePulse {rt rt' : Booth} {number : Nat} {effect : Effect} {reply : InlineReply}
    (done : Executes rt number reply effect rt') :
    ∃ (mid : Booth) (notices : List Notice), rt' = mid.send notices ∧ mid.events = rt.events ∧
      mid.effects = rt.effects ∧
      mid.pulseTimeout = timed effect rt.pulseTimeout ∧ Tickless notices := by
  cases done with
  | startRecording =>
    refine ⟨_,_,rfl,rfl,rfl,rfl,?_⟩
    intro notice mem same
    obtain ⟨reason,_,rfl⟩ := startReports mem
    cases same
  | stopRecording stopped => exact ⟨_,_,rfl,rfl,rfl,rfl,stopTickless stopped⟩
  | uploadRecording recordingId questionId =>
    exact ⟨_,_,rfl,rfl,rfl,rfl,(acceptOutcomes _ _ _ _ _ _).tickless⟩
  | fetch fetches =>
    have timer : rt.pulseTimeout = timed effect rt.pulseTimeout := by
      cases effect <;> first | rfl | cases fetches
    exact ⟨_,[],(sendNone _).symm,rfl,rfl,timer,ticklessNone⟩
  | outward silent =>
    have timer : rt.pulseTimeout = timed effect rt.pulseTimeout := by
      cases effect <;> first | rfl | cases silent
    exact ⟨_,[],(sendNone _).symm,rfl,rfl,timer,ticklessNone⟩
  | play | stopAudio | armRecordingTimeout | cancelRecordingTimeout | armPulseTimeout
  | cancelPulseTimeout => exact ⟨_,[],(sendNone _).symm,rfl,rfl,rfl,ticklessNone⟩

theorem operatorUntimed {effect : Effect} (operator : isOperatorEffect effect = true)
    (armed : Bool) : timed effect armed = armed := by
  cases effect <;> first
    | rfl
    | cases operator

theorem pulseStepCases {rt rt' : Booth} {label : Label} (step : BoothStep rt label rt')
    (quiet : isQuiet label = true) (running : rt'.phase = .running) : PulseStep rt label rt' := by
  have started := quietRunning step quiet running
  cases step with
  | handle | reconcile | restart => cases quiet
  | sense outside => exact .still ⟨rfl,rfl,rfl⟩ (outsideTickless outside)
  | skip received stopping => exact absurd started stopping
  | forget waiting stopping => exact absurd started stopping
  | cancelFetch stopping => exact absurd started stopping
  | cancelUpload stopping => exact absurd started stopping
  | defer received operator =>
    rename_i reply number emitted effects
    have carried : PulseStep rt (.take reply) (Booth.send { rt with
        effects
        pendingOperatorEffects := rt.pendingOperatorEffects ++ [⟨number,emitted,operator⟩] } []) :=
      .carry received rfl rfl (operatorUntimed operator _).symm ticklessNone
    rwa [sendNone] at carried
  | execute received live done =>
    obtain ⟨mid,notices,rfl,events,effects,timer,tickless⟩ := executePulse done
    exact .carry received events effects timer tickless
  | resume waiting live done =>
    rename_i reply next rest
    obtain ⟨mid,notices,rfl,events,effects,timer,tickless⟩ := executePulse done
    rw [operatorUntimed next.operator] at timer
    exact .still ⟨events,effects,timer⟩ tickless
  | fetch done =>
    obtain ⟨task,_,moves⟩ := fetchStepCases done
    exact .still ⟨rfl,rfl,rfl⟩ (fetchTickless moves)
  | upload done => exact .still ⟨rfl,rfl,rfl⟩ (uploadOutcomes done).tickless
  | pulseTimeout armed => exact .fire armed
  | recordingTimeout done =>
    obtain ⟨_,_,_,rfl⟩ := fireReports done
    exact .still ⟨rfl,rfl,rfl⟩ (ticklessOne (by intro same; cases same))
  | speaker done => exact .still ⟨rfl,rfl,rfl⟩ (speakerTickless done)
  | shutdown done => cases shutdownCases done <;> cases running
  | gate | spawn | joinFetch | joinUpload | enqueued | dequeued | replay =>
    exact pulseSilent ⟨rfl,rfl,rfl⟩

theorem timedCases {effect : Effect} {armed : Bool} (timer : timed effect armed = true) :
    effect = armPulseTimeout ∨ timesPulses effect = false ∧ armed = true := by
  cases effect with
  | armPulseTimeout => exact .inl rfl
  | cancelPulseTimeout => cases timer
  | _ => exact .inr ⟨rfl,timer⟩

theorem armTimes {emitted : Emitted} (arms : isArm emitted = true) :
    timesPulses emitted.effect = true := by
  rw [show emitted.effect = armPulseTimeout from eq_of_beq arms]
  rfl

theorem armedSent {log : List Emitted} {stamp n : Nat} (armed : ArmedBy log stamp n)
    (more : List Emitted) : ArmedBy (log ++ more) stamp n := by
  obtain ⟨within,fits,⟨emitted,found,arms⟩,untouched⟩ := armed
  refine ⟨within,?_,⟨emitted,?_,arms⟩,?_⟩
  · rw [List.length_append]
    omega
  · rw [List.getElem?_append_left (by omega)]
    exact found
  · intro m before after other found
    rw [List.getElem?_append_left (by omega)] at found
    exact untouched m before after other found

theorem lastSent {log more : List Emitted} {n : Nat} (last : LastArm log n)
    (others : ∀ emitted ∈ more, isArm emitted = false) : LastArm (log ++ more) n := by
  obtain ⟨⟨emitted,found,arms⟩,newest⟩ := last
  have within : n < log.length := (List.getElem?_eq_some_iff.mp found).1
  refine ⟨⟨emitted,?_,arms⟩,?_⟩
  · rw [List.getElem?_append_left within]
    exact found
  · intro m _ after other found
    rcases Nat.lt_or_ge m log.length with old | new
    · rw [List.getElem?_append_left old] at found
      exact newest m old after other found
    · rw [List.getElem?_append_right new] at found
      exact others other (List.mem_of_getElem? found)

theorem armedCarried {c c' : Channel Emitted} {number : Nat} {emitted : Emitted}
    (received : c.receive = some ((number,emitted),c')) {armed : Bool}
    (behind : armed = true → ∃ n, ArmedBy c.log c.taken n)
    (timer : timed emitted.effect armed = true) : ∃ n, ArmedBy c'.log c'.taken n := by
  obtain ⟨rfl,found,log,taken⟩ := Channel.receiveCases received
  have inside := Channel.takenFits found
  rw [log,taken]
  rcases timedCases timer with arms | ⟨other,rfl⟩
  · refine ⟨c.taken,Nat.lt_succ_self _,inside,⟨emitted,found,by simp [isArm,arms]⟩,?_⟩
    intro m before after
    omega
  · obtain ⟨n,within,_,arms,untouched⟩ := behind rfl
    refine ⟨n,Nat.lt_succ_of_lt within,inside,arms,?_⟩
    intro m before after later there
    rcases Nat.lt_or_ge m c.taken with old | new
    · exact untouched m old after later there
    · obtain rfl : m = c.taken := by omega
      rw [← Option.some.inj (found.symm.trans there)]
      exact other

theorem armedLast {c : Channel Emitted} {n : Nat} (armed : ArmedBy c.log c.taken n)
    (none_ : c.pending isArm = []) : LastArm c.log n := by
  refine ⟨armed.arms,?_⟩
  intro m _ after emitted found
  by_contra arms
  rw [Bool.not_eq_false] at arms
  rcases Nat.lt_or_ge m c.taken with carried | waits
  · have other := armed.untouched m carried after emitted found
    rw [armTimes arms] at other
    cases other
  · have mem : m ∈ c.pending isArm := Channel.pendingMem.mpr ⟨emitted,⟨waits,found⟩,arms⟩
    rw [none_] at mem
    cases mem

structure PulseInvariant (rt : Booth) : Prop where
  armed : rt.phase = .running → rt.pulseTimeout = true →
    ∃ n, ArmedBy rt.effects.log rt.effects.taken n
  ticks : rt.phase = .running → ∀ sent ∈ rt.events, sent.event = tick →
    OwnTimeout rt.effects.log sent.stamp

theorem ticklessSend {rt : Booth} {notices : List Notice} (tickless : Tickless notices) {sent : Sent}
    (mem : sent ∈ (rt.send notices).events) (ticks : sent.event = tick) : sent ∈ rt.events := by
  rcases sendEvents mem with old | ⟨notice,new,rfl⟩
  · exact old
  · exact absurd ticks (tickless notice new)

@[simp] theorem sendPulseTimeout (rt : Booth) (notices : List Notice) :
    (rt.send notices).pulseTimeout = rt.pulseTimeout := by
  unfold send
  split <;> rfl

theorem quietPulse {rt rt' : Booth} {label : Label} (held : PulseInvariant rt)
    (step : PulseStep rt label rt') (timely : TimelyPulses rt label rt')
    (running : rt.phase = .running) : PulseInvariant rt' := by
  cases step with
  | still still tickless =>
    obtain ⟨events,effects,timer⟩ := still
    constructor
    · intro _ armed
      rw [sendPulseTimeout,timer] at armed
      rw [sendEffects,effects]
      exact held.armed running armed
    · intro _ sent mem ticks
      rw [sendEffects,effects]
      exact held.ticks running sent (events ▸ ticklessSend tickless mem ticks) ticks
  | carry received events after timer tickless =>
    obtain ⟨_,_,log,_⟩ := Channel.receiveCases received
    constructor
    · intro _ armed
      rw [sendPulseTimeout,timer] at armed
      rw [sendEffects,after]
      exact armedCarried received (held.armed running) armed
    · intro _ sent mem ticks
      rw [sendEffects,after,log]
      exact held.ticks running sent (events ▸ ticklessSend tickless mem ticks) ticks
  | fire armed =>
    obtain ⟨n,behind⟩ := held.armed running armed
    constructor
    · intro _ armed
      rw [sendPulseTimeout] at armed
      cases armed
    · intro _ sent mem ticks
      rw [sendEffects]
      rcases sendEvents mem with old | ⟨notice,new,rfl⟩
      · exact held.ticks running sent old ticks
      · exact ⟨n,Nat.lt_of_lt_of_le behind.within behind.fits,behind,armedLast behind timely⟩

theorem handlePulse {rt : Booth} {event : Event} {origin : Option Nat} (held : PulseInvariant rt)
    (fresh : countsPulse rt.state (event,rt.accepting) = true →
      ∀ sent ∈ rt.events, sent.event ≠ tick) : PulseInvariant (rt.handleEvent event origin) := by
  have log : (rt.handleEvent event origin).effects.log = rt.effects.log ++ emits rt event origin :=
    rfl
  constructor
  · intro running armed
    obtain ⟨n,behind⟩ := held.armed running armed
    rw [log]
    exact ⟨n,armedSent behind _⟩
  · intro running sent mem ticks
    obtain ⟨n,inside,behind,last⟩ := held.ticks running sent mem ticks
    rw [log]
    refine ⟨n,?_,armedSent behind _,lastSent last fun emitted new => ?_⟩
    · rw [List.length_append]
      omega
    obtain ⟨effect,emitted_,rfl⟩ := List.mem_map.mp new
    by_contra arms
    obtain rfl : effect = armPulseTimeout := eq_of_beq (by simpa [isArm] using arms)
    exact fresh (stepPulses emitted_) sent mem ticks

theorem restPulse (minRecordingMs : Nat) (dir : String) (accepting onHook : Bool) (spool : Spool) :
    PulseInvariant (atRest minRecordingMs dir accepting onHook spool) :=
  ⟨(by intro _ armed; cases armed),(by intro _ _ mem; cases mem)⟩

theorem bootPulse (minRecordingMs : Nat) (dir : String) (accepting onHook : Bool) (spool : Spool) :
    PulseInvariant (boot minRecordingMs dir accepting onHook spool) := by
  refine bootInvariant (restPulse _ _ _ _ _) (handlePulse (restPulse _ _ _ _ _) ?_)
  intro counts
  simp [countsPulse] at counts

theorem stepPulseGroups {rt rt' : Booth} {label : Label} (step : rt.step label = some rt')
    (held : PulseInvariant rt) (timely : TimelyPulses rt label rt') :
    PulseInvariant rt' ∧ ClosedByOwn rt label rt' := by
  have cases_ := stepCases step
  cases quiet : isQuiet label with
  | true =>
    refine ⟨?_,by cases label <;> trivial⟩
    by_cases running : rt'.phase = .running
    · exact quietPulse held (pulseStepCases cases_ quiet running) timely
        (quietRunning cases_ quiet running)
    · exact ⟨fun there => absurd there running,fun there => absurd there running⟩
  | false =>
    cases cases_ with
    | handle running next =>
      rename_i sent rest
      have kept : PulseInvariant { rt with events := rest } :=
        ⟨held.armed,fun there other mem =>
          held.ticks there other (next ▸ List.mem_cons_of_mem _ mem)⟩
      simp only [TimelyPulses,ClosedByOwn,next,List.head?_cons,List.tail_cons] at timely ⊢
      refine ⟨handlePulse kept (timely sent rfl),?_⟩
      rintro first ⟨⟩ closes
      refine held.ticks running sent (next ▸ List.mem_cons_self) ?_
      simp only [closesGroup,Bool.and_eq_true,decide_eq_true_eq] at closes
      exact closes.1.1
    | reconcile running =>
      refine ⟨handlePulse ⟨held.armed,held.ticks⟩ fun counts => ?_,timely⟩
      simp [countsPulse] at counts
    | restart accepting onHook => exact ⟨bootPulse _ _ _ _ _,trivial⟩
    | _ => cases quiet

/- In a run in which no installation change is handled inside a group, no tick waits when a
pulse is counted and the timer keeps pace, every group is closed by its own timeout. -/
theorem groupsCloseThemselves (minRecordingMs : Nat) (recordingsDir : String)
    (accepting onHook : Bool) (entries : List SpoolEntry) (labels : List Label)
    (timely : Transition.Along Booth.step TimelyPulses
      (boot minRecordingMs recordingsDir accepting onHook (.opened entries)) labels) :
    Transition.Along Booth.step ClosedByOwn
      (boot minRecordingMs recordingsDir accepting onHook (.opened entries)) labels :=
  Transition.along Booth.step PulseInvariant (fun _ _ _ => stepPulseGroups) (bootPulse _ _ _ _ _)
    timely

def dialOnePulse : List Label :=
  [.sense hookOff,.handle,.sense rotaryPulse,.handle,.take {},.take {},.take {},.take {},.take {},
    .pulseTimeout,.handle]

theorem onePulseCloses : Transition.Along Booth.step ClosedByOwn
    (boot 1000 "recordings" true true (.opened [])) dialOnePulse :=
  groupsCloseThemselves 1000 "recordings" true true [] _ (by decide)

/- The gate closes and reopens; the caller's next pulse is handled before the reopening is. -/
theorem reopeningDialsOne : ¬ ∀ labels, Transition.Along Booth.step ClosedByOwn
    (boot 1000 "recordings" true true (.opened [])) labels := by
  intro closed
  have cut := closed [.sense hookOff,.handle,.gate false true,.reconcile,.gate true false,
    .sense rotaryPulse,.handle,.reconcile]
  revert cut
  decide

/- A tick that is queued behind the second pulse cuts the group short as well. -/
example : ¬ Transition.Along Booth.step ClosedByOwn
    (boot 1000 "recordings" true true (.opened [])) [.sense hookOff,.handle,.sense rotaryPulse,
      .handle,.take {},.take {},.take {},.take {},.take {},.sense rotaryPulse,.pulseTimeout,.handle,
      .handle] := by
  decide

end TelephoneBooth
