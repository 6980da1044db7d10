import TelephoneBooth.Runtime
import TelephoneBooth.Transition

/-! The three bounded channels of the runtime, and who waits for room in which. The core
sends effects to `effect_task`, that sends commands to `audio_task`, and both send events back
to the core. -/
namespace TelephoneBooth
open State Event Effect

def eventChannel : Nat := 256
def effectChannel : Nat := 256
def audioChannel : Nat := 32

inductive QueuedCommand where
  | play (source : AudioRef)
  | stop
  deriving DecidableEq

/- `working` awaits an adapter, `reporting` room in the event channel, `commanding` room in
the audio channel. -/
inductive Dispatcher where
  | idle
  | working (effect : Effect)
  | reporting (event : Event)
  | commanding (command : QueuedCommand)
  deriving DecidableEq

/- `core` holds the effects of the event being handled that are still to be sent, `aside` the
operator effects put aside; `ending` says that `audio_task` waits to report the end of a clip. -/
structure Queues where
  state : State
  core : List Effect
  events : List Event
  effects : List Effect
  dispatcher : Dispatcher
  aside : List Effect
  commands : List QueuedCommand
  playing : Bool
  ending : Bool
  deriving DecidableEq

inductive QueueLabel where
  | arrive (event : Event)
  | receive (accepting : Bool)
  | inject (event : Event) (accepting : Bool)
  | send
  | take
  | defer
  | resume
  | work (report : Option Event)
  | report
  | command
  | obey (accepted : Bool)
  | ended (natural : Bool)
  | reportEnd

def reportedInline : Event → Bool
  | .recordingFinished _ | .recordingFailed _ | .playbackEnded => true
  | _ => false

def mayReport : Effect → Option Event → Bool
  | startRecording, none | startRecording, some (.recordingFailed _) => true
  | stopRecording, some (.recordingFinished _) | stopRecording, some (.recordingFailed _) => true
  | uploadRecording _ _, none => true
  | uploadRecording r _, some (.uploadFinished id _) => decide (id = r)
  | startRecording, some _ | stopRecording, _ | uploadRecording _ _, some _ => false
  | _, report => report.isNone

namespace Queues

def handle (b : Queues) (event : Event) (accepting : Bool) : Queues :=
  let (state,effects) := coreStep b.state (event,accepting)
  { b with state, core := effects }

def boot (accepting onHook : Bool) : Queues :=
  let b : Queues :=
    ⟨if accepting then idle else callsPaused onHook,[],[],[],.idle,[],[],false,false⟩
  if accepting && !onHook then b.handle hookOff accepting else b

def carryOut (b : Queues) (effect : Effect) (report : Option Event) : Option Queues :=
  match effect, report with
  | play source, none => some { b with dispatcher := .commanding (.play source) }
  | stopAudio, none => some { b with dispatcher := .commanding .stop }
  | effect, report =>
    if mayReport effect report then
      match report with
      | none => some { b with dispatcher := .idle }
      | some event =>
        if b.events.length < eventChannel then
          some { b with dispatcher := .idle, events := b.events ++ [event] }
        else some { b with dispatcher := .reporting event }
    else none

def step (b : Queues) : QueueLabel → Option Queues
  | .arrive event =>
    if reportedInline event = false ∧ b.events.length < eventChannel then
      some { b with events := b.events ++ [event] }
    else none
  | .receive accepting =>
    match b.core, b.events with
    | [], event :: rest => some ({ b with events := rest }.handle event accepting)
    | _, _ => none
  | .inject event accepting =>
    match b.core with
    | [] => some (b.handle event accepting)
    | _ => none
  | .send =>
    match b.core with
    | effect :: rest =>
      if b.effects.length < effectChannel then
        some { b with core := rest, effects := b.effects ++ [effect] }
      else none
    | [] => none
  | .take =>
    match b.dispatcher, b.effects with
    | .idle, effect :: rest => some { b with effects := rest, dispatcher := .working effect }
    | _, _ => none
  | .defer =>
    match b.dispatcher, b.effects with
    | .idle, effect :: rest =>
      if isOperatorEffect effect then
        some { b with effects := rest, aside := b.aside ++ [effect] }
      else none
    | _, _ => none
  | .resume =>
    match b.dispatcher, b.aside with
    | .idle, effect :: rest => some { b with aside := rest, dispatcher := .working effect }
    | _, _ => none
  | .work report =>
    match b.dispatcher with
    | .working effect => b.carryOut effect report
    | _ => none
  | .report =>
    match b.dispatcher with
    | .reporting event =>
      if b.events.length < eventChannel then
        some { b with dispatcher := .idle, events := b.events ++ [event] }
      else none
    | _ => none
  | .command =>
    match b.dispatcher with
    | .commanding command =>
      if b.commands.length < audioChannel then
        some { b with dispatcher := .idle, commands := b.commands ++ [command] }
      else none
    | _ => none
  | .obey accepted =>
    match b.ending, b.commands with
    | false, command :: rest =>
      let playing := match command with
        | .play source => accepted && (b.playing || !source.endless)
        | .stop => false
      some { b with commands := rest, playing }
    | _, _ => none
  | .ended natural =>
    if b.playing && !b.ending then
      if natural then
        if b.events.length < eventChannel then
          some { b with playing := false, events := b.events ++ [playbackEnded] }
        else some { b with playing := false, ending := true }
      else some { b with playing := false }
    else none
  | .reportEnd =>
    if b.ending ∧ b.events.length < eventChannel then
      some { b with ending := false, events := b.events ++ [playbackEnded] }
    else none

end Queues

def Dispatcher.reports : Dispatcher → Bool
  | .reporting _ => true
  | _ => false

def Dispatcher.commands : Dispatcher → Bool
  | .commanding _ => true
  | _ => false

/-- The core waits for room in the effect channel, and `effect_task` waits, itself or through
`audio_task`, for room in the event channel that only the core can make. -/
def Deadlocked (b : Queues) : Prop :=
  b.core ≠ [] ∧ b.effects.length = effectChannel ∧ b.events.length = eventChannel ∧
    (b.dispatcher.reports = true ∨
      b.dispatcher.commands = true ∧ b.commands.length = audioChannel ∧ b.ending = true)

instance (b : Queues) : Decidable (Deadlocked b) := inferInstanceAs (Decidable (_ ∧ _))

def StaysLive (_ : Queues) (_ : QueueLabel) (after : Queues) : Prop := ¬ Deadlocked after

def Queues.waits (b : Queues) : Bool := b.dispatcher.reports || b.ending

def Queues.fits (b : Queues) : Prop := b.core.length + b.effects.length ≤ effectChannel

/- A task comes to wait for the event channel only while the core has room for all the
effects of its event, and meanwhile the core takes only events whose effects find room. -/
def RoomForEffects (b : Queues) (label : QueueLabel) (after : Queues) : Prop :=
  match label with
  | .receive _ | .inject _ _ => b.waits = true → after.fits
  | .work _ | .ended _ => after.waits = true → b.waits = true ∨ b.fits
  | _ => True

instance (b : Queues) : Decidable b.fits := inferInstanceAs (Decidable (_ ≤ _))

instance (b : Queues) (label : QueueLabel) (after : Queues) :
    Decidable (RoomForEffects b label after) := by
  unfold RoomForEffects
  split <;> infer_instance

structure QueueInvariant (b : Queues) : Prop where
  room : b.waits = true → b.fits

theorem roomLive {b : Queues} (held : QueueInvariant b) : ¬ Deadlocked b := by
  rintro ⟨busy,full,_,cycle⟩
  have waits : b.waits = true := by
    unfold Queues.waits
    rcases cycle with reports | ⟨_,_,ending⟩
    · simp [reports]
    · simp [ending]
  have fits := held.room waits
  have some_ : 0 < b.core.length := List.length_pos_iff.mpr busy
  unfold Queues.fits at fits
  omega

theorem roomKept {b b' : Queues} (held : QueueInvariant b) (waits : b'.waits = true → b.waits = true)
    (room : b'.core.length + b'.effects.length ≤ b.core.length + b.effects.length) :
    QueueInvariant b' :=
  ⟨fun waiting => Nat.le_trans room (held.room (waits waiting))⟩

theorem roomJoined {b b' : Queues} (held : QueueInvariant b)
    (joins : b'.waits = true → b.waits = true ∨ b.fits) (core : b'.core = b.core)
    (effects : b'.effects = b.effects) : QueueInvariant b' := by
  constructor
  intro waiting
  unfold Queues.fits
  rw [core,effects]
  exact (joins waiting).elim held.room id

theorem waitsIdle {b : Queues} {dispatcher : Dispatcher} (silent : dispatcher.reports = false)
    (waiting : ({ b with dispatcher } : Queues).waits = true) : b.waits = true := by
  have ending : b.ending = true := by simpa [Queues.waits,silent] using waiting
  simp [Queues.waits,ending]

theorem carryRoom {b b' : Queues} {effect : Effect} {report : Option Event}
    (done : b.carryOut effect report = some b') : b'.core = b.core ∧ b'.effects = b.effects := by
  unfold Queues.carryOut at done
  repeat' split at done
  all_goals cases done
  all_goals exact ⟨rfl,rfl⟩

theorem stepRoom {b b' : Queues} {label : QueueLabel} (taken : b.step label = some b')
    (held : QueueInvariant b) (room : RoomForEffects b label b') : QueueInvariant b' := by
  cases label with
  | arrive event =>
    simp only [Queues.step] at taken
    split at taken <;> cases taken
    exact roomKept held id (Nat.le_refl _)
  | receive accepting | inject event accepting =>
    simp only [Queues.step] at taken
    split at taken <;> cases taken
    exact ⟨room⟩
  | send =>
    simp only [Queues.step] at taken
    split at taken
    · rename_i effect rest core
      split at taken <;> cases taken
      refine roomKept held id ?_
      simp only [core,List.length_cons,List.length_append,List.length_nil]
      omega
    · cases taken
  | take =>
    simp only [Queues.step] at taken
    split at taken <;> cases taken
    rename_i effect rest idle_ effects
    refine roomKept held (fun waiting => @waitsIdle b (.working effect) rfl waiting) ?_
    simp only [effects,List.length_cons]
    omega
  | defer =>
    simp only [Queues.step] at taken
    split at taken
    · rename_i effect rest idle_ effects
      split at taken <;> cases taken
      refine roomKept held id ?_
      simp only [effects,List.length_cons]
      omega
    · cases taken
  | resume =>
    simp only [Queues.step] at taken
    split at taken <;> cases taken
    rename_i effect rest idle_ aside
    exact roomKept held (fun waiting => @waitsIdle b (.working effect) rfl waiting)
      (Nat.le_refl _)
  | work report =>
    simp only [Queues.step] at taken
    split at taken
    · obtain ⟨core,effects⟩ := carryRoom taken
      exact roomJoined held room core effects
    · cases taken
  | report | command =>
    simp only [Queues.step] at taken
    split at taken
    · split at taken <;> cases taken
      exact roomKept held (fun waiting => @waitsIdle b .idle rfl waiting)
        (Nat.le_refl _)
    · cases taken
  | obey accepted =>
    simp only [Queues.step] at taken
    split at taken <;> cases taken
    exact roomKept held id (Nat.le_refl _)
  | ended natural =>
    simp only [Queues.step] at taken
    repeat' split at taken
    all_goals cases taken
    all_goals exact roomJoined held room rfl rfl
  | reportEnd =>
    simp only [Queues.step] at taken
    split at taken <;> cases taken
    refine roomKept held (fun waiting => ?_) (Nat.le_refl _)
    have reports : b.dispatcher.reports = true := by simpa [Queues.waits] using waiting
    simp [Queues.waits,reports]

theorem bootRoom (accepting onHook : Bool) : QueueInvariant (.boot accepting onHook) := by
  constructor
  intro waiting
  unfold Queues.boot at waiting
  dsimp only at waiting
  split at waiting <;> cases waiting

/- Where a task comes to wait for the event channel only beside a core that has room for its
effects, and the core keeps that room meanwhile, no cycle of waits closes. -/
theorem roomStaysLive (accepting onHook : Bool) (labels : List QueueLabel)
    (room : Transition.Along Queues.step RoomForEffects (.boot accepting onHook) labels) :
    Transition.Along Queues.step StaysLive (.boot accepting onHook) labels :=
  Transition.along Queues.step QueueInvariant
    (fun _ _ _ taken held allowed =>
      have kept := stepRoom taken held allowed
      ⟨kept,roomLive kept⟩)
    (bootRoom accepting onHook) room

def carried : Effect → List QueueLabel
  | play _ | stopAudio => [.send,.take,.work none,.command,.obey true]
  | _ => [.send,.take,.work none]

def served (state : State) (event : Event) : List QueueLabel :=
  .receive true :: (coreStep state (event,true)).2.flatMap carried

def hangUpStarting : List QueueLabel :=
  .arrive hookOff :: served idle hookOff ++
  .arrive (digitDialed 1) :: served dialTone (digitDialed 1) ++
  .arrive (questionReady "q") :: served dialTone (questionReady "q") ++
  .ended true :: served (ringingQuestion "q") playbackEnded ++
  .ended true :: served (playingQuestion "q") playbackEnded ++
  [.ended true,.receive true,.send,.take,.send,.send,
    .arrive hookOn,.receive true,.send,.send,.send,.send,.send,.send]

/- The caller hangs up while the recorder still starts, the hook bounces 128 times, and the recorder
fails: `effect_task` waits for the full event channel while the core takes a bounce and has effects
to send for it. -/
def failBehindBounces : List QueueLabel :=
  hangUpStarting ++ (List.replicate 128 [.arrive hookOff,.arrive hookOn]).flatten ++
    [.work (some (recordingFailed "no device")),.receive true,.receive true]

theorem failureStaysLive :
    (Transition.final Queues.step (.boot true true) failBehindBounces).map
      (fun b => (b.dispatcher.reports,b.core.length,b.effects.length)) = some (true,2,8) ∧
    Transition.Along Queues.step StaysLive (.boot true true)
      (failBehindBounces ++ [.report,.send,.send]) :=
  ⟨by decide +kernel,roomStaysLive true true _ (by decide +kernel)⟩

def bounce : List QueueLabel :=
  [.arrive hookOff,.receive true,.arrive hookOn,.receive true,.send,.send]

def starting (effects : List Effect) (core : List Effect) (events : List Event) : Queues :=
  ⟨finishingRecording "q" true,core,events,effects,.working startRecording,[],[],false,false⟩

theorem hangUpStarts : ∃ effects, effects.length = 8 ∧
    Transition.final Queues.step (.boot true true) hangUpStarting = some (starting effects [] []) :=
  ⟨_,rfl,rfl⟩

theorem sendStarting {effects : List Effect} (effect : Effect) (rest : List Effect)
    (fits : effects.length < effectChannel) :
    (starting effects (effect :: rest) []).step .send =
      some (starting (effects ++ [effect]) rest []) := if_pos fits

theorem bounceStep {effects : List Effect} (fits : effects.length + 2 ≤ effectChannel) :
    Transition.final Queues.step (starting effects [] []) bounce =
      some (starting (effects ++ [stopAudio,cancelPulseTimeout]) [] []) := by
  have lifted : Transition.final Queues.step (starting effects [] []) [.arrive hookOff,.receive true,
      .arrive hookOn,.receive true] = some (starting effects [stopAudio,cancelPulseTimeout] []) := rfl
  have first := sendStarting stopAudio [cancelPulseTimeout]
    (show effects.length < effectChannel by omega)
  have longer : (effects ++ [stopAudio]).length < effectChannel := by
    rw [List.length_append,List.length_singleton]
    omega
  have second := sendStarting cancelPulseTimeout [] longer
  rw [List.append_assoc] at second
  calc Transition.final Queues.step (starting effects [] []) bounce
    _ = Transition.final Queues.step (starting effects [stopAudio,cancelPulseTimeout] [])
          [.send,.send] := Transition.finalAppend Queues.step lifted _
    _ = Transition.final Queues.step (starting (effects ++ [stopAudio]) [cancelPulseTimeout] [])
          [.send] := Transition.finalCons Queues.step first _
    _ = some (starting (effects ++ [stopAudio,cancelPulseTimeout]) [] []) :=
          Transition.finalCons Queues.step second _

theorem bouncesFill (n : Nat) (effects : List Effect) (fits : effects.length + 2 * n ≤ effectChannel) :
    ∃ full, full.length = effects.length + 2 * n ∧
      Transition.final Queues.step (starting effects [] []) (List.replicate n bounce).flatten =
        some (starting full [] []) := by
  induction n generalizing effects with
  | zero => exact ⟨effects,rfl,rfl⟩
  | succ n ih =>
    have longer : (effects ++ [stopAudio,cancelPulseTimeout]).length = effects.length + 2 := by
      simp only [List.length_append,List.length_cons,List.length_nil]
    obtain ⟨full,count,ends_⟩ := ih (effects ++ [stopAudio,cancelPulseTimeout]) (by omega)
    refine ⟨full,by omega,?_⟩
    rw [List.replicate_succ,List.flatten_cons]
    exact (Transition.finalAppend Queues.step (bounceStep (by omega)) _).trans ends_

theorem eventsFill (n : Nat) (effects core : List Effect) (events : List Event)
    (fits : events.length + n ≤ eventChannel) :
    Transition.final Queues.step (starting effects core events)
        (List.replicate n (.arrive hookOff)) =
      some (starting effects core (events ++ List.replicate n hookOff)) := by
  induction n generalizing events with
  | zero =>
    rw [show events ++ List.replicate 0 hookOff = events from List.append_nil events]
    rfl
  | succ n ih =>
    have arrives : (starting effects core events).step (.arrive hookOff) =
        some (starting effects core (events ++ [hookOff])) := by
      have room : events.length < eventChannel := by omega
      exact if_pos ⟨rfl,room⟩
    have shorter : (events ++ [hookOff]).length + n ≤ eventChannel := by
      rw [List.length_append,List.length_singleton]
      omega
    rw [List.replicate_succ,Transition.finalCons Queues.step arrives,ih _ shorter,List.append_assoc,
      List.singleton_append,← List.replicate_succ]

theorem startFails (effects core : List Effect) {events : List Event}
    (full : events.length = eventChannel) (reason : String) :
    (starting effects core events).step (.work (some (recordingFailed reason))) =
      some { starting effects core events with dispatcher := .reporting (recordingFailed reason) } := by
  show (if events.length < eventChannel then _ else _) = _
  exact if_neg (by omega)

/- 124 bounces fill the effect channel, the next one holds the core up, 256 more events fill
the event channel; then the recorder fails to start. -/
def bounceWhileStarting : List QueueLabel :=
  hangUpStarting ++ ((List.replicate 124 bounce).flatten ++
    ([.arrive hookOff,.receive true,.arrive hookOn,.receive true] ++
      (List.replicate 256 (.arrive hookOff) ++ [.work (some (recordingFailed "no device"))])))

theorem bouncesDeadlock : ∃ b, Deadlocked b ∧
    Transition.final Queues.step (.boot true true) bounceWhileStarting = some b := by
  obtain ⟨effects,eight,starts⟩ := hangUpStarts
  obtain ⟨full,count,bounced⟩ := bouncesFill 124 effects (by
    rw [eight]
    decide)
  have held : Transition.final Queues.step (starting full [] []) [.arrive hookOff,.receive true,
      .arrive hookOn,.receive true] = some (starting full [stopAudio,cancelPulseTimeout] []) := rfl
  have piled := eventsFill 256 full [stopAudio,cancelPulseTimeout] [] (Nat.le_refl 256)
  have fails := startFails full [stopAudio,cancelPulseTimeout]
    (List.length_replicate (n := 256) (a := hookOff)) "no device"
  refine ⟨{ starting full [stopAudio,cancelPulseTimeout] (List.replicate 256 hookOff) with
    dispatcher := .reporting (recordingFailed "no device") },⟨List.cons_ne_nil _ _,?_,
      List.length_replicate,.inl rfl⟩,?_⟩
  · exact count.trans (by rw [eight]; rfl)
  · rw [bounceWhileStarting,Transition.finalAppend Queues.step starts,
      Transition.finalAppend Queues.step bounced,Transition.finalAppend Queues.step held,
      Transition.finalAppend Queues.step piled]
    exact Transition.finalCons Queues.step fails []

theorem bouncesStall : ¬ ∀ labels, Transition.Along Queues.step StaysLive (.boot true true)
    labels := by
  intro live
  obtain ⟨b,deadlocked,ends_⟩ := bouncesDeadlock
  exact Transition.alongFinal Queues.step (live bounceWhileStarting) (by decide) ends_ deadlocked

end TelephoneBooth
