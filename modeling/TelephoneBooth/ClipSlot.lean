import TelephoneBooth.ClipTurn
import TelephoneBooth.LiveFetches

/-! The one slot a fetched clip waits in, between the task that stores it, the `Play` that
takes it out and the `StopAudio` that throws it away. -/
namespace TelephoneBooth
open Booth Event Effect

def touching (emitted : Emitted) : Bool := touches emitted.effect

def readsSlot (emitted : Emitted) : Bool := isUse emitted.effect

def Booth.lastTouch (rt : Booth) : Option Nat := latest touching rt.effects.log

def NoneCleared (rt : Booth) : Prop := ∀ task ∈ rt.fetcher.tasks, task.cleared = false

structure TasksStill (rt rt' : Booth) : Prop where
  tasks : ∀ task ∈ rt'.fetcher.tasks, task.cleared = true → task ∈ rt.fetcher.tasks
  ready : ∀ sent ∈ rt'.events, sent.event.readyKind.isSome = true → sent ∈ rt.events

structure SlotStill (rt rt' : Booth) : Prop extends TasksStill rt rt' where
  slot : rt'.fetcher.nextRemoteAudio = rt.fetcher.nextRemoteAudio
  resolved : rt'.fetcher.resolved = rt.fetcher.resolved

inductive ClipStep (rt : Booth) (label : Label) (rt' : Booth) : Prop where
  | calm (still : SlotStill rt rt')
      (uses : ∀ u emitted, rt.effects.Waits u emitted → isUse emitted.effect = true →
        rt'.effects.Waits u emitted)
  | use {number emitted} (waits : rt.effects.Waits number emitted)
      (first : number = rt.effects.taken) (taken : rt'.effects.taken = number + 1)
      (reads : isUse emitted.effect = true) (still : TasksStill rt rt')
      (resolved : rt'.fetcher.resolved = rt.fetcher.nextRemoteAudio)
  | stop {number emitted} (waits : rt.effects.Waits number emitted)
      (first : number = rt.effects.taken) (taken : rt'.effects.taken = number + 1)
      (stops : emitted.effect = stopAudio) (still : TasksStill rt rt')
      (resolved : rt'.fetcher.resolved = rt.fetcher.resolved)
  | check {task answer} (mem : task ∈ rt.fetcher.tasks) (clears : rt.clears label = some task.number)
      (alive : task.live rt.fetcher.generation = true)
      (moved : rt' = { rt with fetcher := rt.fetcher.move task (.current answer) })
  | store {task answer source} (mem : task ∈ rt.fetcher.tasks) (checked : task.stage = .current answer)
      (moved : rt' = { rt with fetcher := { rt.fetcher.move task (.stored answer) with
        nextRemoteAudio := some ⟨source,task.number,task.kind.ready answer⟩ } })
  | announce {task answer} (mem : task ∈ rt.fetcher.tasks) (checked : task.stage = .stored answer)
      (moved : rt' = ({ rt with fetcher := rt.fetcher.move task .done } : Booth).send
        [{ event := task.kind.ready answer, origin := some task.number }])

theorem stillSend {rt mid : Booth} {notices : List Notice}
    (tasks : mid.fetcher.tasks = rt.fetcher.tasks)
    (slot : mid.fetcher.nextRemoteAudio = rt.fetcher.nextRemoteAudio)
    (resolved : mid.fetcher.resolved = rt.fetcher.resolved) (events : mid.events = rt.events)
    (silent : Silent notices) : SlotStill rt (mid.send notices) := by
  refine ⟨⟨?_,?_⟩,by simpa using slot,by simpa using resolved⟩
  · intro task mem _
    rwa [sendFetcher,tasks] at mem
  · intro sent mem ready
    rcases sendEvents mem with old | ⟨notice,new,rfl⟩
    · exact events ▸ old
    · rw [silent notice new] at ready
      cases ready

theorem stillKeep {rt mid : Booth} (tasks : mid.fetcher.tasks = rt.fetcher.tasks)
    (slot : mid.fetcher.nextRemoteAudio = rt.fetcher.nextRemoteAudio)
    (resolved : mid.fetcher.resolved = rt.fetcher.resolved) (events : mid.events = rt.events) :
    SlotStill rt mid := by
  have still := stillSend tasks slot resolved events silentNone
  rwa [sendNone] at still

theorem resolveOther {f : Fetcher} {source : AudioRef} (other : isUse (play source) = false) :
    (f.resolveAudioRef source).2 = f := by
  unfold Fetcher.resolveAudioRef
  split
  · rw [if_neg (by simpa [isUse] using other)]
  · rfl

theorem resolveUse {f : Fetcher} {source : AudioRef} (reads : isUse (play source) = true) :
    (f.resolveAudioRef source).2.resolved = f.nextRemoteAudio := by
  unfold Fetcher.resolveAudioRef
  split
  · rw [if_pos (by simpa [isUse] using reads)]
  · rename_i other
    cases source with
    | remoteUrl url sha256 => exact absurd rfl (other url sha256)
    | builtin | localFile => cases reads

theorem executeSlot {rt rt' : Booth} {number : Nat} {effect : Effect} {reply : InlineReply}
    (done : Executes rt number reply effect rt') :
    (isUse effect = true ∧ TasksStill rt rt' ∧
      rt'.fetcher.resolved = rt.fetcher.nextRemoteAudio) ∨
    (effect = stopAudio ∧ TasksStill rt rt' ∧ rt'.fetcher.resolved = rt.fetcher.resolved) ∨
    (isUse effect = false ∧ SlotStill rt rt') := by
  cases done with
  | play source =>
    cases reads : isUse (play source) with
    | true =>
      refine .inl ⟨rfl,⟨?_,fun _ mem _ => mem⟩,resolveUse reads⟩
      intro task mem _
      rwa [resolveTasks] at mem
    | false =>
      refine .inr (.inr ⟨rfl,stillKeep ?_ ?_ ?_ rfl⟩)
      · exact resolveTasks _ _
      · exact congrArg Fetcher.nextRemoteAudio (resolveOther reads)
      · exact congrArg Fetcher.resolved (resolveOther reads)
  | stopAudio => exact .inr (.inl ⟨rfl,⟨fun _ mem _ => mem,fun _ mem _ => mem⟩,rfl⟩)
  | startRecording => exact .inr (.inr ⟨rfl,stillSend rfl rfl rfl rfl (startSilent _ _ _)⟩)
  | stopRecording stopped => exact .inr (.inr ⟨rfl,stillSend rfl rfl rfl rfl (stopSilent stopped)⟩)
  | uploadRecording recordingId questionId =>
    exact .inr (.inr ⟨rfl,stillSend rfl rfl rfl rfl (acceptOutcomes _ _ _ _ _ _).silent⟩)
  | fetch fetches =>
    have other : isUse effect = false := by cases effect <;> first | rfl | cases fetches
    refine .inr (.inr ⟨other,⟨?_,fun _ mem _ => mem⟩,rfl,rfl⟩)
    intro task mem cleared
    rcases List.mem_append.mp mem with old | new
    · exact old
    · rw [List.mem_singleton.mp new] at cleared
      cases cleared
  | outward silent =>
    have other : isUse effect = false := by cases effect <;> first | rfl | cases silent
    exact .inr (.inr ⟨other,stillKeep rfl rfl rfl rfl⟩)
  | armRecordingTimeout | cancelRecordingTimeout | armPulseTimeout | cancelPulseTimeout =>
    exact .inr (.inr ⟨rfl,stillKeep rfl rfl rfl rfl⟩)

theorem fetchClip {rt : Booth} {number : Nat} {reply : FetchReply} {f : Fetcher}
    {notices : List Notice} (done : rt.fetcher.step number reply = some (f,notices)) :
    ClipStep rt (.fetch number reply) ({ rt with fetcher := f }.send notices) := by
  obtain ⟨task,found,step⟩ := fetchStepCases done
  obtain ⟨mem,rfl⟩ := findCases found
  have calm (stage : FetchStage) (unchecked : FetchTask.cleared { task with stage } = false) :
      ∀ other ∈ (rt.fetcher.move task stage).tasks, other.cleared = true →
        other ∈ rt.fetcher.tasks := by
    intro other inside cleared
    rcases List.mem_cons.mp inside with rfl | old
    · rw [unchecked] at cleared
      cases cleared
    · exact List.mem_of_mem_erase old
  cases step with
  | advance stage alive unchecked =>
    rw [sendNone]
    exact .calm ⟨⟨calm stage unchecked,fun _ mem _ => mem⟩,rfl,rfl⟩ fun _ _ waits _ => waits
  | check answer answered current =>
    rw [sendNone]
    have alive : task.live rt.fetcher.generation = true := by
      simp only [Fetcher.isCurrent,beq_iff_eq] at current
      simp [FetchTask.live,answered,current]
    exact .check mem (by simp [clears,found,answered,current]) alive rfl
  | store answer source checked =>
    rw [sendNone]
    exact .store mem checked rfl
  | announce answer checked => exact .announce mem checked rfl
  | fail reason =>
    refine .calm ⟨⟨?_,?_⟩,by simp [Fetcher.move],by simp [Fetcher.move]⟩ (by simp +contextual)
    · rw [sendFetcher]
      exact calm .done rfl
    · intro sent inside ready
      rcases sendEvents inside with old | ⟨notice,new,rfl⟩
      · exact old
      · rw [List.mem_singleton.mp new,readyKindFailed] at ready
        cases ready

theorem operatorSlot {effect : Effect} (operator : isOperatorEffect effect = true) :
    isUse effect = false ∧ effect ≠ stopAudio := by
  cases effect with
  | uploadRecording | fetchRandomQuestion | fetchRandomMessage | fetchInstructions =>
    exact ⟨rfl,by simp⟩
  | _ => cases operator

theorem receiveUses {rt : Booth} {number : Nat} {emitted : Emitted} {effects : Channel Emitted}
    (received : rt.effects.receive = some ((number,emitted),effects))
    (other : isUse emitted.effect = false) {u : Nat} {item : Emitted}
    (waits : rt.effects.Waits u item) (reads : isUse item.effect = true) : effects.Waits u item := by
  obtain ⟨place,found,log,taken⟩ := Channel.receiveCases received
  obtain ⟨later,waiting⟩ := waits
  have apart : u ≠ number := by
    rintro rfl
    rw [found] at waiting
    cases waiting
    rw [other] at reads
    cases reads
  exact ⟨by omega,by rw [log]; exact waiting⟩

theorem clipStepCases {rt rt' : Booth} {label : Label} (step : BoothStep rt label rt')
    (quiet : isQuiet label = true) (running : rt'.phase = .running) : ClipStep rt label rt' := by
  have started : rt.phase = .running := quietRunning step quiet running
  have calmSend {mid : Booth} {notices : List Notice} (tasks : mid.fetcher.tasks = rt.fetcher.tasks)
      (slot : mid.fetcher.nextRemoteAudio = rt.fetcher.nextRemoteAudio)
      (resolved : mid.fetcher.resolved = rt.fetcher.resolved) (events : mid.events = rt.events)
      (effects : mid.effects = rt.effects) (silent : Silent notices) :
      ClipStep rt label (mid.send notices) :=
    .calm (stillSend tasks slot resolved events silent) fun u emitted waits _ => by
      rwa [sendEffects,effects]
  have calmKeep {mid : Booth} (tasks : mid.fetcher.tasks = rt.fetcher.tasks)
      (slot : mid.fetcher.nextRemoteAudio = rt.fetcher.nextRemoteAudio)
      (resolved : mid.fetcher.resolved = rt.fetcher.resolved) (events : mid.events = rt.events)
      (effects : mid.effects = rt.effects) : ClipStep rt label mid :=
    .calm (stillKeep tasks slot resolved events) fun u emitted waits _ => by rwa [effects]
  cases step with
  | handle | reconcile | restart => cases quiet
  | skip received stopping => exact absurd started stopping
  | forget waiting stopping => exact absurd started stopping
  | cancelFetch stopping => exact absurd started stopping
  | cancelUpload stopping => exact absurd started stopping
  | sense outside => exact calmSend rfl rfl rfl rfl rfl (outsideSilent outside)
  | gate accepting invalidates =>
    cases invalidates with
    | false => exact calmKeep rfl rfl rfl rfl rfl
    | true => exact calmKeep rfl rfl rfl rfl rfl
  | defer received operator =>
    exact .calm (stillKeep rfl rfl rfl rfl) fun u item waits reads =>
      receiveUses received (operatorSlot operator).1 waits reads
  | execute received live done =>
    obtain ⟨place,_,_,taken⟩ := Channel.receiveCases received
    have waits := Channel.receivedWaits received
    have effects_ := executeEffects done
    rcases executeSlot done with ⟨reads,still,resolved⟩ | ⟨stops,still,resolved⟩ | ⟨other,still⟩
    · exact .use waits place (effects_ ▸ taken) reads ⟨still.tasks,still.ready⟩ resolved
    · exact .stop waits place (effects_ ▸ taken) stops ⟨still.tasks,still.ready⟩ resolved
    · exact .calm ⟨⟨still.tasks,still.ready⟩,still.slot,still.resolved⟩ fun u item waiting reads =>
        effects_ ▸ receiveUses received other waiting reads
  | resume waiting live done =>
    rename_i reply next rest
    have operator := operatorSlot next.operator
    have effects_ := executeEffects done
    rcases executeSlot done with ⟨reads,_,_⟩ | ⟨stops,_,_⟩ | ⟨other,still⟩
    · rw [operator.1] at reads
      cases reads
    · exact absurd stops operator.2
    · exact .calm ⟨⟨still.tasks,still.ready⟩,still.slot,still.resolved⟩ fun u item waiting _ =>
        effects_ ▸ waiting
  | fetch done => exact fetchClip done
  | upload done => exact calmSend rfl rfl rfl rfl rfl (uploadOutcomes done).silent
  | joinFetch done =>
    obtain ⟨joined,_,moved⟩ := Option.bind_eq_some_iff.mp done
    split at moved <;> cases moved
    exact .calm ⟨⟨fun task mem _ => List.mem_of_mem_erase mem,fun _ mem _ => mem⟩,rfl,rfl⟩
      fun _ _ waits _ => waits
  | pulseTimeout armed => exact calmSend rfl rfl rfl rfl rfl (silentOne rfl)
  | recordingTimeout done => exact calmSend rfl rfl rfl rfl rfl (fireSilent done)
  | speaker done => exact calmSend rfl rfl rfl rfl rfl (speakerSilent done)
  | shutdown done => cases shutdownCases done <;> cases running
  | spawn | joinUpload | enqueued | dequeued | replay => exact calmKeep rfl rfl rfl rfl rfl

end TelephoneBooth
