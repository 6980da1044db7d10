import TelephoneBooth.Fetches
import Mathlib.Data.List.Count

/-! Fetches that can still announce a clip, wherever they are: queued, put aside, in flight
with a token that will pass, or announced in the event channel. No step but the core's own
adds one, and none doubles one. -/
namespace TelephoneBooth
open Booth

def Fetcher.inFlight (f : Fetcher) : List Nat :=
  (f.tasks.filter (FetchTask.live f.generation)).map FetchTask.number

def fetchNumber (item : Nat × Emitted) : Option Nat :=
  if item.2.effect.fetchKind.isSome then some item.1 else none

namespace Booth

def queuedFetches (rt : Booth) : List Nat :=
  rt.effects.pending fun emitted => emitted.effect.fetchKind.isSome

def fetchesAside (rt : Booth) : List Nat :=
  rt.pendingOperatorEffects.filterMap fun aside => fetchNumber (aside.number,aside.emitted)

def dispatched (rt : Booth) : List Nat := rt.fetchesAside ++ rt.fetcher.inFlight ++ rt.announcedFetches

def liveFetches (rt : Booth) : List Nat := rt.queuedFetches ++ rt.dispatched

end Booth

theorem inFlightCount {f : Fetcher} {task : FetchTask} (mem : task ∈ f.tasks) (n : Nat) :
    f.inFlight.count n =
      (if task.live f.generation = true ∧ task.number = n then 1 else 0) +
        (((f.tasks.erase task).filter (FetchTask.live f.generation)).map FetchTask.number).count n := by
  have perm := (List.perm_cons_erase mem).filter (FetchTask.live f.generation)
  rw [Fetcher.inFlight,(perm.map FetchTask.number).count_eq]
  by_cases alive : task.live f.generation = true
  · rw [List.filter_cons_of_pos alive,List.map_cons,List.count_cons]
    simp only [alive,true_and,beq_iff_eq]
    omega
  · rw [List.filter_cons_of_neg alive]
    simp only [alive,false_and,Bool.false_eq_true,if_false,Nat.zero_add]

theorem inFlightMove (f : Fetcher) (task : FetchTask) (stage : FetchStage) (n : Nat) :
    (f.move task stage).inFlight.count n =
      (if FetchTask.live f.generation { task with stage } = true ∧ task.number = n then 1 else 0) +
        (((f.tasks.erase task).filter (FetchTask.live f.generation)).map FetchTask.number).count n := by
  have moved : ({ task with stage } : FetchTask) ∈ (f.move task stage).tasks := List.mem_cons_self
  have counted := inFlightCount moved n
  simp only [Fetcher.move,List.erase_cons_head] at counted
  exact counted

theorem readyFetch (kind : FetchKind) (answer : ClipAnswer) (n : Nat) :
    Notice.fetch { event := kind.ready answer, origin := some n } = some n := by
  cases kind <;> rfl

theorem failedFetch (kind : FetchKind) (reason : String) (n : Option Nat) :
    Notice.fetch { event := kind.failed reason, origin := n } = none := by
  cases kind <;> rfl

theorem fetchStepCount {f f' : Fetcher} {task : FetchTask} {notices : List Notice}
    (step : FetchStep f task f' notices) (mem : task ∈ f.tasks) (n : Nat) :
    f'.inFlight.count n + (notices.filterMap Notice.fetch).count n ≤ f.inFlight.count n := by
  have before := inFlightCount mem n
  cases step with
  | check answer answered current =>
    have after := inFlightMove f task (.current answer) n
    simp only [Fetcher.isCurrent,beq_iff_eq] at current
    have alive : task.live f.generation = true := by simp [FetchTask.live,answered,current]
    simp only [alive] at before
    simp only [FetchTask.live] at after
    simp only [List.filterMap_nil,List.count_nil]
    omega
  | advance stage alive unchecked =>
    have after := inFlightMove f task stage n
    simp only [List.filterMap_nil,List.count_nil]
    by_cases moved : FetchTask.live f.generation { task with stage } = true
    · simp only [moved,alive moved] at before after
      omega
    · simp only [moved] at after
      simp only [Bool.false_eq_true,false_and,if_false] at after
      omega
  | store answer source checked =>
    have after := inFlightMove f task (.stored answer) n
    have alive : task.live f.generation = true := by simp [FetchTask.live,checked]
    simp only [alive] at before
    simp only [FetchTask.live] at after
    have same : Fetcher.inFlight { f.move task (.stored answer) with
        nextRemoteAudio := some ⟨source,task.number,task.kind.ready answer⟩ } =
      (f.move task (.stored answer)).inFlight := rfl
    simp only [same,List.filterMap_nil,List.count_nil]
    omega
  | announce answer checked =>
    have after := inFlightMove f task .done n
    have alive : task.live f.generation = true := by simp [FetchTask.live,checked]
    simp only [alive,true_and] at before
    simp only [FetchTask.live,Bool.false_eq_true,false_and,if_false] at after
    rw [List.filterMap_cons_some (readyFetch _ _ _),List.filterMap_nil,List.count_singleton]
    simp only [beq_iff_eq]
    omega
  | fail reason =>
    have after := inFlightMove f task .done n
    simp only [FetchTask.live,Bool.false_eq_true,false_and,if_false] at after
    rw [List.filterMap_cons_none (failedFetch _ _ _),List.filterMap_nil,List.count_nil]
    omega

theorem joinCount {f f' : Fetcher} {number : Nat} (done : f.join number = some f') (n : Nat) :
    f'.inFlight.count n ≤ f.inFlight.count n := by
  obtain ⟨task,found,done⟩ := Option.bind_eq_some_iff.mp done
  split at done <;> cases done
  have before := inFlightCount (findCases found).1 n
  have same : Fetcher.inFlight { f with tasks := f.tasks.erase task } =
    ((f.tasks.erase task).filter (FetchTask.live f.generation)).map FetchTask.number := rfl
  rw [same]
  omega

theorem invalidateCount (f : Fetcher) (n : Nat) : f.invalidate.inFlight.count n ≤ f.inFlight.count n := by
  refine List.Sublist.count_le n (List.Sublist.map _ ?_)
  refine List.monotone_filter_right f.tasks ?_
  intro task alive
  simp only [Fetcher.invalidate,FetchTask.live] at alive ⊢
  cases stage : task.stage with
  | requesting =>
    rw [stage] at alive
    exact decide_eq_true (Nat.le_of_succ_le (of_decide_eq_true alive))
  | answered reply =>
    rw [stage] at alive
    cases reply with
    | ok answer => exact decide_eq_true (Nat.le_of_succ_le (of_decide_eq_true alive))
    | inactive | failed reason => exact alive
  | current answer | stored answer => rfl
  | failing reason | done => rw [stage] at alive; exact alive

theorem spawnCount (f : Fetcher) (number : Nat) (kind : FetchKind) (n : Nat) :
    (f.spawn number kind).inFlight.count n = f.inFlight.count n + if number = n then 1 else 0 := by
  simp [Fetcher.spawn,Fetcher.inFlight,FetchTask.live,List.count_singleton]

def Fewer (extra : Nat → Nat) (rt rt' : Booth) : Prop :=
  ∀ n, rt'.liveFetches.count n ≤ rt.liveFetches.count n + extra n

theorem liveCount (rt : Booth) (n : Nat) : rt.liveFetches.count n =
    rt.queuedFetches.count n + rt.fetchesAside.count n + rt.fetcher.inFlight.count n +
      rt.announcedFetches.count n := by
  simp only [liveFetches,dispatched,List.count_append]
  omega

theorem sendCount (rt : Booth) (notices : List Notice) (n : Nat) :
    (rt.send notices).announcedFetches.count n ≤
      rt.announcedFetches.count n + (notices.filterMap Notice.fetch).count n := by
  unfold send
  split
  · simp only [announcedFetches,List.filterMap_append,List.count_append,List.filterMap_map]
    exact Nat.le_refl _
  · exact Nat.le_add_right _ _

theorem fewerSend {rt rt' : Booth} {notices : List Notice} {extra : Nat → Nat}
    (effects : rt'.effects = rt.effects)
    (aside : rt'.pendingOperatorEffects = rt.pendingOperatorEffects)
    (events : rt'.events = rt.events)
    (fewer : ∀ n, rt'.fetcher.inFlight.count n + (notices.filterMap Notice.fetch).count n ≤
      rt.fetcher.inFlight.count n + extra n) :
    Fewer extra rt (rt'.send notices) := by
  intro n
  have sent := sendCount rt' notices n
  have flight := fewer n
  have queued : (rt'.send notices).queuedFetches = rt.queuedFetches := by
    simp [queuedFetches,effects]
  have asides : (rt'.send notices).fetchesAside = rt.fetchesAside := by
    simp [fetchesAside,aside]
  have before : rt'.announcedFetches = rt.announcedFetches := by simp [announcedFetches,events]
  rw [before] at sent
  rw [liveCount,liveCount,queued,asides,sendFetcher]
  omega

theorem fewerMove {rt rt' : Booth} {extra : Nat → Nat}
    (effects : rt'.effects = rt.effects)
    (aside : rt'.pendingOperatorEffects = rt.pendingOperatorEffects)
    (events : rt'.events = rt.events)
    (fewer : ∀ n, rt'.fetcher.inFlight.count n ≤ rt.fetcher.inFlight.count n + extra n) :
    Fewer extra rt rt' := by
  have quiet : Fewer extra rt (rt'.send []) :=
    fewerSend effects aside events fewer
  rwa [sendNone] at quiet

theorem resetCount (f : Fetcher) (n : Nat) : f.reset.inFlight.count n ≤ f.inFlight.count n :=
  invalidateCount f n

theorem resolveInFlight (f : Fetcher) (source : AudioRef) :
    (f.resolveAudioRef source).2.inFlight = f.inFlight := by
  unfold Fetcher.resolveAudioRef
  split
  · split <;> rfl
  · rfl

theorem Silent.fetch {notices : List Notice} (silent : Silent notices) :
    notices.filterMap Notice.fetch = [] := by
  rw [List.filterMap_eq_nil_iff]
  intro notice mem
  simp [Notice.fetch,silent notice mem]

def spawned (effect : Effect) (number n : Nat) : Nat :=
  if effect.fetchKind.isSome = true ∧ number = n then 1 else 0

theorem executeFewer {rt rt' : Booth} {number : Nat} {effect : Effect} {reply : InlineReply}
    (done : Executes rt number reply effect rt') : Fewer (spawned effect number) rt rt' := by
  have plain : ∀ n, rt.fetcher.inFlight.count n ≤
      rt.fetcher.inFlight.count n + spawned effect number n := fun _ => Nat.le_add_right _ _
  cases done with
  | play source =>
    refine fewerMove rfl rfl rfl ?_
    intro n
    rw [resolveInFlight]
    exact plain n
  | stopAudio =>
    refine fewerMove rfl rfl rfl ?_
    exact fun n => Nat.le_trans (resetCount rt.fetcher n) (plain n)
  | startRecording =>
    refine fewerSend rfl rfl rfl ?_
    rw [(startSilent _ _ _).fetch]
    exact plain
  | stopRecording stopped =>
    refine fewerSend rfl rfl rfl ?_
    rw [(stopSilent stopped).fetch]
    exact plain
  | uploadRecording recordingId questionId =>
    refine fewerSend rfl rfl rfl ?_
    rw [(acceptOutcomes _ _ _ _ _ _).silent.fetch]
    exact plain
  | fetch fetches =>
    refine fewerMove rfl rfl rfl ?_
    intro n
    rw [spawnCount]
    simp [spawned,fetches]
  | armRecordingTimeout | cancelRecordingTimeout | armPulseTimeout | cancelPulseTimeout
  | outward => exact fewerMove rfl rfl rfl plain

theorem receiveQueued {rt : Booth} {number : Nat} {emitted : Emitted} {effects : Channel Emitted}
    (received : rt.effects.receive = some ((number,emitted),effects)) (n : Nat) :
    rt.queuedFetches.count n =
      ({ rt with effects } : Booth).queuedFetches.count n + spawned emitted.effect number n := by
  simp only [queuedFetches,Channel.pendingReceived _ received,List.count_append,spawned]
  by_cases fetches : emitted.effect.fetchKind.isSome = true
  · simp only [fetches,if_true,true_and,List.count_singleton,beq_iff_eq]
    omega
  · simp [fetches]

theorem receiveFewer {rt : Booth} {number : Nat} {emitted : Emitted} {effects : Channel Emitted}
    (received : rt.effects.receive = some ((number,emitted),effects)) (n : Nat) :
    ({ rt with effects } : Booth).liveFetches.count n + spawned emitted.effect number n =
      rt.liveFetches.count n := by
  have queued := receiveQueued received n
  rw [liveCount,liveCount,queued]
  simp only [fetchesAside,announcedFetches]
  omega

theorem resumeFewer {rt : Booth} {next : OperatorEffect} {rest : List OperatorEffect}
    (waiting : rt.pendingOperatorEffects = next :: rest) (n : Nat) :
    ({ rt with pendingOperatorEffects := rest } : Booth).liveFetches.count n +
      spawned next.emitted.effect next.number n = rt.liveFetches.count n := by
  rw [liveCount,liveCount]
  simp only [fetchesAside,waiting,List.filterMap_cons,fetchNumber,spawned,queuedFetches,
    announcedFetches]
  by_cases fetches : next.emitted.effect.fetchKind.isSome = true
  · simp only [fetches,if_true,true_and,List.count_cons,beq_iff_eq]
    omega
  · simp only [fetches,Bool.false_eq_true,if_false,false_and]
    omega

theorem shutdownFewer {rt rt' : Booth} (done : rt.advanceShutdown = some rt') :
    Fewer (fun _ => 0) rt rt' := by
  cases shutdownCases done with
  | deafen =>
    intro n
    rw [liveCount,liveCount]
    simp only [queuedFetches,fetchesAside,announcedFetches,List.filterMap_nil,List.count_nil]
    omega
  | leave =>
    refine fewerMove rfl rfl rfl ?_
    intro n
    simp [Fetcher.inFlight]
  | _ => exact fewerMove rfl rfl rfl fun _ => Nat.le_refl _

theorem fewerStep {rt rt' : Booth} {label : Label} (step : BoothStep rt label rt')
    (quiet : isQuiet label = true) : Fewer (fun _ => 0) rt rt' := by
  have plain : ∀ n, rt.fetcher.inFlight.count n ≤ rt.fetcher.inFlight.count n + 0 :=
    fun _ => Nat.le_refl _
  cases step with
  | handle | reconcile | restart => cases quiet
  | sense outside =>
    refine fewerSend rfl rfl rfl ?_
    rw [(outsideSilent outside).fetch]
    exact plain
  | gate accepting invalidates =>
    refine fewerMove rfl rfl rfl ?_
    intro n
    cases invalidates with
    | false => exact plain n
    | true => exact invalidateCount rt.fetcher n
  | skip received stopping other =>
    intro n
    have fewer := receiveFewer received n
    omega
  | defer received operator =>
    rename_i reply number emitted effects
    intro n
    have fewer := receiveFewer received n
    rw [liveCount] at fewer ⊢
    simp only [queuedFetches,fetchesAside,announcedFetches,List.filterMap_append,List.count_append,
      List.filterMap_cons,List.filterMap_nil,fetchNumber,spawned] at fewer ⊢
    by_cases fetches : emitted.effect.fetchKind.isSome = true
    · simp only [fetches,if_true,true_and,List.count_singleton,beq_iff_eq] at fewer ⊢
      omega
    · simp only [fetches,Bool.false_eq_true,if_false,false_and,List.count_nil] at fewer ⊢
      omega
  | execute received live done =>
    have quiet := executeFewer done
    intro n
    have fewer := receiveFewer received n
    have moved := quiet n
    omega
  | forget waiting stopping other =>
    intro n
    have fewer := resumeFewer waiting n
    omega
  | resume waiting live done =>
    have quiet := executeFewer done
    intro n
    have fewer := resumeFewer waiting n
    have moved := quiet n
    omega
  | fetch done =>
    obtain ⟨task,found,moves⟩ := fetchStepCases done
    exact fewerSend rfl rfl rfl (fetchStepCount moves (findCases found).1)
  | upload done =>
    refine fewerSend rfl rfl rfl ?_
    rw [(uploadOutcomes done).silent.fetch]
    exact plain
  | cancelFetch stopping done =>
    obtain ⟨task,mem,rfl⟩ := cancelCases done
    exact fewerMove rfl rfl rfl (fetchStepCount (abandonStep _ task) mem)
  | joinFetch done => exact fewerMove rfl rfl rfl (joinCount done)
  | pulseTimeout armed => exact fewerSend rfl rfl rfl plain
  | recordingTimeout done =>
    obtain ⟨armed,_,same⟩ := Option.map_eq_some_iff.mp done
    cases same
    exact fewerSend rfl rfl rfl plain
  | speaker done =>
    refine fewerSend rfl rfl rfl ?_
    rw [(speakerSilent done).fetch]
    exact plain
  | shutdown done => exact shutdownFewer done
  | spawn | cancelUpload | joinUpload | enqueued | dequeued | replay =>
    exact fewerMove rfl rfl rfl plain

def fetchesFrom (start : Nat) (effects : List Effect) : List Nat :=
  numbered (fun effect => effect.fetchKind.isSome) start effects

theorem handleLive (rt : Booth) (event : Event) (origin : Option Nat) (n : Nat) :
    (rt.handleEvent event origin).liveFetches.count n = rt.liveFetches.count n +
      (fetchesFrom rt.effects.log.length (coreStep rt.state (event,rt.accepting)).2).count n := by
  have queued : (rt.handleEvent event origin).queuedFetches = rt.queuedFetches ++
      fetchesFrom rt.effects.log.length (coreStep rt.state (event,rt.accepting)).2 := by
    unfold queuedFetches fetchesFrom
    rw [handleEffects,Channel.pendingSent,numberedMap]
  rw [liveCount,liveCount,queued,List.count_append]
  have aside : (rt.handleEvent event origin).fetchesAside = rt.fetchesAside := rfl
  have ready : (rt.handleEvent event origin).announcedFetches = rt.announcedFetches := rfl
  have flight : (rt.handleEvent event origin).fetcher = rt.fetcher := rfl
  rw [aside,ready,flight]
  omega

theorem handleLiveMem {rt : Booth} {event : Event} {origin : Option Nat} {n : Nat}
    (mem : n ∈ (rt.handleEvent event origin).liveFetches) :
    n ∈ rt.liveFetches ∨ rt.effects.log.length ≤ n := by
  have counted := handleLive rt event origin n
  have present := List.count_pos_iff.mpr mem
  by_cases old : n ∈ rt.liveFetches
  · exact .inl old
  · rw [List.count_eq_zero_of_not_mem old] at counted
    have emitted : n ∈ fetchesFrom rt.effects.log.length (coreStep rt.state (event,rt.accepting)).2 :=
      List.count_pos_iff.mp (by omega)
    exact .inr ((numberedMem _).mp emitted).1

theorem Fewer.mem {rt rt' : Booth} (quiet : Fewer (fun _ => 0) rt rt') {n : Nat}
    (mem : n ∈ rt'.liveFetches) : n ∈ rt.liveFetches := by
  have fewer : rt'.liveFetches.count n ≤ rt.liveFetches.count n := quiet n
  have present := List.count_pos_iff.mpr mem
  exact List.count_pos_iff.mp (by omega)

theorem nextLive {rt : Booth} {sent : Sent} {events : List Sent} (next : rt.events = sent :: events)
    (n : Nat) : rt.liveFetches.count n = ({ rt with events } : Booth).liveFetches.count n +
      sent.toNotice.fetch.toList.count n := by
  rw [liveCount,liveCount]
  simp only [announcedFetches,next,queuedFetches,fetchesAside]
  cases fetch : sent.toNotice.fetch with
  | none => simp [fetch]
  | some m => simp [fetch,List.count_cons]; omega

end TelephoneBooth
