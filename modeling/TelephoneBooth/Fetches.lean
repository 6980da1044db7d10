import TelephoneBooth.RuntimeStep

/-! Fetches in the runtime: what a fetch task does in one step, what announces no clip, and
the rule by which a fact about every fetch, in every place it can be, survives a step in
which the core takes no part. -/
namespace TelephoneBooth
open Booth

def FetchTask.live (generation : Nat) (task : FetchTask) : Bool :=
  match task.stage with
  | .requesting | .answered (.ok _) => generation ≤ task.issued
  | .current _ | .stored _ => true
  | _ => false

def FetchTask.cleared (task : FetchTask) : Bool :=
  match task.stage with
  | .current _ | .stored _ => true
  | _ => false

theorem findCases {f : Fetcher} {number : Nat} {task : FetchTask}
    (found : f.find number = some task) : task ∈ f.tasks ∧ task.number = number := by
  refine ⟨List.mem_of_find?_eq_some found,?_⟩
  simpa using List.find?_some found

inductive FetchStep (f : Fetcher) (task : FetchTask) : Fetcher → List Notice → Prop where
  | advance (stage)
      (alive : FetchTask.live f.generation { task with stage } = true →
        task.live f.generation = true)
      (unchecked : FetchTask.cleared { task with stage } = false) :
      FetchStep f task (f.move task stage) []
  | check (answer) (answered : task.stage = .answered (.ok answer))
      (current : f.isCurrent task = true) : FetchStep f task (f.move task (.current answer)) []
  | store (answer) (source) (checked : task.stage = .current answer) :
      FetchStep f task { f.move task (.stored answer) with
        nextRemoteAudio := some ⟨source,task.number,task.kind.ready answer⟩ } []
  | announce (answer) (checked : task.stage = .stored answer) :
      FetchStep f task (f.move task .done)
        [{ event := task.kind.ready answer, origin := some task.number }]
  | fail (reason) : FetchStep f task (f.move task .done)
      [{ event := task.kind.failed reason, origin := some task.number }]

theorem fetchStepCases {f f' : Fetcher} {number : Nat} {reply : FetchReply} {notices : List Notice}
    (done : f.step number reply = some (f',notices)) :
    ∃ task, f.find number = some task ∧ FetchStep f task f' notices := by
  obtain ⟨task,found,done⟩ := Option.bind_eq_some_iff.mp done
  refine ⟨task,found,?_⟩
  obtain ⟨_,rfl⟩ := findCases found
  cases stage : task.stage with
  | requesting =>
    simp only [stage] at done
    cases done
    refine .advance _ ?_ rfl
    intro alive
    simp only [FetchTask.live,stage] at alive ⊢
    cases reply <;> simp_all
  | answered reply =>
    cases reply with
    | ok answer =>
      simp only [stage] at done
      split at done
      · rename_i current
        cases done
        exact .check answer stage current
      · cases done
        exact .advance _ (by simp [FetchTask.live]) rfl
    | inactive =>
      simp only [stage] at done
      cases done
      exact .advance _ (by simp [FetchTask.live]) rfl
    | failed reason =>
      simp only [stage] at done
      split at done <;> cases done
      · exact .advance _ (by simp [FetchTask.live]) rfl
      · exact .advance _ (by simp [FetchTask.live]) rfl
  | current answer =>
    simp only [stage] at done
    cases done
    exact .store answer _ stage
  | stored answer =>
    simp only [stage] at done
    cases done
    exact .announce answer stage
  | failing reason =>
    simp only [stage] at done
    cases done
    exact .fail reason
  | done => simp [stage] at done

theorem readyKindReady (kind : FetchKind) (answer : ClipAnswer) :
    (kind.ready answer).readyKind = some kind := by
  cases kind <;> rfl

theorem readyKindFailed (kind : FetchKind) (reason : String) :
    (kind.failed reason).readyKind = none := by
  cases kind <;> rfl

theorem cancelCases {f f' : Fetcher} {number : Nat} (done : f.cancel number = some f') :
    ∃ task ∈ f.tasks, f' = f.move task .done := by
  obtain ⟨task,found,done⟩ := Option.bind_eq_some_iff.mp done
  split at done <;> cases done
  exact ⟨task,(findCases found).1,rfl⟩

theorem abandonStep (f : Fetcher) (task : FetchTask) : FetchStep f task (f.move task .done) [] :=
  .advance .done (by simp [FetchTask.live]) rfl

theorem joinTasks {f f' : Fetcher} {number : Nat} (done : f.join number = some f')
    {task : FetchTask} (mem : task ∈ f'.tasks) : task ∈ f.tasks := by
  obtain ⟨joined,_,done⟩ := Option.bind_eq_some_iff.mp done
  split at done <;> cases done
  exact List.mem_of_mem_erase mem

theorem resolveTasks (f : Fetcher) (source : AudioRef) :
    (f.resolveAudioRef source).2.tasks = f.tasks := by
  unfold Fetcher.resolveAudioRef
  split
  · split <;> rfl
  · rfl

def Silent (notices : List Notice) : Prop := ∀ notice ∈ notices, notice.event.readyKind = none

theorem silentNone : Silent [] := fun _ mem => absurd mem List.not_mem_nil

theorem silentOne {notice : Notice} (silent : notice.event.readyKind = none) : Silent [notice] := by
  intro other mem
  rw [List.mem_singleton.mp mem]
  exact silent

theorem stopSilent {r r' : Recorder} {number : Nat} {reply : StopReply} {notices : List Notice}
    (done : r.stop number reply = some (r',notices)) : Silent notices := by
  cases reply with
  | error reason => cases done; exact silentOne rfl
  | ok recordingId =>
    cases recordingId with
    | none => cases done; exact silentOne rfl
    | some recordingId =>
      obtain ⟨started,_,same⟩ := Option.map_eq_some_iff.mp done
      cases same
      exact silentOne rfl

theorem startSilent (r : Recorder) (number : Nat) (error : Option String) :
    Silent (r.start number error).2 := by
  cases error
  · exact silentNone
  · exact silentOne rfl

theorem fireSilent {r r' : Recorder} {notices : List Notice} (done : r.fire = some (r',notices)) :
    Silent notices := by
  obtain ⟨armed,_,same⟩ := Option.map_eq_some_iff.mp done
  cases same
  exact silentOne rfl

theorem Outcomes.silent {notices : List Notice} (outcomes : Outcomes notices) : Silent notices := by
  intro notice mem
  obtain ⟨id,outcome,rfl⟩ := outcomes notice mem
  rfl

theorem outsideSilent {event : Event} (outside : fromOutside event = true) :
    Silent [{ event }] := by
  cases event <;> first
    | exact silentOne rfl
    | cases outside

theorem speakerSilent {s s' : Speaker} {label : SpeakerLabel} {notices : List Notice}
    (done : s.step label = some (s',notices)) : Silent notices := by
  cases label with
  | command accepted =>
    simp only [Speaker.step] at done
    split at done <;> cases done
    exact silentNone
  | ended natural =>
    simp only [Speaker.step] at done
    split at done <;> cases done
    cases natural
    · exact silentNone
    · exact silentOne rfl

def Notice.fetch (notice : Notice) : Option Nat :=
  if notice.event.readyKind.isSome then notice.origin else none

namespace Booth

def announcedFetches (rt : Booth) : List Nat := rt.events.filterMap fun sent => sent.toNotice.fetch

def clearedFetches (rt : Booth) : List Nat :=
  (rt.fetcher.tasks.filter FetchTask.cleared).map FetchTask.number ++ rt.announcedFetches

end Booth

theorem announcedMem {rt : Booth} {sent : Sent} {number : Nat} (mem : sent ∈ rt.events)
    (ready : sent.event.readyKind.isSome = true) (origin : sent.origin = some number) :
    number ∈ rt.announcedFetches := by
  refine List.mem_filterMap.mpr ⟨sent,mem,?_⟩
  rw [Notice.fetch,if_pos ready]
  exact origin

theorem clearedMem {rt : Booth} {task : FetchTask} (mem : task ∈ rt.fetcher.tasks)
    (cleared : task.cleared = true) : task.number ∈ rt.clearedFetches :=
  List.mem_append_left _ (List.mem_map_of_mem (List.mem_filter.mpr ⟨mem,cleared⟩))

def Booth.clears (rt : Booth) : Label → Option Nat
  | .fetch number _ => (rt.fetcher.find number).bind fun task =>
    match task.stage with
    | .answered (.ok _) => if rt.fetcher.isCurrent task then some number else none
    | _ => none
  | _ => none

section Places
variable (aside : OperatorEffect → Prop) (tasks : FetchTask → Prop) (ready : Notice → Prop)

structure Places (rt : Booth) : Prop where
  aside : ∀ next ∈ rt.pendingOperatorEffects, aside next
  tasks : ∀ task ∈ rt.fetcher.tasks, tasks task
  ready : ∀ sent ∈ rt.events, sent.event.readyKind.isSome = true → ready sent.toNotice

structure Moves (rt : Booth) (label : Label) (rt' : Booth) : Prop where
  defer : ∀ next : OperatorEffect, rt.effects.Waits next.number next.emitted →
    rt'.effects.taken = next.number + 1 → aside next
  dispatch : ∀ number emitted kind, rt.effects.Waits number emitted →
    rt'.effects.taken = number + 1 → emitted.effect.fetchKind = some kind →
    tasks ⟨number,kind,rt.fetcher.generation,.requesting⟩
  resume : ∀ next kind, aside next → next.emitted.effect.fetchKind = some kind →
    tasks ⟨next.number,kind,rt.fetcher.generation,.requesting⟩
  advance : ∀ task stage, tasks task → FetchTask.cleared { task with stage } = false →
    tasks { task with stage }
  check : ∀ task answer, tasks task → rt.clears label = some task.number →
    tasks { task with stage := .current answer }
  store : ∀ task answer, tasks task → task.stage = .current answer →
    tasks { task with stage := .stored answer }
  announce : ∀ task answer, tasks task → task.stage = .stored answer →
    ready { event := task.kind.ready answer, origin := some task.number }

variable {aside tasks ready} {rt rt' : Booth} {label : Label}

theorem Places.move (places : Places aside tasks ready rt)
    (asides : ∀ next ∈ rt'.pendingOperatorEffects, next ∈ rt.pendingOperatorEffects ∨ aside next)
    (moved : ∀ task ∈ rt'.fetcher.tasks, task ∈ rt.fetcher.tasks ∨ tasks task)
    (events : ∀ sent ∈ rt'.events, sent ∈ rt.events ∨
      (sent.event.readyKind.isSome = true → ready sent.toNotice)) :
    Places aside tasks ready rt' := by
  constructor
  · exact fun next mem => (asides next mem).elim (places.aside next) id
  · exact fun task mem => (moved task mem).elim (places.tasks task) id
  · exact fun sent mem => (events sent mem).elim (places.ready sent) id

theorem Places.keep (places : Places aside tasks ready rt) {notices : List Notice}
    (asides : rt'.pendingOperatorEffects = rt.pendingOperatorEffects)
    (same : rt'.fetcher.tasks = rt.fetcher.tasks) (events : rt'.events = rt.events)
    (silent : Silent notices) : Places aside tasks ready (rt'.send notices) := by
  refine places.move ?_ ?_ ?_
  · simp [asides]
    exact fun next mem => .inl mem
  · simp [same]
    exact fun task mem => .inl mem
  · intro sent mem
    rcases sendEvents mem with old | ⟨notice,new,rfl⟩
    · exact .inl (events ▸ old)
    · refine .inr fun announces => ?_
      rw [silent notice new] at announces
      cases announces

theorem Places.still (places : Places aside tasks ready rt)
    (asides : rt'.pendingOperatorEffects = rt.pendingOperatorEffects)
    (same : rt'.fetcher.tasks = rt.fetcher.tasks) (events : rt'.events = rt.events) :
    Places aside tasks ready rt' := by
  have kept := places.keep asides same events silentNone
  rwa [sendNone] at kept

theorem executePlaces {number : Nat} {effect : Effect} {reply : InlineReply}
    (places : Places aside tasks ready rt) (done : Executes rt number reply effect rt')
    (spawns : ∀ kind, effect.fetchKind = some kind →
      tasks ⟨number,kind,rt.fetcher.generation,.requesting⟩) :
    Places aside tasks ready rt' := by
  cases done with
  | play source => exact places.still rfl (resolveTasks _ _) rfl
  | startRecording => exact places.keep rfl rfl rfl (startSilent _ _ _)
  | stopRecording stopped => exact places.keep rfl rfl rfl (stopSilent stopped)
  | uploadRecording recordingId questionId =>
    exact places.keep rfl rfl rfl (acceptOutcomes _ _ _ _ _ _).silent
  | fetch fetches =>
    refine places.move (fun _ => .inl) ?_ (fun _ => .inl)
    intro task mem
    rcases List.mem_append.mp mem with old | new
    · exact .inl old
    · rw [List.mem_singleton.mp new]
      exact .inr (spawns _ fetches)
  | stopAudio | armRecordingTimeout | cancelRecordingTimeout | armPulseTimeout
  | cancelPulseTimeout | outward => exact places.still rfl rfl rfl

theorem fetchPlaces {f : Fetcher} {task : FetchTask} {notices : List Notice}
    (places : Places aside tasks ready rt) (moves : Moves aside tasks ready rt label rt')
    (mem : task ∈ rt.fetcher.tasks) (step : FetchStep rt.fetcher task f notices)
    (clears : ∀ answer, task.stage = .answered (.ok answer) → rt.fetcher.isCurrent task = true →
      rt.clears label = some task.number) :
    Places aside tasks ready ({ rt with fetcher := f }.send notices) := by
  have holds := places.tasks task mem
  have moved (stage : FetchStage) (next : tasks { task with stage }) :
      ∀ other ∈ (rt.fetcher.move task stage).tasks, other ∈ rt.fetcher.tasks ∨ tasks other := by
    intro other inside
    rcases List.mem_cons.mp inside with rfl | old
    · exact .inr next
    · exact .inl (List.mem_of_mem_erase old)
  have silent {rt' : Booth} {notices : List Notice} (events : rt'.events = rt.events)
      (silent : Silent notices) : ∀ sent ∈ (rt'.send notices).events, sent ∈ rt.events ∨
        (sent.event.readyKind.isSome = true → ready sent.toNotice) := by
    intro sent inside
    rcases sendEvents inside with old | ⟨notice,new,rfl⟩
    · exact .inl (events ▸ old)
    · refine .inr fun announces => ?_
      rw [silent notice new] at announces
      cases announces
  cases step with
  | advance stage alive unchecked =>
    exact places.move (by simp +contextual) (by simpa using moved _ (moves.advance task stage holds unchecked))
      (silent rfl silentNone)
  | check answer answered current =>
    exact places.move (by simp +contextual)
      (by simpa using moved _ (moves.check task answer holds (clears answer answered current)))
      (silent rfl silentNone)
  | store answer source checked =>
    exact places.move (by simp +contextual)
      (by simpa using moved _ (moves.store task answer holds checked)) (silent rfl silentNone)
  | announce answer checked =>
    have gone := moves.advance task .done holds rfl
    refine places.move (by simp +contextual) (by simpa using moved _ gone) ?_
    intro sent inside
    rcases sendEvents inside with old | ⟨notice,new,rfl⟩
    · exact .inl old
    · obtain rfl := List.mem_singleton.mp new
      exact .inr fun _ => moves.announce task answer holds checked
  | fail reason =>
    have gone := moves.advance task .done holds rfl
    exact places.move (by simp +contextual) (by simpa using moved _ gone)
      (silent rfl (silentOne (readyKindFailed _ _)))

theorem shutdownPlaces (places : Places aside tasks ready rt)
    (done : rt.advanceShutdown = some rt') : Places aside tasks ready rt' := by
  cases shutdownCases done with
  | deafen => exact places.move (fun _ => .inl) (fun _ => .inl) (by simp)
  | leave => exact places.move (fun _ => .inl) (by simp) (fun _ => .inl)
  | _ => exact places.still rfl rfl rfl

theorem quietPlaces (places : Places aside tasks ready rt)
    (moves : Moves aside tasks ready rt label rt')
    (step : BoothStep rt label rt') (quiet : isQuiet label = true) :
    Places aside tasks ready rt' := by
  cases step with
  | handle | reconcile | restart => cases quiet
  | sense outside => exact places.keep rfl rfl rfl (outsideSilent outside)
  | gate accepting invalidates =>
    refine places.still rfl ?_ rfl
    cases invalidates <;> rfl
  | skip received stopping other => exact places.still rfl rfl rfl
  | defer received operator =>
    have waits := Channel.receivedWaits received
    obtain ⟨_,_,_,taken⟩ := Channel.receiveCases received
    refine places.move ?_ (fun _ => .inl) (fun _ => .inl)
    intro next mem
    rcases List.mem_append.mp mem with old | new
    · exact .inl old
    · rw [List.mem_singleton.mp new]
      exact .inr (moves.defer _ waits taken)
  | execute received live done =>
    rename_i reply number emitted effects
    have waits := Channel.receivedWaits received
    obtain ⟨_,_,_,taken⟩ := Channel.receiveCases received
    have left : Places aside tasks ready { rt with effects } := places.still rfl rfl rfl
    have effects_ := executeEffects done
    exact executePlaces left done fun kind => moves.dispatch _ _ kind waits (effects_ ▸ taken)
  | forget waiting stopping other =>
    refine places.move ?_ (fun _ => .inl) (fun _ => .inl)
    intro next mem
    exact .inl (by rw [waiting]; exact List.mem_cons_of_mem _ mem)
  | resume waiting live done =>
    rename_i reply next rest
    have left : Places aside tasks ready { rt with pendingOperatorEffects := rest } := by
      refine places.move ?_ (fun _ => .inl) (fun _ => .inl)
      intro next mem
      exact .inl (by rw [waiting]; exact List.mem_cons_of_mem _ mem)
    have held := places.aside next (by rw [waiting]; exact List.mem_cons_self)
    exact executePlaces left done fun kind => moves.resume next kind held
  | fetch done =>
    obtain ⟨task,found,taken⟩ := fetchStepCases done
    obtain ⟨mem,named⟩ := findCases found
    refine fetchPlaces places moves mem taken ?_
    intro answer answered current
    simp [clears,found,answered,current,named]
  | upload done => exact places.keep rfl rfl rfl (uploadOutcomes done).silent
  | cancelFetch stopping done =>
    obtain ⟨task,mem,rfl⟩ := cancelCases done
    refine places.move (fun _ => .inl) ?_ (fun _ => .inl)
    intro other inside
    rcases List.mem_cons.mp inside with rfl | old
    · exact .inr (moves.advance task .done (places.tasks task mem) rfl)
    · exact .inl (List.mem_of_mem_erase old)
  | joinFetch done => exact places.move (fun _ => .inl) (fun _ mem => .inl (joinTasks done mem)) (fun _ => .inl)
  | pulseTimeout armed => exact places.keep rfl rfl rfl (silentOne rfl)
  | recordingTimeout done => exact places.keep rfl rfl rfl (fireSilent done)
  | speaker done => exact places.keep rfl rfl rfl (speakerSilent done)
  | shutdown done => exact shutdownPlaces places done
  | spawn | cancelUpload | joinUpload | enqueued | dequeued | replay =>
    exact places.still rfl rfl rfl

end Places

end TelephoneBooth
