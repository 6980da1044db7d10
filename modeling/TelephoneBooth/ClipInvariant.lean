import TelephoneBooth.ClipSlot

/-! What keeps the slot and the announcements together. Numbers carry the argument: an effect
that waits comes after every one taken, so nothing that waits can touch a slot whose last
touch has been taken. -/
namespace TelephoneBooth
open Booth State Event Effect

structure Counted (rt : Booth) : Prop where
  once : ∀ n, rt.liveFetches.count n ≤ 1
  emitted : ∀ n ∈ rt.liveFetches, n < rt.effects.log.length
  taken : Places (fun next => next.number < rt.effects.taken)
    (fun task => task.number < rt.effects.taken)
    (fun notice => ∃ n, notice.origin = some n ∧ n < rt.effects.taken) rt

/- In the dial tone: only the newest fetch can be past its check, and its clip is in the slot. -/
structure Tone (rt : Booth) : Prop where
  newest : ∀ n ∈ rt.clearedFetches, rt.lastTouch = some n
  stored : ∀ task ∈ rt.fetcher.tasks, ∀ answer, task.stage = .stored answer →
    ∃ clip ∈ rt.fetcher.nextRemoteAudio,
      clip.notice = { event := task.kind.ready answer, origin := some task.number }
  ready : ∀ sent ∈ rt.events, sent.event.readyKind.isSome = true →
    ∃ clip ∈ rt.fetcher.nextRemoteAudio, clip.notice = sent.toNotice

structure ClipRests (rt : Booth) (clip : StoredClip) : Prop where
  slot : rt.fetcher.nextRemoteAudio = some clip
  newest : rt.lastTouch = some clip.fetch
  taken : clip.fetch < rt.effects.taken
  spent : clip.fetch ∉ rt.liveFetches
  alone : NoneCleared rt

structure Finds (rt : Booth) (u : Nat) (emitted : Emitted) : Prop where
  slot : ∃ clip ∈ rt.fetcher.nextRemoteAudio, emitted.announced = some clip.notice
  alone : NoneCleared rt
  first : ∀ k other, k < u → rt.effects.Waits k other → touches other.effect = false

structure Sounded (rt : Booth) (bound : Nat) (notice : Notice) : Prop where
  waiting : ∀ u emitted, u < bound → rt.effects.Waits u emitted → isUse emitted.effect = true →
    emitted.announced = some notice
  heard : (∀ u emitted, u < bound → rt.effects.Waits u emitted → isUse emitted.effect = false) →
    ∃ clip ∈ rt.fetcher.resolved, clip.notice = notice

structure ClipInvariant (rt : Booth) : Prop where
  counted : Counted rt
  tone : rt.state = dialTone → Tone rt
  rings : ∀ q, rt.state = ringingQuestion q → ∃ clip, ClipRests rt clip ∧
    rt.announced = some clip.notice ∧ clip.ready = questionReady q
  uses : ∀ u emitted, rt.effects.Waits u emitted → isUse emitted.effect = true → Finds rt u emitted
  asked : ∀ q, rt.state = playingQuestion q ∨ rt.state = State.beep q →
    ∃ notice, rt.announced = some notice ∧ notice.event = questionReady q ∧
      Sounded rt rt.effects.log.length notice
  starts : ∀ s emitted, rt.effects.Waits s emitted → emitted.effect = startRecording →
    ∃ notice, emitted.announced = some notice ∧ Sounded rt s notice

theorem waitsUntouched {rt : Booth} {n k : Nat} {emitted : Emitted} (last : rt.lastTouch = some n)
    (taken : n < rt.effects.taken) (waits : rt.effects.Waits k emitted) :
    touches emitted.effect = false := by
  by_contra touched
  have low : k ≤ n := latestGreatest touching last waits.2 (by simpa [touching] using touched)
  have high := waits.1
  omega

theorem quietTouch {rt rt' : Booth} (still : CoreStill rt rt') : rt'.lastTouch = rt.lastTouch := by
  rw [lastTouch,lastTouch,still.log]

theorem sendTouch (rt : Booth) (notices : List Notice) :
    (rt.send notices).lastTouch = rt.lastTouch := by
  rw [lastTouch,lastTouch,sendEffects]

theorem clearedAlive {task : FetchTask} (generation : Nat) (cleared : task.cleared = true) :
    task.live generation = true := by
  unfold FetchTask.cleared at cleared
  unfold FetchTask.live
  split at cleared
  · rename_i same; rw [same]
  · rename_i same; rw [same]
  · cases cleared

theorem flightLive {rt : Booth} {task : FetchTask} (mem : task ∈ rt.fetcher.tasks)
    (alive : task.live rt.fetcher.generation = true) : task.number ∈ rt.liveFetches := by
  have inside : task.number ∈ rt.fetcher.inFlight :=
    List.mem_map_of_mem (List.mem_filter.mpr ⟨mem,alive⟩)
  exact List.mem_append_right _ (List.mem_append_left _ (List.mem_append_right _ inside))

theorem clearedLive {rt : Booth} {task : FetchTask} (mem : task ∈ rt.fetcher.tasks)
    (cleared : task.cleared = true) : task.number ∈ rt.liveFetches :=
  flightLive mem (clearedAlive _ cleared)

theorem clearedOnce {rt : Booth} (counted : Counted rt) {task other : FetchTask}
    (mem : task ∈ rt.fetcher.tasks) (cleared : task.cleared = true)
    (rest : other ∈ rt.fetcher.tasks.erase task) (checked : other.cleared = true) :
    other.number ≠ task.number := by
  intro same
  have once := counted.once task.number
  have flight := inFlightCount mem task.number
  rw [if_pos ⟨clearedAlive _ cleared,rfl⟩] at flight
  have listed : task.number ∈ ((rt.fetcher.tasks.erase task).filter
      (FetchTask.live rt.fetcher.generation)).map FetchTask.number :=
    List.mem_map.mpr ⟨other,List.mem_filter.mpr ⟨rest,clearedAlive _ checked⟩,same⟩
  have more := List.count_pos_iff.mpr listed
  rw [liveCount] at once
  omega

theorem announcedOnce {rt : Booth} (counted : Counted rt) {task : FetchTask}
    (mem : task ∈ rt.fetcher.tasks) (cleared : task.cleared = true)
    (announced : task.number ∈ rt.announcedFetches) : False := by
  have once := counted.once task.number
  have flight : task.number ∈ rt.fetcher.inFlight :=
    List.mem_map_of_mem (List.mem_filter.mpr ⟨mem,clearedAlive _ cleared⟩)
  have first := List.count_pos_iff.mpr flight
  have second := List.count_pos_iff.mpr announced
  rw [liveCount] at once
  omega

theorem TasksStill.cleared {rt rt' : Booth} (still : TasksStill rt rt') {n : Nat}
    (mem : n ∈ rt'.clearedFetches) : n ∈ rt.clearedFetches := by
  rcases List.mem_append.mp mem with flying | announced
  · obtain ⟨task,inside,rfl⟩ := List.mem_map.mp flying
    obtain ⟨inside,cleared⟩ := List.mem_filter.mp inside
    exact clearedMem (still.tasks task inside cleared) cleared
  · obtain ⟨sent,inside,fetch⟩ := List.mem_filterMap.mp announced
    unfold Notice.fetch at fetch
    split at fetch
    · rename_i ready
      exact List.mem_append_right _ (announcedMem (still.ready sent inside ready) ready fetch)
    · cases fetch

theorem TasksStill.none {rt rt' : Booth} (still : TasksStill rt rt') (alone : NoneCleared rt) :
    NoneCleared rt' := by
  intro task mem
  by_contra cleared
  have cleared_ : task.cleared = true := by simpa using cleared
  have before := alone task (still.tasks task mem cleared_)
  exact cleared before

theorem quietCounted {rt rt' : Booth} {label : Label} (counted : Counted rt)
    (step : BoothStep rt label rt') (quiet : isQuiet label = true) : Counted rt' := by
  have fewer := fewerStep step quiet
  have grows := quietTaken step quiet
  have places : Places (fun next => next.number < rt'.effects.taken)
      (fun task => task.number < rt'.effects.taken)
      (fun notice => ∃ n, notice.origin = some n ∧ n < rt'.effects.taken) rt := by
    refine ⟨fun next mem => ?_,fun task mem => ?_,fun sent mem ready => ?_⟩
    · exact Nat.lt_of_lt_of_le (counted.taken.aside next mem) grows
    · exact Nat.lt_of_lt_of_le (counted.taken.tasks task mem) grows
    · obtain ⟨n,origin,low⟩ := counted.taken.ready sent mem ready
      exact ⟨n,origin,Nat.lt_of_lt_of_le low grows⟩
  refine ⟨fun n => ?_,fun n mem => ?_,quietPlaces places ?_ step quiet⟩
  · have less : rt'.liveFetches.count n ≤ rt.liveFetches.count n := fewer n
    exact Nat.le_trans less (counted.once n)
  · rw [(quietStill step quiet).log]
    exact counted.emitted n (Fewer.mem fewer mem)
  · constructor
    · intro next _ taken; omega
    · intro number emitted kind _ taken _; exact taken ▸ Nat.lt_succ_self number
    · intro next kind low _; exact low
    · intro task stage low _; exact low
    · intro task answer low _; exact low
    · intro task answer low _; exact low
    · intro task answer low _; exact ⟨task.number,rfl,low⟩

structure QuietClip (rt : Booth) (label : Label) (rt' : Booth) : Prop where
  counted : Counted rt
  core : CoreStill rt rt'
  fewer : Fewer (fun _ => 0) rt rt'
  grows : rt.effects.taken ≤ rt'.effects.taken
  moves : ClipStep rt label rt'

section Quiet
variable {rt rt' : Booth} {label : Label}

theorem QuietClip.rests {clip : StoredClip} (step : QuietClip rt label rt') (rests : ClipRests rt clip)
    (passes : ∀ n ∈ rt.clears label, rt.lastTouch = some n) : ClipRests rt' clip := by
  have newest : rt'.lastTouch = some clip.fetch := (quietTouch step.core).trans rests.newest
  have taken := Nat.lt_of_lt_of_le rests.taken step.grows
  have spent : clip.fetch ∉ rt'.liveFetches := fun mem => rests.spent (Fewer.mem step.fewer mem)
  have untouched {n : Nat} {emitted : Emitted} (waits : rt.effects.Waits n emitted)
      (touched : touches emitted.effect = true) : False := by
    rw [waitsUntouched rests.newest rests.taken waits] at touched
    cases touched
  have checked {task : FetchTask} (mem : task ∈ rt.fetcher.tasks) (cleared : task.cleared = true) :
      False := by
    rw [rests.alone task mem] at cleared
    cases cleared
  cases step.moves with
  | calm still uses =>
    exact ⟨still.slot.trans rests.slot,newest,taken,spent,still.toTasksStill.none rests.alone⟩
  | use waits first _ reads => exact (untouched waits (useTouches reads)).elim
  | stop waits first _ stops => exact (untouched waits (by rw [stops]; rfl)).elim
  | check mem clears alive =>
    have last := passes _ clears
    rw [rests.newest] at last
    obtain same := Option.some.inj last
    exact (rests.spent (same ▸ flightLive mem alive)).elim
  | store mem checked_ => exact (checked mem (by simp [FetchTask.cleared,checked_])).elim
  | announce mem checked_ => exact (checked mem (by simp [FetchTask.cleared,checked_])).elim

theorem QuietClip.finds {u : Nat} {emitted : Emitted} (step : QuietClip rt label rt')
    (finds : Finds rt u emitted) (reads : isUse emitted.effect = true)
    (waits : rt.effects.Waits u emitted) (waits' : rt'.effects.Waits u emitted)
    (passes : ∀ n ∈ rt.clears label, rt.lastTouch = some n) : Finds rt' u emitted := by
  have first : ∀ k other, k < u → rt'.effects.Waits k other → touches other.effect = false := by
    intro k other before waiting
    refine finds.first k other before ⟨Nat.le_trans step.grows waiting.1,?_⟩
    rw [← step.core.log]
    exact waiting.2
  have leads {n : Nat} {other : Emitted} (here : rt.effects.Waits n other)
      (taken : rt'.effects.taken = n + 1) (touched : touches other.effect = true) : False := by
    have later := waits'.1
    rw [finds.first n other (by omega) here] at touched
    cases touched
  have checked {task : FetchTask} (mem : task ∈ rt.fetcher.tasks) (cleared : task.cleared = true) :
      False := by
    rw [finds.alone task mem] at cleared
    cases cleared
  cases step.moves with
  | calm still uses =>
    exact ⟨still.slot ▸ finds.slot,still.toTasksStill.none finds.alone,first⟩
  | use here _ taken reads => exact (leads here taken (useTouches reads)).elim
  | stop here _ taken stops => exact (leads here taken (by rw [stops]; rfl)).elim
  | check mem clears alive =>
    have last := passes _ clears
    have low := step.counted.taken.tasks _ mem
    have touched := useTouches reads
    rw [waitsUntouched last low waits] at touched
    cases touched
  | store mem checked_ => exact (checked mem (by simp [FetchTask.cleared,checked_])).elim
  | announce mem checked_ => exact (checked mem (by simp [FetchTask.cleared,checked_])).elim

theorem QuietClip.sounded {bound : Nat} {notice : Notice} (step : QuietClip rt label rt')
    (sounded : Sounded rt bound notice) (below : rt'.effects.taken ≤ bound)
    (uses : ∀ u emitted, rt.effects.Waits u emitted → isUse emitted.effect = true →
      Finds rt u emitted) : Sounded rt' bound notice := by
  have back {u : Nat} {emitted : Emitted} (waits : rt'.effects.Waits u emitted) :
      rt.effects.Waits u emitted :=
    ⟨Nat.le_trans step.grows waits.1,by rw [← step.core.log]; exact waits.2⟩
  refine ⟨fun u emitted low waits => sounded.waiting u emitted low (back waits),fun none_ => ?_⟩
  -- a use that still waits after the step would contradict `none_`
  have gone (resolved : rt'.fetcher.resolved = rt.fetcher.resolved)
      (kept : ∀ u emitted, rt.effects.Waits u emitted → isUse emitted.effect = true →
        rt'.effects.Waits u emitted) : ∃ clip ∈ rt'.fetcher.resolved, clip.notice = notice := by
    rw [resolved]
    refine sounded.heard fun u emitted low waits => ?_
    by_contra reads
    have reads_ : isUse emitted.effect = true := by simpa using reads
    exact reads (none_ u emitted low (kept u emitted waits reads_))
  cases step.moves with
  | calm still kept => exact gone still.resolved kept
  | use here first taken reads still resolved =>
    obtain ⟨clip,slot,announced⟩ := (uses _ _ here reads).slot
    have told := sounded.waiting _ _ (by omega) here reads
    rw [announced] at told
    exact ⟨clip,resolved ▸ slot,Option.some.inj told⟩
  | stop here first taken stops still resolved =>
    rename_i number halt
    refine gone resolved fun u emitted waits reads => ?_
    have apart : u ≠ number := by
      rintro rfl
      obtain rfl : halt = emitted := Option.some.inj (here.2.symm.trans waits.2)
      rw [stops] at reads
      cases reads
    have later := waits.1
    exact ⟨by omega,by rw [step.core.log]; exact waits.2⟩
  | check mem clears alive moved => subst moved; exact gone rfl fun _ _ waits _ => waits
  | store mem checked moved => subst moved; exact gone rfl fun _ _ waits _ => waits
  | announce mem checked moved =>
    subst moved
    exact gone (by simp [Fetcher.move]) (by simp +contextual)

theorem clearedMove {rt : Booth} {task : FetchTask} {stage : FetchStage} {n : Nat}
    (mem : n ∈ ({ rt with fetcher := rt.fetcher.move task stage } : Booth).clearedFetches) :
    n = task.number ∨ n ∈ rt.clearedFetches := by
  rcases List.mem_append.mp mem with flying | announced
  · obtain ⟨other,inside,rfl⟩ := List.mem_map.mp flying
    obtain ⟨inside,cleared⟩ := List.mem_filter.mp inside
    rcases List.mem_cons.mp inside with rfl | old
    · exact .inl rfl
    · exact .inr (clearedMem (List.mem_of_mem_erase old) cleared)
  · exact .inr (List.mem_append_right _ announced)

theorem Tone.emptied {number : Nat} {emitted : Emitted} (counted : Counted rt) (tone : Tone rt)
    (waits : rt.effects.Waits number emitted) (touched : touches emitted.effect = true) :
    rt.clearedFetches = [] := by
  rw [List.eq_nil_iff_forall_not_mem]
  intro n mem
  have low : n < rt.effects.taken := by
    rcases List.mem_append.mp mem with flying | announced
    · obtain ⟨task,inside,rfl⟩ := List.mem_map.mp flying
      exact counted.taken.tasks task (List.mem_of_mem_filter inside)
    · obtain ⟨sent,inside,fetch⟩ := List.mem_filterMap.mp announced
      unfold Notice.fetch at fetch
      split at fetch
      · rename_i ready
        obtain ⟨m,origin,low⟩ := counted.taken.ready sent inside ready
        rw [show sent.origin = some n from fetch] at origin
        cases origin
        exact low
      · cases fetch
  rw [waitsUntouched (tone.newest n mem) low waits] at touched
  cases touched

theorem toneNone (places : Counted rt) (none_ : rt.clearedFetches = []) : Tone rt := by
  refine ⟨fun n mem => ?_,fun task mem answer stored => ?_,fun sent mem ready => ?_⟩
  · rw [none_] at mem
    cases mem
  · have listed := clearedMem mem (show task.cleared = true by simp [FetchTask.cleared,stored])
    rw [none_] at listed
    cases listed
  · obtain ⟨n,origin,_⟩ := places.taken.ready sent mem ready
    have listed : n ∈ rt.clearedFetches := List.mem_append_right _ (announcedMem mem ready origin)
    rw [none_] at listed
    cases listed

theorem TasksStill.nil (still : TasksStill rt rt') (none_ : rt.clearedFetches = []) :
    rt'.clearedFetches = [] := by
  rw [List.eq_nil_iff_forall_not_mem]
  intro n mem
  have before := still.cleared mem
  rw [none_] at before
  cases before

theorem Tone.checks {task : FetchTask} {answer : ClipAnswer} (tone : Tone rt)
    (clears : rt.clears label = some task.number)
    (passes : ∀ n ∈ rt.clears label, rt.lastTouch = some n) :
    Tone { rt with fetcher := rt.fetcher.move task (.current answer) } := by
  refine ⟨fun n listed => ?_,fun other inside answer stored => ?_,tone.ready⟩
  · rcases clearedMove listed with rfl | old
    · exact passes _ clears
    · exact tone.newest n old
  · rcases List.mem_cons.mp inside with rfl | old
    · cases stored
    · exact tone.stored other (List.mem_of_mem_erase old) answer stored

theorem Tone.stores {task : FetchTask} {answer : ClipAnswer} {source : AudioRef}
    (counted : Counted rt) (tone : Tone rt) (mem : task ∈ rt.fetcher.tasks)
    (checked : task.stage = .current answer) :
    Tone { rt with fetcher := { rt.fetcher.move task (.stored answer) with
      nextRemoteAudio := some ⟨source,task.number,task.kind.ready answer⟩ } } := by
  have cleared : task.cleared = true := by simp [FetchTask.cleared,checked]
  have last := tone.newest _ (clearedMem mem cleared)
  refine ⟨fun n listed => ?_,fun other inside reply stored => ?_,fun sent inside ready => ?_⟩
  · rcases clearedMove listed with rfl | old
    · exact last
    · exact tone.newest n old
  · rcases List.mem_cons.mp inside with rfl | old
    · cases stored
      exact ⟨_,rfl,rfl⟩
    · -- two clips past the check would be the same fetch
      have checked_ : other.cleared = true := by simp [FetchTask.cleared,stored]
      have other_ := tone.newest _ (clearedMem (List.mem_of_mem_erase old) checked_)
      exact (clearedOnce counted mem cleared old checked_
        (Option.some.inj (other_.symm.trans last))).elim
  · obtain ⟨n,origin,_⟩ := counted.taken.ready sent inside ready
    have listed := announcedMem inside ready origin
    have same := Option.some.inj ((tone.newest n (List.mem_append_right _ listed)).symm.trans last)
    exact (announcedOnce counted mem cleared (same ▸ listed)).elim

theorem Tone.announces {task : FetchTask} {answer : ClipAnswer} (tone : Tone rt)
    (mem : task ∈ rt.fetcher.tasks) (checked : task.stage = .stored answer) :
    Tone (({ rt with fetcher := rt.fetcher.move task .done } : Booth).send
      [{ event := task.kind.ready answer, origin := some task.number }]) := by
  have cleared : task.cleared = true := by simp [FetchTask.cleared,checked]
  have clip := tone.stored task mem answer checked
  have newest := tone.newest _ (clearedMem mem cleared)
  refine ⟨fun n listed => ?_,fun other inside reply stored => ?_,fun sent inside ready => ?_⟩
  · rw [sendTouch]
    rcases List.mem_append.mp listed with flying | announced
    · rw [sendFetcher] at flying
      rcases clearedMove (List.mem_append_left _ flying) with rfl | old
      · exact newest
      · exact tone.newest n old
    · obtain ⟨sent,inside,fetch⟩ := List.mem_filterMap.mp announced
      rcases sendEvents inside with old | ⟨notice,new,rfl⟩
      · exact tone.newest n (List.mem_append_right _ (List.mem_filterMap.mpr ⟨sent,old,fetch⟩))
      · obtain rfl := List.mem_singleton.mp new
        rw [show Notice.fetch _ = some task.number from readyFetch _ _ _] at fetch
        cases fetch
        exact newest
  · rw [sendFetcher] at inside ⊢
    rcases List.mem_cons.mp inside with rfl | old
    · cases stored
    · exact tone.stored other (List.mem_of_mem_erase old) reply stored
  · rw [sendFetcher]
    rcases sendEvents inside with old | ⟨notice,new,rfl⟩
    · exact tone.ready sent old ready
    · obtain rfl := List.mem_singleton.mp new
      exact clip

theorem QuietClip.tone (step : QuietClip rt label rt') (later : Counted rt') (tone : Tone rt)
    (passes : ∀ n ∈ rt.clears label, rt.lastTouch = some n) : Tone rt' := by
  cases step.moves with
  | calm still uses =>
    refine ⟨fun n mem => ?_,fun task mem answer stored => ?_,fun sent mem ready => ?_⟩
    · exact (quietTouch step.core).trans (tone.newest n (still.cleared mem))
    · rw [still.slot]
      exact tone.stored task (still.tasks task mem (by simp [FetchTask.cleared,stored])) answer stored
    · rw [still.slot]
      exact tone.ready sent (still.ready sent mem ready) ready
  | use waits _ _ reads still =>
    exact toneNone later (still.nil (tone.emptied step.counted waits (useTouches reads)))
  | stop waits _ _ stops still =>
    exact toneNone later (still.nil (tone.emptied step.counted waits (by rw [stops]; rfl)))
  | check _ clears _ moved => exact moved ▸ tone.checks clears passes
  | store mem checked moved => exact moved ▸ tone.stores step.counted mem checked
  | announce mem checked moved => exact moved ▸ tone.announces mem checked

theorem quietClip (invariant : ClipInvariant rt) (step : BoothStep rt label rt')
    (quiet : isQuiet label = true) (running : rt'.phase = .running)
    (passes : ∀ n ∈ rt.clears label, rt.state.expectsClip = true ∨
      rt.effects.pending readsSlot ≠ [] → rt.lastTouch = some n) : ClipInvariant rt' := by
  have counted := quietCounted invariant.counted step quiet
  have core := quietStill step quiet
  have move : QuietClip rt label rt' := ⟨invariant.counted,core,fewerStep step quiet,
    quietTaken step quiet,clipStepCases step quiet running⟩
  refine ⟨counted,?_,?_,?_,?_,?_⟩
  · intro dialing
    rw [core.state] at dialing
    exact move.tone counted (invariant.tone dialing) fun n clears =>
      passes n clears (.inl (by rw [dialing]; rfl))
  · intro q ringing
    rw [core.state] at ringing
    obtain ⟨clip,rests,announced,about⟩ := invariant.rings q ringing
    refine ⟨clip,move.rests rests ?_,core.announced.trans announced,about⟩
    exact fun n clears => passes n clears (.inl (by rw [ringing]; rfl))
  · intro u emitted waits reads
    have before := waitsBack step quiet waits
    refine move.finds (invariant.uses u emitted before reads) reads before waits ?_
    refine fun n clears => passes n clears (.inr ?_)
    exact List.ne_nil_of_mem (Channel.pendingMem.mpr ⟨emitted,before,reads⟩)
  · intro q playing
    rw [core.state] at playing
    obtain ⟨notice,announced,about,sounded⟩ := invariant.asked q playing
    refine ⟨notice,core.announced.trans announced,about,?_⟩
    rw [core.log]
    exact move.sounded sounded (core.log ▸ rt'.effects.bounded) invariant.uses
  · intro s emitted waits starting
    have before := waitsBack step quiet waits
    obtain ⟨notice,announced,sounded⟩ := invariant.starts s emitted before starting
    exact ⟨notice,announced,move.sounded sounded waits.1 invariant.uses⟩

end Quiet

end TelephoneBooth
