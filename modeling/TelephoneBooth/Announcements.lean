import TelephoneBooth.ClipInvariant
import TelephoneBooth.Recordings

/-! The clip that was announced and the clip that is played. One slot carries the clip while
the event carries only its id; they stay together as long as the last fetch the core asked
for is the only one that can still fill the slot. -/
namespace TelephoneBooth
open Booth State Event Effect

def Listens (rt after : Booth) : Prop :=
  after.state = dialTone ∧ (rt.state ≠ dialTone ∨
    ∃ emitted ∈ after.effects.log.drop rt.effects.log.length,
      emitted.effect.fetchKind.isSome = true)

/- While a clip is expected or a `Play` of the slot waits, only the fetch emitted last, with
no `StopAudio` or `Play` of the slot behind it, passes its token check; and when the core begins
to listen, no earlier fetch is past its check and still to be heard of. -/
def OneClipAtATime (rt : Booth) (label : Label) (after : Booth) : Prop :=
  (∀ number ∈ rt.clears label,
    rt.state.expectsClip = true ∨ rt.effects.pending readsSlot ≠ [] → rt.lastTouch = some number) ∧
  match label with
  | .handle => Listens rt after → ({ rt with events := rt.events.tail } : Booth).clearedFetches = []
  | .reconcile => Listens rt after → rt.clearedFetches = []
  | _ => True

def OrdersAnnounced (rt after : Booth) : Prop :=
  ∀ emitted ∈ after.effects.log.drop rt.effects.log.length,
    isUse emitted.effect = true ∨ emitted.effect = startRecording →
      ∃ notice ∈ emitted.announced, after.state.toldBy = some notice.event

/-- `effect_task` plays from the slot the clip whose announcement the core acted on, and starts
a recording only after that clip was the last it played from there. -/
def AnnouncedClipPlays (rt : Booth) (label : Label) (after : Booth) : Prop :=
  match label, rt.effects.receive with
  | .take _, some ((_,emitted),_) => rt.phase = .running →
      (isUse emitted.effect = true → ∃ clip ∈ rt.fetcher.nextRemoteAudio,
        emitted.announced = some clip.notice) ∧
      (emitted.effect = startRecording → ∃ clip ∈ rt.fetcher.resolved,
        emitted.announced = some clip.notice)
  | .handle, _ => OrdersAnnounced rt after
  | .reconcile, _ => OrdersAnnounced rt after
  | _, _ => True

instance (rt after : Booth) : Decidable (Listens rt after) :=
  inferInstanceAs (Decidable (_ ∧ (_ ∨ ∃ emitted ∈ _, _)))

instance (rt after : Booth) : Decidable (OrdersAnnounced rt after) :=
  inferInstanceAs (Decidable (∀ emitted ∈ _, _))

instance (rt : Booth) (label : Label) (after : Booth) :
    Decidable (OneClipAtATime rt label after) := by
  unfold OneClipAtATime
  split <;> infer_instance

instance (rt : Booth) (label : Label) (after : Booth) :
    Decidable (AnnouncedClipPlays rt label after) := by
  unfold AnnouncedClipPlays
  generalize rt.effects.receive = received
  rcases label with _ | _ <;> rcases received with _ | ⟨⟨_,_⟩,_⟩ <;> infer_instance

section Handle
variable {rt : Booth} {event : Event} {origin : Option Nat}

theorem handleNew {u : Nat} {emitted : Emitted}
    (waits : (rt.handleEvent event origin).effects.Waits u emitted) :
    rt.effects.Waits u emitted ∧ u < rt.effects.log.length ∨
      rt.effects.log.length ≤ u ∧ emitted.announced = rt.announcedBy event origin ∧
        (coreStep rt.state (event,rt.accepting)).2[u - rt.effects.log.length]? =
          some emitted.effect := by
  refine (Channel.waitsSent waits).imp id fun ⟨new,found⟩ => ⟨new,?_⟩
  obtain ⟨effect,listed,rfl⟩ := List.getElem?_map .. ▸ found |> Option.map_eq_some_iff.mp
  exact ⟨rfl,listed⟩

theorem handleTouch
    (quiet : ∀ effect ∈ (coreStep rt.state (event,rt.accepting)).2, touches effect = false) :
    (rt.handleEvent event origin).lastTouch = rt.lastTouch := by
  have none_ : numbered touching rt.effects.log.length (emits rt event origin) = [] := by
    refine numberedNone touching fun item mem => ?_
    obtain ⟨effect,inside,rfl⟩ := List.mem_map.mp mem
    exact quiet effect inside
  rw [lastTouch,lastTouch,handleEffects,show (Channel.send _ _).log = _ ++ _ from rfl,latestAppend]
  rw [emits] at none_
  rw [none_]
  rfl

theorem handleCounted (counted : Counted rt) : Counted (rt.handleEvent event origin) := by
  have size : (rt.handleEvent event origin).effects.log.length = rt.effects.log.length +
      (coreStep rt.state (event,rt.accepting)).2.length := by
    rw [handleEffects,show (Channel.send _ _).log = _ ++ _ from rfl,List.length_append,List.length_map]
  refine ⟨fun n => ?_,fun n mem => ?_,counted.taken.aside,counted.taken.tasks,counted.taken.ready⟩
  · rw [handleLive]
    by_cases old : n ∈ rt.liveFetches
    · have new : n ∉ fetchesFrom rt.effects.log.length (coreStep rt.state (event,rt.accepting)).2 := by
        intro mem
        have high := ((numberedMem _).mp mem).1
        have low := counted.emitted n old
        omega
      rw [List.count_eq_zero_of_not_mem new]
      exact counted.once n
    · rw [List.count_eq_zero_of_not_mem old,Nat.zero_add]
      exact numberedOnce _ _ _ _
  · rw [size]
    have present := List.count_pos_iff.mpr mem
    rw [handleLive] at present
    by_cases old : n ∈ rt.liveFetches
    · have low := counted.emitted n old
      omega
    · rw [List.count_eq_zero_of_not_mem old,Nat.zero_add] at present
      obtain ⟨low,effect,found,_⟩ := (numberedMem _).mp (List.count_pos_iff.mp present)
      obtain ⟨inside,_⟩ := List.getElem?_eq_some_iff.mp found
      omega

theorem handleRests {clip : StoredClip} (rests : ClipRests rt clip)
    (quiet : ∀ effect ∈ (coreStep rt.state (event,rt.accepting)).2, touches effect = false) :
    ClipRests (rt.handleEvent event origin) clip := by
  refine ⟨rests.slot,(handleTouch quiet).trans rests.newest,rests.taken,fun mem => ?_,rests.alone⟩
  rcases handleLiveMem mem with old | new
  · exact rests.spent old
  · have low := rests.taken
    have fits := rt.effects.bounded
    omega

theorem handleSounded {bound : Nat} {notice : Notice} (sounded : Sounded rt bound notice)
    (inside : bound ≤ rt.effects.log.length) : Sounded (rt.handleEvent event origin) bound notice := by
  constructor
  · intro u emitted low waits reads
    rcases handleNew waits with ⟨old,_⟩ | ⟨new,_⟩
    · exact sounded.waiting u emitted low old reads
    · omega
  · intro none_
    exact sounded.heard fun u emitted low waits =>
      none_ u emitted low (Channel.sentWaits _ waits)

theorem soundedLater {bound : Nat} {notice : Notice}
    (sounded : Sounded rt rt.effects.log.length notice) (beyond : rt.effects.log.length ≤ bound)
    (quiet : ∀ effect ∈ (coreStep rt.state (event,rt.accepting)).2, touches effect = false) :
    Sounded (rt.handleEvent event origin) bound notice := by
  constructor
  · intro u emitted low waits reads
    rcases handleNew waits with ⟨old,inside⟩ | ⟨_,_,found⟩
    · exact sounded.waiting u emitted inside old reads
    · have touched := quiet _ (List.mem_of_getElem? found)
      rw [useTouches reads] at touched
      cases touched
  · intro none_
    exact sounded.heard fun u emitted low waits =>
      none_ u emitted (by omega) (Channel.sentWaits _ waits)

theorem handleFinds {u : Nat} {emitted : Emitted} (finds : Finds rt u emitted)
    (inside : u < rt.effects.log.length) : Finds (rt.handleEvent event origin) u emitted := by
  refine ⟨finds.slot,finds.alone,fun k other low waits => ?_⟩
  rcases handleNew waits with ⟨old,_⟩ | ⟨new,_⟩
  · exact finds.first k other low old
  · omega

def Accepts (rt : Booth) (event : Event) (origin : Option Nat) : Prop :=
  rt.state = dialTone → event.readyKind.isSome = true →
    ∃ clip, ClipRests rt clip ∧ clip.notice = { event, origin }

theorem keepsAnnounced (away : rt.state ≠ dialTone) : rt.announcedBy event origin = rt.announced := by
  unfold announcedBy
  exact if_neg fun both => away both.1

theorem takesAnnounced (tone : rt.state = dialTone) (ready : event.readyKind.isSome = true) :
    rt.announcedBy event origin = some { event, origin } := by
  unfold announcedBy
  exact if_pos ⟨tone,ready⟩

theorem orderedClip (invariant : ClipInvariant rt) (accepts : Accepts rt event origin) {i : Nat}
    {effect : Effect} (found : (coreStep rt.state (event,rt.accepting)).2[i]? = some effect)
    (reads : isUse effect = true) : ∃ clip, ClipRests rt clip ∧
      rt.announcedBy event origin = some clip.notice ∧
      (rt.handleEvent event origin).state.toldBy = some clip.ready := by
  rcases ((stepClip rt.state (event,rt.accepting)).orders found reads).1 with
    ⟨tone,ready,told⟩ | ⟨q,ringing,playing⟩
  · obtain ⟨clip,rests,same⟩ := accepts tone ready
    refine ⟨clip,rests,(takesAnnounced tone ready).trans (congrArg some same.symm),?_⟩
    rw [show clip.ready = event from congrArg Notice.event same]
    exact told
  · obtain ⟨clip,rests,announced,about⟩ := invariant.rings q ringing
    refine ⟨clip,rests,(keepsAnnounced (by rw [ringing]; simp)).trans announced,?_⟩
    rw [about,handleState,playing]
    rfl

theorem orderedFinds (invariant : ClipInvariant rt) (accepts : Accepts rt event origin) {u : Nat}
    {emitted : Emitted} (waits : (rt.handleEvent event origin).effects.Waits u emitted)
    (reads : isUse emitted.effect = true) : Finds (rt.handleEvent event origin) u emitted := by
  rcases handleNew waits with ⟨old,inside⟩ | ⟨new,announced,found⟩
  · exact handleFinds (invariant.uses u emitted old reads) inside
  · obtain ⟨clip,rests,told,_⟩ := orderedClip invariant accepts found reads
    refine ⟨⟨clip,rests.slot,announced.trans told⟩,rests.alone,fun k other low waiting => ?_⟩
    rcases handleNew waiting with ⟨old,_⟩ | ⟨later,_,here⟩
    · exact waitsUntouched rests.newest rests.taken old
    · exact ((stepClip rt.state (event,rt.accepting)).orders found reads).2 _ _ (by omega) here

theorem orderedAsked (invariant : ClipInvariant rt) {q : QuestionId}
    (playing : (rt.handleEvent event origin).state = playingQuestion q ∨
      (rt.handleEvent event origin).state = State.beep q) :
    ∃ notice, (rt.handleEvent event origin).announced = some notice ∧
      notice.event = questionReady q ∧ Sounded (rt.handleEvent event origin)
        (rt.handleEvent event origin).effects.log.length notice := by
  rcases (stepClip rt.state (event,rt.accepting)).asks playing with
    ⟨before,quiet⟩ | ⟨ringing,effect,mem,reads⟩
  · obtain ⟨notice,announced,about,sounded⟩ := invariant.asked q before
    have away : rt.state ≠ dialTone := by rcases before with same | same <;> rw [same] <;> simp
    exact ⟨notice,(keepsAnnounced away).trans announced,about,
      soundedLater sounded (handleLog rt event origin) quiet⟩
  · obtain ⟨clip,rests,announced,about⟩ := invariant.rings q ringing
    have told : rt.announcedBy event origin = some clip.notice :=
      (keepsAnnounced (by rw [ringing]; simp)).trans announced
    refine ⟨clip.notice,told,about,fun u emitted low waits used => ?_,fun none_ => ?_⟩
    · rcases handleNew waits with ⟨old,_⟩ | ⟨_,same,_⟩
      · have touched := waitsUntouched rests.newest rests.taken old
        rw [useTouches used] at touched
        cases touched
      · exact same.trans told
    · obtain ⟨n,emitted,_,waits,same⟩ := emitsWaits origin mem
      have inside := (List.getElem?_eq_some_iff.mp waits.2).1
      have unread := none_ n emitted inside waits
      rw [same,reads] at unread
      cases unread

theorem orderedStart (invariant : ClipInvariant rt) {s : Nat} {emitted : Emitted}
    (waits : (rt.handleEvent event origin).effects.Waits s emitted)
    (starting : emitted.effect = startRecording) :
    ∃ notice, emitted.announced = some notice ∧
      Sounded (rt.handleEvent event origin) s notice ∧
      (rt.effects.log.length ≤ s →
        (rt.handleEvent event origin).state.toldBy = some notice.event) := by
  rcases handleNew waits with ⟨old,inside⟩ | ⟨new,announced,found⟩
  · obtain ⟨notice,told,sounded⟩ := invariant.starts s emitted old starting
    exact ⟨notice,told,handleSounded sounded (Nat.le_of_lt inside),fun late => by omega⟩
  · obtain ⟨q,beeping,recording_,quiet⟩ := (stepClip rt.state (event,rt.accepting)).starts
      (starting ▸ List.mem_of_getElem? found)
    obtain ⟨notice,told,about,sounded⟩ := invariant.asked q (.inr beeping)
    refine ⟨notice,?_,soundedLater sounded new quiet,fun _ => ?_⟩
    · exact announced.trans ((keepsAnnounced (by rw [beeping]; simp)).trans told)
    · rw [handleState,recording_,about]
      rfl

theorem handleClip (invariant : ClipInvariant rt) (accepts : Accepts rt event origin)
    (clean : Listens rt (rt.handleEvent event origin) → rt.clearedFetches = []) :
    ClipInvariant (rt.handleEvent event origin) := by
  have counted : Counted (rt.handleEvent event origin) := handleCounted invariant.counted
  refine ⟨counted,fun tone => ?_,fun q ringing => ?_,fun u emitted waits reads =>
    orderedFinds invariant accepts waits reads,fun q playing => orderedAsked invariant playing,
    fun s emitted waits starting => ?_⟩
  · have empty (listens : Listens rt (rt.handleEvent event origin)) :
        Tone (rt.handleEvent event origin) :=
      toneNone counted (show rt.clearedFetches = [] from clean listens)
    rcases (stepClip rt.state (event,rt.accepting)).listens tone with
      ⟨before,quiet⟩ | fresh | ⟨effect,mem,fetches⟩
    · have still := invariant.tone before
      exact ⟨fun n mem => (handleTouch quiet).trans (still.newest n mem),still.stored,still.ready⟩
    · exact empty ⟨tone,.inl fresh⟩
    · refine empty ⟨tone,.inr ⟨⟨effect,rt.announcedBy event origin⟩,?_,fetches⟩⟩
      rw [handleEffects,show (Channel.send _ _).log = _ ++ _ from rfl,List.drop_left]
      exact List.mem_map_of_mem mem
  · obtain ⟨before,quiet⟩ := (stepClip rt.state (event,rt.accepting)).rings ringing
    rcases before with same | ⟨dialing,news⟩
    · obtain ⟨clip,rests,announced,about⟩ := invariant.rings q same
      exact ⟨clip,handleRests rests quiet,
        (keepsAnnounced (by rw [same]; simp)).trans announced,about⟩
    · have ready : event.readyKind.isSome = true := by rw [show event = questionReady q from news]; rfl
      obtain ⟨clip,rests,same⟩ := accepts dialing ready
      exact ⟨clip,handleRests rests quiet,
        (takesAnnounced dialing ready).trans (congrArg some same.symm),
        (congrArg Notice.event same).trans news⟩
  · obtain ⟨notice,told,sounded,_⟩ := orderedStart invariant waits starting
    exact ⟨notice,told,sounded⟩

theorem handleOrders (invariant : ClipInvariant rt) (accepts : Accepts rt event origin) :
    OrdersAnnounced rt (rt.handleEvent event origin) := by
  intro emitted mem orders
  rw [handleEffects,show (Channel.send _ _).log = _ ++ _ from rfl,List.drop_left] at mem
  obtain ⟨i,found⟩ := List.mem_iff_getElem?.mp mem
  have waits := Channel.sentNew rt.effects found
  rcases orders with reads | starting
  · obtain ⟨effect,listed,rfl⟩ := List.mem_map.mp mem
    obtain ⟨j,here⟩ := List.mem_iff_getElem?.mp listed
    obtain ⟨clip,_,told,state⟩ := orderedClip invariant accepts here reads
    exact ⟨clip.notice,told,state⟩
  · have ordered : (rt.handleEvent event origin).effects.Waits (rt.effects.log.length + i) emitted :=
      waits
    obtain ⟨notice,told,_,state⟩ := orderedStart invariant ordered starting
    exact ⟨notice,told,state (Nat.le_add_right _ _)⟩

end Handle

theorem spentFetch {rt : Booth} {events : List Sent} (counted : Counted rt) {sent : Sent}
    (next : rt.events = sent :: events) {n : Nat} (fetch : sent.toNotice.fetch = some n) :
    n ∉ ({ rt with events } : Booth).liveFetches := by
  intro mem
  have once := counted.once n
  have here := List.count_pos_iff.mpr mem
  rw [nextLive next,fetch,Option.toList_some,List.count_singleton_self] at once
  omega

theorem fewerEvents {rt : Booth} {events : List Sent} {acceptingCalls : Bool}
    (invariant : ClipInvariant rt) (less : events.Sublist rt.events) :
    ClipInvariant { rt with events, acceptingCalls } := by
  have later : ∀ other ∈ events, other ∈ rt.events := fun other mem => less.subset mem
  have fewer (n : Nat) : ({ rt with events, acceptingCalls } : Booth).liveFetches.count n ≤
      rt.liveFetches.count n := by
    have announced := (less.filterMap fun sent => sent.toNotice.fetch).count_le n
    rw [liveCount,liveCount]
    exact Nat.add_le_add_left announced _
  have left {n : Nat} (mem : n ∈ ({ rt with events, acceptingCalls } : Booth).liveFetches) :
      n ∈ rt.liveFetches :=
    List.count_pos_iff.mp (Nat.lt_of_lt_of_le (List.count_pos_iff.mpr mem) (fewer n))
  have still : TasksStill rt { rt with events, acceptingCalls } :=
    ⟨fun _ mem _ => mem,fun other mem _ => later other mem⟩
  have counted := invariant.counted
  refine ⟨⟨fun n => Nat.le_trans (fewer n) (counted.once n),fun n mem => counted.emitted n (left mem),
    counted.taken.aside,counted.taken.tasks,fun other mem => counted.taken.ready other (later other mem)⟩,
    fun tone => ?_,fun q ringing => ?_,?_,fun q playing => ?_,fun s emitted waits starting => ?_⟩
  · have before := invariant.tone tone
    exact ⟨fun n mem => before.newest n (still.cleared mem),before.stored,
      fun other mem => before.ready other (later other mem)⟩
  · obtain ⟨clip,rests,rest⟩ := invariant.rings q ringing
    exact ⟨clip,⟨rests.slot,rests.newest,rests.taken,fun mem => rests.spent (left mem),rests.alone⟩,rest⟩
  · intro u emitted waits reads
    have finds := invariant.uses u emitted waits reads
    exact ⟨finds.slot,finds.alone,finds.first⟩
  · obtain ⟨notice,announced,about,sounded⟩ := invariant.asked q playing
    exact ⟨notice,announced,about,sounded.waiting,sounded.heard⟩
  · obtain ⟨notice,told,sounded⟩ := invariant.starts s emitted waits starting
    exact ⟨notice,told,sounded.waiting,sounded.heard⟩

theorem nextAccepts {rt : Booth} {sent : Sent} {events : List Sent} (invariant : ClipInvariant rt)
    (next : rt.events = sent :: events) :
    Accepts { rt with events } sent.event sent.origin := by
  intro tone ready
  have before := invariant.tone tone
  have here : sent ∈ rt.events := by rw [next]; exact List.mem_cons_self
  obtain ⟨clip,slot,same⟩ := before.ready sent here ready
  have origin : sent.origin = some clip.fetch := (congrArg Notice.origin same).symm
  have fetch : sent.toNotice.fetch = some clip.fetch := by rw [Notice.fetch,if_pos ready]; exact origin
  have listed : clip.fetch ∈ rt.clearedFetches := List.mem_append_right _ (announcedMem here ready origin)
  have last := before.newest _ listed
  obtain ⟨n,named,low⟩ := invariant.counted.taken.ready sent here ready
  have spent := spentFetch invariant.counted next fetch
  refine ⟨clip,⟨slot,last,?_,spent,fun task mem => ?_⟩,?_⟩
  · rw [show sent.toNotice.origin = some clip.fetch from origin] at named
    obtain rfl := Option.some.inj named
    exact low
  · by_contra cleared
    have cleared_ : task.cleared = true := by simpa using cleared
    have other := before.newest _ (clearedMem mem cleared_)
    have live : task.number ∈ ({ rt with events } : Booth).liveFetches := clearedLive mem cleared_
    rw [Option.some.inj (other.symm.trans last)] at live
    exact spent live
  · rw [StoredClip.notice,← origin,show clip.ready = sent.event from congrArg Notice.event same]

theorem restClip (minRecordingMs : Nat) (recordingsDir : String) (accepting onHook : Bool)
    (spool : Spool) : ClipInvariant (atRest minRecordingMs recordingsDir accepting onHook spool) := by
  refine ⟨⟨fun n => Nat.zero_le 1,fun n mem => absurd mem List.not_mem_nil,?_⟩,?_,?_,?_,?_,?_⟩
  · exact ⟨by simp [atRest],by simp [atRest,Fetcher.idle],by simp [atRest]⟩
  all_goals cases accepting <;> simp [atRest]

theorem bootClip (minRecordingMs : Nat) (recordingsDir : String) (accepting onHook : Bool)
    (spool : Spool) : ClipInvariant (boot minRecordingMs recordingsDir accepting onHook spool) := by
  have resting := restClip minRecordingMs recordingsDir accepting onHook spool
  refine bootInvariant resting (handleClip resting ?_ fun _ => rfl)
  intro _ ready
  cases ready

theorem takesAnnouncedClip {rt : Booth} {number : Nat} {emitted : Emitted} {effects : Channel Emitted}
    (invariant : ClipInvariant rt) (received : rt.effects.receive = some ((number,emitted),effects)) :
    (isUse emitted.effect = true → ∃ clip ∈ rt.fetcher.nextRemoteAudio,
      emitted.announced = some clip.notice) ∧
    (emitted.effect = startRecording → ∃ clip ∈ rt.fetcher.resolved,
      emitted.announced = some clip.notice) := by
  have waits := Channel.receivedWaits received
  obtain ⟨place,_,_,_⟩ := Channel.receiveCases received
  refine ⟨fun reads => (invariant.uses _ _ waits reads).slot,fun starting => ?_⟩
  obtain ⟨notice,told,sounded⟩ := invariant.starts _ _ waits starting
  obtain ⟨clip,resolved,same⟩ := sounded.heard fun u other low waiting => by
    have later := waiting.1
    omega
  exact ⟨clip,resolved,told.trans (congrArg some same.symm)⟩

theorem quietPromise {rt rt' : Booth} {label : Label} (quiet : isQuiet label = true)
    (invariant : rt.phase = .running → ClipInvariant rt) : AnnouncedClipPlays rt label rt' := by
  unfold AnnouncedClipPlays
  split
  · rename_i received
    exact fun running => takesAnnouncedClip (invariant running) received
  · cases quiet
  · cases quiet
  · trivial

theorem stepClipInvariant {rt rt' : Booth} {label : Label} (done : rt.step label = some rt')
    (invariant : rt.phase = .running → ClipInvariant rt) (single : OneClipAtATime rt label rt') :
    (rt'.phase = .running → ClipInvariant rt') ∧ AnnouncedClipPlays rt label rt' := by
  have step := stepCases done
  obtain ⟨passes,clean⟩ := single
  cases step with
  | handle running next =>
    rename_i sent events
    have before := invariant running
    have left : ClipInvariant { rt with events } :=
      fewerEvents before (next ▸ List.sublist_cons_self sent events)
    have accepts := nextAccepts before next
    refine ⟨fun _ => handleClip left accepts fun listens => ?_,?_⟩
    · have empty := clean listens
      rwa [next] at empty
    · have orders := handleOrders left accepts
      exact orders
  | reconcile running =>
    have left : ClipInvariant { rt with acceptingCalls := rt.accepting } :=
      fewerEvents (invariant running) (List.Sublist.refl _)
    have accepts : Accepts { rt with acceptingCalls := rt.accepting } tick none :=
      fun _ ready => by cases ready
    have orders := handleOrders left accepts
    exact ⟨fun _ => handleClip left accepts clean,orders⟩
  | restart accepting onHook => exact ⟨fun _ => bootClip _ _ _ _ _,trivial⟩
  | _ =>
    refine ⟨fun running => ?_,quietPromise rfl invariant⟩
    have step := stepCases done
    exact quietClip (invariant (quietRunning step rfl running)) step rfl running passes

end TelephoneBooth
