import TelephoneBooth.Fetches
import TelephoneBooth.Handset

/-! A clip and the call it was fetched for. The token of a fetch is read when its effect is
dispatched, not when it is emitted, and checked before its event is sent; so a hook flash
that outruns the dispatcher lets a clip into the next call, and nothing else does. -/
namespace TelephoneBooth
open Booth State Event Effect

def Emits (log : List Emitted) (number : Nat) (kind : FetchKind) : Prop :=
  ∃ emitted, log[number]? = some emitted ∧ emitted.effect.fetchKind = some kind

def Own (rt : Booth) (number : Nat) : Prop := rt.hookMark ≤ number ∨ rt.state.onHook = true

def CallPlaces (log : List Emitted) (own : Nat → Prop) : Booth → Prop :=
  Places (fun next => log[next.number]? = some next.emitted)
    (fun task => Emits log task.number task.kind ∧ (task.cleared = true → own task.number))
    (fun notice => ∃ kind number, notice.event.readyKind = some kind ∧
      notice.origin = some number ∧ Emits log number kind ∧ own number)

structure CallInvariant (rt : Booth) : Prop where
  mark : rt.hookMark ≤ rt.effects.log.length
  places : CallPlaces rt.effects.log (Own rt) rt

def State.announcing : State → Bool
  | ringingQuestion _ | playingMessage | playingInstructions => true
  | _ => false

/-- With the handset up, no fetch from before the last `HookOn` passes its token check; and
the core lifts the handset with no fetch past its check still to be heard of. -/
def AbandonedFetchesStop (rt : Booth) (label : Label) (_ : Booth) : Prop :=
  (∀ number ∈ rt.clears label, rt.hookMark ≤ number ∨ rt.state.onHook = true) ∧
  match label, rt.events with
  | .handle, sent :: _ =>
    sent.event = hookOff → rt.state.onHook = true → rt.clearedFetches = []
  | _, _ => True

/-- A clip accepted in a dial tone was fetched by an effect of its kind, emitted since the
last `HookOn`. -/
def ClipsStayInCall (rt : Booth) (label : Label) (after : Booth) : Prop :=
  match label, rt.events with
  | .handle, sent :: _ => rt.state = dialTone → after.state.announcing = true →
      ∃ number ∈ sent.origin, rt.hookMark ≤ number ∧
        ∃ emitted ∈ rt.effects.log[number]?, emitted.effect.fetchKind.isSome = true ∧
          emitted.effect.fetchKind = sent.event.readyKind
  | _, _ => True

instance (rt : Booth) (label : Label) (after : Booth) :
    Decidable (AbandonedFetchesStop rt label after) := by
  unfold AbandonedFetchesStop
  split <;> infer_instance

instance (rt : Booth) (label : Label) (after : Booth) :
    Decidable (ClipsStayInCall rt label after) := by
  unfold ClipsStayInCall
  split <;> infer_instance

theorem emitsLater {log items : List Emitted} {number : Nat} {kind : FetchKind}
    (emits : Emits log number kind) : Emits (log ++ items) number kind := by
  obtain ⟨emitted,found,fetches⟩ := emits
  obtain ⟨inside,_⟩ := List.getElem?_eq_some_iff.mp found
  exact ⟨emitted,by rw [List.getElem?_append_left inside]; exact found,fetches⟩

theorem callMoves {rt rt' : Booth} {label : Label} {own : Nat → Prop}
    (passes : ∀ number ∈ rt.clears label, own number) :
    Moves (fun next => rt.effects.log[next.number]? = some next.emitted)
      (fun task => Emits rt.effects.log task.number task.kind ∧
        (task.cleared = true → own task.number))
      (fun notice => ∃ kind number, notice.event.readyKind = some kind ∧
        notice.origin = some number ∧ Emits rt.effects.log number kind ∧ own number)
      rt label rt' := by
  constructor
  · exact fun next waits _ => waits.2
  · intro number emitted kind waits _ fetches
    exact ⟨⟨emitted,waits.2,fetches⟩,fun cleared => by cases cleared⟩
  · intro next kind found fetches
    exact ⟨⟨next.emitted,found,fetches⟩,fun cleared => by cases cleared⟩
  · intro task stage held unchecked
    exact ⟨held.1,fun cleared => by rw [unchecked] at cleared; cases cleared⟩
  · intro task answer held clears
    exact ⟨held.1,fun _ => passes task.number clears⟩
  · intro task answer held checked
    exact ⟨held.1,fun _ => held.2 (by simp [FetchTask.cleared,checked])⟩
  · intro task answer held checked
    exact ⟨task.kind,task.number,readyKindReady _ _,rfl,held.1,
      held.2 (by simp [FetchTask.cleared,checked])⟩

theorem quietCall {rt rt' : Booth} {label : Label} (invariant : CallInvariant rt)
    (step : BoothStep rt label rt') (quiet : isQuiet label = true)
    (passes : ∀ number ∈ rt.clears label, Own rt number) : CallInvariant rt' := by
  have still := quietStill step quiet
  have places := quietPlaces invariant.places (callMoves passes) step quiet
  have own : Own rt' = Own rt := by
    funext number
    rw [Own,Own,still.hookMark,still.state]
  refine ⟨?_,?_⟩
  · rw [still.hookMark,still.log]
    exact invariant.mark
  · rw [still.log,own]
    exact places

theorem nextCall {rt : Booth} {sent : Sent} {events : List Sent} (invariant : CallInvariant rt)
    (next : rt.events = sent :: events) : CallInvariant { rt with events } := by
  have places := invariant.places
  refine ⟨invariant.mark,places.aside,places.tasks,?_⟩
  intro other mem
  exact places.ready other (by rw [next]; exact List.mem_cons_of_mem _ mem)

theorem ownHandled {rt : Booth} {number : Nat} {event : Event} {origin : Option Nat}
    (own : Own rt number) (clean : event = hookOff → rt.state.onHook = true → False) :
    Own (rt.handleEvent event origin) number := by
  have level : (rt.handleEvent event origin).state.onHook =
      (hookLevel event).getD rt.state.onHook := stepOnHook rt.state (event,rt.accepting)
  rw [Own,handleHookMark,level]
  by_cases hung : event = hookOn
  · subst hung
    exact .inr rfl
  · rw [if_neg hung]
    rcases own with inside | resting
    · exact .inl inside
    · by_cases lifted : event = hookOff
      · exact (clean lifted resting).elim
      · have still : (hookLevel event).getD rt.state.onHook = rt.state.onHook := by
          cases event <;> first | rfl | contradiction
        rw [still]
        exact .inr resting

theorem handleCall {rt : Booth} (invariant : CallInvariant rt) (event : Event)
    (origin : Option Nat)
    (clean : event = hookOff → rt.state.onHook = true → rt.clearedFetches = []) :
    CallInvariant (rt.handleEvent event origin) := by
  have places := invariant.places
  have log : (rt.handleEvent event origin).effects.log = rt.effects.log ++
      (coreStep rt.state (event,rt.accepting)).2.map fun effect =>
        ⟨effect,rt.announcedBy event origin⟩ := rfl
  refine ⟨?_,?_,?_,?_⟩
  · have grows := handleLog rt event origin
    have mark := invariant.mark
    rw [handleHookMark]
    split <;> omega
  · intro next mem
    have found := places.aside next mem
    obtain ⟨inside,_⟩ := List.getElem?_eq_some_iff.mp found
    rw [log,List.getElem?_append_left inside]
    exact found
  · intro task mem
    have held := places.tasks task mem
    refine ⟨by rw [log]; exact emitsLater held.1,fun cleared => ?_⟩
    refine ownHandled (held.2 cleared) fun lifted resting => ?_
    have listed : task.number ∈ rt.clearedFetches := clearedMem mem cleared
    rw [clean lifted resting] at listed
    exact absurd listed List.not_mem_nil
  · intro sent mem ready
    obtain ⟨kind,number,named,origin,emits,own⟩ := places.ready sent mem ready
    refine ⟨kind,number,named,origin,by rw [log]; exact emitsLater emits,?_⟩
    refine ownHandled own fun lifted resting => ?_
    have listed : number ∈ rt.clearedFetches :=
      List.mem_append_right _ (announcedMem mem ready origin)
    rw [clean lifted resting] at listed
    exact absurd listed List.not_mem_nil

theorem restCall (minRecordingMs : Nat) (recordingsDir : String) (accepting onHook : Bool)
    (spool : Spool) : CallInvariant (atRest minRecordingMs recordingsDir accepting onHook spool) := by
  refine ⟨Nat.le_refl _,?_,?_,?_⟩
  · intro next mem; exact absurd mem List.not_mem_nil
  · intro task mem; exact absurd mem List.not_mem_nil
  · intro sent mem; exact absurd mem List.not_mem_nil

theorem bootCall (minRecordingMs : Nat) (recordingsDir : String) (accepting onHook : Bool)
    (spool : Spool) : CallInvariant (boot minRecordingMs recordingsDir accepting onHook spool) := by
  have resting := restCall minRecordingMs recordingsDir accepting onHook spool
  exact bootInvariant resting (handleCall resting _ _ (fun _ _ => rfl))

theorem decodeAnnouncing (digit : UInt8) : (decodeDigit digit).1.announcing = false := by
  unfold decodeDigit
  repeat' split
  all_goals rfl

theorem announcingReady {event : Event} {accepting : Bool}
    (announces : (coreStep dialTone (event,accepting)).1.announcing = true) :
    event.readyKind.isSome = true := by
  cases accepting with
  | false => cases event <;> cases announces
  | true =>
    cases event with
    | digitDialed digit =>
      rw [show (coreStep dialTone (digitDialed digit,true)).1 = (decodeDigit digit).1 from rfl,
        decodeAnnouncing] at announces
      cases announces
    | questionReady | messageReady | instructionsReady => rfl
    | _ => cases announces

theorem acceptCall {rt : Booth} {sent : Sent} (invariant : CallInvariant rt)
    (mem : sent ∈ rt.events) (tone : rt.state = dialTone)
    (ready : sent.event.readyKind.isSome = true) :
    ∃ number ∈ sent.origin, rt.hookMark ≤ number ∧
      ∃ emitted ∈ rt.effects.log[number]?, emitted.effect.fetchKind.isSome = true ∧
        emitted.effect.fetchKind = sent.event.readyKind := by
  obtain ⟨kind,number,named,origin,⟨emitted,found,fetches⟩,own⟩ :=
    invariant.places.ready sent mem ready
  refine ⟨number,origin,?_,emitted,found,by rw [fetches]; rfl,fetches.trans named.symm⟩
  rcases own with inside | resting
  · exact inside
  · rw [tone] at resting
    cases resting

theorem stepCall {rt rt' : Booth} {label : Label} (done : rt.step label = some rt')
    (invariant : CallInvariant rt) (stops : AbandonedFetchesStop rt label rt') :
    CallInvariant rt' ∧ ClipsStayInCall rt label rt' := by
  have step := stepCases done
  obtain ⟨passes,clean⟩ := stops
  cases step with
  | handle running next =>
    rename_i sent events
    simp only [ClipsStayInCall,next] at clean ⊢
    have mem : sent ∈ rt.events := by rw [next]; exact List.mem_cons_self
    have left := nextCall invariant next
    have none_ : sent.event = hookOff → rt.state.onHook = true →
        ({ rt with events } : Booth).clearedFetches = [] := by
      intro lifted resting
      have cleared := clean lifted resting
      have quiet : sent.toNotice.fetch = none := by simp [Notice.fetch,lifted,Event.readyKind]
      simpa [clearedFetches,announcedFetches,next,quiet] using cleared
    refine ⟨handleCall left sent.event sent.origin none_,?_⟩
    intro tone announces
    rw [handleState,show ({ rt with events } : Booth).state = dialTone from tone] at announces
    exact acceptCall invariant mem tone (announcingReady announces)
  | reconcile running =>
    have left : CallInvariant { rt with acceptingCalls := rt.accepting } :=
      ⟨invariant.mark,invariant.places.aside,invariant.places.tasks,invariant.places.ready⟩
    exact ⟨handleCall left tick none (fun lifted => by cases lifted),trivial⟩
  | restart accepting onHook => exact ⟨bootCall _ _ _ _ _,trivial⟩
  | _ => exact ⟨quietCall invariant (stepCases done) rfl passes,trivial⟩

/- Whatever the scheduler, the operator and the caller do: where the token check stops every
abandoned fetch, a clip accepted in a dial tone was asked for in the same call. -/
theorem clipsStayInCall (minRecordingMs : Nat) (recordingsDir : String) (accepting onHook : Bool)
    (entries : List SpoolEntry) (labels : List Label)
    (stops : Transition.Along Booth.step AbandonedFetchesStop
      (boot minRecordingMs recordingsDir accepting onHook (.opened entries)) labels) :
    Transition.Along Booth.step ClipsStayInCall
      (boot minRecordingMs recordingsDir accepting onHook (.opened entries)) labels :=
  Transition.along Booth.step CallInvariant (fun _ _ _ => stepCall) (bootCall _ _ _ _ _) stops

def dialOne : List Label :=
  [.sense hookOff,.handle,.sense rotaryPulse,.handle,.take {},.take {},.take {},.take {},.take {},
    .pulseTimeout,.handle,.take {},.take {},.take {},.fetch 6 (.ok { id := "q1" }),
    .fetch 6 .inactive,.fetch 6 .inactive]

theorem dialOneStaysInCall : Transition.Along Booth.step ClipsStayInCall
    (boot 1000 "recordings" true true (.opened [])) (dialOne ++ [.fetch 6 .inactive,.handle]) :=
  clipsStayInCall 1000 "recordings" true true [] _ (by decide)

/- The caller flashes the hook while the fetch sits between its token check and its event:
the clip of the first call is accepted in the second. -/
theorem hookFlashLeaksClip : ¬ ∀ labels, Transition.Along Booth.step ClipsStayInCall
    (boot 1000 "recordings" true true (.opened [])) labels := by
  intro kept
  have leaked := kept (dialOne ++
    [.sense hookOn,.sense hookOff,.fetch 6 .inactive,.handle,.handle,.handle])
  revert leaked
  decide

end TelephoneBooth
