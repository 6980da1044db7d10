import TelephoneBooth.UploadsGoOn

/-! A booth in which nothing moves any more. Where no clip the core waits for fails, the core
then waits for nothing. -/
namespace TelephoneBooth
open State Event Effect Booth

def clipUnder (rt : Booth) (n : Nat) : Prop := OnItsWay rt.speaker n
def groupUnder (rt : Booth) (_ : Nat) : Prop := rt.pulseTimeout = true
def answerUnder (rt : Booth) (_ : Nat) : Prop := rt.recorder.timer.isSome = true
def stopUnder (_ : Booth) (_ : Nat) : Prop := False

structure WaitInvariant (rt : Booth) : Prop where
  slot : SlotEnds rt.fetcher
  clip : clipWait.waits rt.state = true → GoesOn clipWait clipUnder rt
  group : groupWait.waits rt.state = true → GoesOn groupWait groupUnder rt
  answer : answerWait.waits rt.state = true → GoesOn answerWait answerUnder rt
  stop : stopWait.waits rt.state = true → GoesOn stopWait stopUnder rt
  upload : ∀ id, (uploadWait id).waits rt.state = true → UploadGoesOn rt id

structure Unanswered (rt : Booth) (event : Event) : Prop where
  slot : SlotEnds rt.fetcher
  clip : clipWait.waits rt.state = true → clipWait.heard rt.state event = false →
    GoesOn clipWait clipUnder rt
  group : groupWait.waits rt.state = true → groupWait.heard rt.state event = false →
    GoesOn groupWait groupUnder rt
  answer : answerWait.waits rt.state = true → answerWait.heard rt.state event = false →
    GoesOn answerWait answerUnder rt
  stop : stopWait.waits rt.state = true → stopWait.heard rt.state event = false →
    GoesOn stopWait stopUnder rt
  upload : ∀ id, (uploadWait id).waits rt.state = true → (uploadWait id).heard rt.state event = false →
    UploadGoesOn rt id

theorem handleWaiting {rt : Booth} {event : Event} (origin : Option Nat)
    (held : Unanswered rt event) : WaitInvariant (rt.handleEvent event origin) := by
  refine ⟨held.slot,?_,?_,?_,?_,?_⟩
  · refine handleGoesOn clipLawful ?_ event origin (fun n way => way) held.clip
    intro effect asks
    obtain ⟨source,rfl,_⟩ := clipAsks asks
    rfl
  · refine handleGoesOn groupLawful ?_ event origin (fun n way => way) held.group
    intro effect asks
    rw [show effect = armPulseTimeout from eq_of_beq asks]
    rfl
  · refine handleGoesOn answerLawful ?_ event origin (fun n way => way) held.answer
    intro effect asks
    rw [show effect = armRecordingTimeout from eq_of_beq asks]
    rfl
  · refine handleGoesOn stopLawful ?_ event origin (fun n way => way) held.stop
    intro effect asks
    rw [show effect = stopRecording from eq_of_beq asks]
    rfl
  · exact fun id => uploadHandled origin (held.upload id)

theorem nextGoesOn {w : Wait} {under : Booth → Nat → Prop} (rt : Booth) {sent : Sent}
    {events : List Sent} (next : rt.events = sent :: events)
    (hears : w.answers sent.event = true → w.heard rt.state sent.event = true)
    (frame : ∀ n, under rt n → under { rt with events } n) (goes : GoesOn w under rt)
    (unheard : w.heard rt.state sent.event = false) : GoesOn w under { rt with events } := by
  rcases goes with ⟨n,asked,place⟩ | ⟨other,mem,answer⟩
  · exact .inl ⟨n,asked,place.imp id (frame n)⟩
  · rw [next] at mem
    rcases List.mem_cons.mp mem with rfl | later
    · rw [hears answer] at unheard
      cases unheard
    · exact .inr ⟨other,later,answer⟩

theorem WaitInvariant.next {rt : Booth} {sent : Sent} {events : List Sent}
    (held : WaitInvariant rt) (next : rt.events = sent :: events) :
    Unanswered { rt with events } sent.event := by
  refine ⟨held.slot,?_,?_,?_,?_,?_⟩
  · refine fun waits => nextGoesOn rt next (fun answer => ?_) (fun n way => way) (held.clip waits)
    generalize sent.event = event at answer
    cases event <;> first | rfl | cases answer
  · refine fun waits => nextGoesOn rt next (fun answer => ?_) (fun n way => way) (held.group waits)
    generalize sent.event = event at answer
    cases event <;> first | rfl | cases answer
  · refine fun waits => nextGoesOn rt next (fun answer => ?_) (fun n way => way) (held.answer waits)
    generalize sent.event = event at answer
    cases event <;> first | rfl | cases answer
  · refine fun waits => nextGoesOn rt next (fun answer => ?_) (fun n way => way) (held.stop waits)
    generalize sent.event = event at answer
    cases event <;> first | rfl | cases answer
  · intro id waits unheard
    cases held.upload id waits with
    | waits n emitted waiting uploads => exact .waits n emitted waiting uploads
    | aside next mem uploads => exact .aside next mem uploads
    | admitting task claimed own open_ => exact .admitting task claimed own open_
    | task task mem own open_ => exact .task task mem own open_
    | told other outcome mem same =>
      rw [next] at mem
      rcases List.mem_cons.mp mem with rfl | later
      · have flight : rt.state.uploadInFlight = some id := of_decide_eq_true waits
        have heard : (uploadWait id).heard rt.state other.event = true := by
          rw [same]
          simp only [Wait.heard,settle,flight,if_true,Option.any_some]
          cases outcome <;> rfl
        rw [heard] at unheard
        cases unheard
      · exact .told other outcome later same

theorem WaitInvariant.unanswered {rt : Booth} (held : WaitInvariant rt) (accepting : Bool)
    (event : Event) : Unanswered { rt with acceptingCalls := accepting } event := by
  refine ⟨held.slot,fun waits _ => held.clip waits,fun waits _ => held.group waits,
    fun waits _ => held.answer waits,fun waits _ => held.stop waits,?_⟩
  intro id waits _
  exact (held.upload id waits).keep rfl rfl rfl rfl (fun sent mem => mem)

theorem bootWaiting (minRecordingMs : Nat) (recordingsDir : String) (accepting onHook : Bool)
    (spool : Spool) : WaitInvariant (boot minRecordingMs recordingsDir accepting onHook spool) := by
  have ease : (atRest minRecordingMs recordingsDir accepting onHook spool).state.atEase = true := by
    cases accepting <;> rfl
  have none_ {w : Wait} (lawful : w.Lawful)
      (waits : w.waits (atRest minRecordingMs recordingsDir accepting onHook spool).state = true) :
      False := by
    rw [lawful.restful _ ease] at waits
    cases waits
  have resting : WaitInvariant (atRest minRecordingMs recordingsDir accepting onHook spool) := by
    refine ⟨fun clip mem => (by cases mem),fun waits => (none_ clipLawful waits).elim,
      fun waits => (none_ groupLawful waits).elim,fun waits => (none_ answerLawful waits).elim,
      fun waits => (none_ stopLawful waits).elim,fun id waits => (none_ (uploadLawful id) waits).elim⟩
  exact bootInvariant resting (handleWaiting _ (resting.unanswered accepting _))

theorem stepWaiting {rt rt' : Booth} {label : Label} (done : rt.step label = some rt')
    (held : rt.phase = .running → WaitInvariant rt) (reports : ClipsReport rt label rt') :
    rt'.phase = .running → WaitInvariant rt' := by
  intro running
  have step := stepCases done
  cases quiet : isQuiet label with
  | true =>
    have started := quietRunning step quiet running
    have before := held started
    have still := quietStill step quiet
    have kept (sent : Sent) (mem : sent ∈ rt.events) : sent ∈ rt'.events :=
      quietEvents step quiet running mem
    refine ⟨slotEnds step before.slot,?_,?_,?_,?_,?_⟩
    · rw [still.state]
      exact fun waits => quietGoesOn (before.clip waits) still.log kept fun n =>
        clipQuiet before.slot waits step quiet running reports
    · rw [still.state]
      exact fun waits => quietGoesOn (before.group waits) still.log kept fun n =>
        groupQuiet step quiet running
    · rw [still.state]
      exact fun waits => quietGoesOn (before.answer waits) still.log kept fun n =>
        answerQuiet step quiet running
    · rw [still.state]
      exact fun waits => quietGoesOn (before.stop waits) still.log kept fun n =>
        stopQuiet step quiet running
    · rw [still.state]
      exact fun id waits => uploadQuiet done step quiet running (before.upload id waits)
  | false =>
    cases step with
    | handle running next => exact handleWaiting _ ((held running).next next)
    | reconcile running => exact handleWaiting _ ((held running).unanswered _ _)
    | restart accepting onHook => exact bootWaiting _ _ _ _ _
    | _ => cases quiet

def Booth.clipPlaying (rt : Booth) : Bool :=
  rt.speaker.playing && (rt.speaker.current.bind fun n => rt.effects.log[n]?).any fun emitted =>
    isClip emitted.effect

structure Quiescent (rt : Booth) : Prop where
  running : rt.phase = .running
  events : rt.events = []
  effects : rt.effects.drained
  aside : rt.pendingOperatorEffects = []
  commands : rt.speaker.commands = []
  clip : rt.clipPlaying = false
  pulse : rt.pulseTimeout = false
  recording : rt.recorder.timer = none
  fetches : ∀ task ∈ rt.fetcher.tasks, task.stage = .done
  admitting : rt.uploads.admitting = none
  uploads : ∀ task ∈ rt.uploads.tasks, task.stage = .done

instance (rt : Booth) : Decidable (Quiescent rt) :=
  decidable_of_iff (rt.phase = .running ∧ rt.events = [] ∧ rt.effects.drained ∧
      rt.pendingOperatorEffects = [] ∧ rt.speaker.commands = [] ∧ rt.clipPlaying = false ∧
      rt.pulseTimeout = false ∧ rt.recorder.timer = none ∧
      (∀ task ∈ rt.fetcher.tasks, task.stage = .done) ∧ rt.uploads.admitting = none ∧
      ∀ task ∈ rt.uploads.tasks, task.stage = .done)
    ⟨fun ⟨a,b,c,d,e,f,g,h,i,j,k⟩ => ⟨a,b,c,d,e,f,g,h,i,j,k⟩,
      fun ⟨a,b,c,d,e,f,g,h,i,j,k⟩ => ⟨a,b,c,d,e,f,g,h,i,j,k⟩⟩

theorem quietUnder {w : Wait} {under : Booth → Nat → Prop} {rt : Booth} (quiescent : Quiescent rt)
    (goes : GoesOn w under rt) : ∃ n, Asked w rt.effects.log n ∧ under rt n := by
  rcases goes with ⟨n,asked,early | way⟩ | ⟨sent,mem,_⟩
  · have inside := askedBound asked
    have drained : rt.effects.taken = rt.effects.log.length := quiescent.effects
    omega
  · exact ⟨n,asked,way⟩
  · rw [quiescent.events] at mem
    cases mem

theorem quiescentAtEase {rt : Booth} (held : WaitInvariant rt) (quiescent : Quiescent rt) :
    rt.state.atEase = true := by
  rcases waitsUnlessAtEase rt.state with ease | waits | waits | waits | waits | ⟨id,waits⟩
  · exact ease
  · obtain ⟨n,⟨_,emitted,found,asks⟩,way⟩ := quietUnder quiescent (held.clip waits)
    cases way with
    | ordered front source last =>
      rw [quiescent.commands] at last
      simp at last
    | playing empty playing current =>
      have heard := quiescent.clip
      rw [Option.mem_def] at found
      have clip : isClip emitted.effect = true := asks
      simp [clipPlaying,playing,current,found,clip] at heard
  · obtain ⟨n,_,armed⟩ := quietUnder quiescent (held.group waits)
    rw [groupUnder,quiescent.pulse] at armed
    cases armed
  · obtain ⟨n,_,ticking⟩ := quietUnder quiescent (held.answer waits)
    rw [answerUnder,quiescent.recording] at ticking
    cases ticking
  · obtain ⟨n,_,none_⟩ := quietUnder quiescent (held.stop waits)
    exact none_.elim
  · cases held.upload id waits with
    | waits n emitted waiting uploads =>
      have inside := (List.getElem?_eq_some_iff.mp waiting.2).1
      have early := waiting.1
      have drained : rt.effects.taken = rt.effects.log.length := quiescent.effects
      omega
    | aside next mem =>
      rw [quiescent.aside] at mem
      cases mem
    | admitting task claimed =>
      rw [quiescent.admitting] at claimed
      cases claimed
    | task task mem own open_ =>
      rw [quiescent.uploads task mem] at open_
      cases open_
    | told sent outcome mem =>
      rw [quiescent.events] at mem
      cases mem

/- Where no clip the core waits for fails, a booth in which nothing moves any more waits for
nothing: it is at rest, in a dial tone, in an error, or paused. -/
theorem nothingWedges (minRecordingMs : Nat) (recordingsDir : String) (accepting onHook : Bool)
    (entries : List SpoolEntry) (labels : List Label)
    (reports : Transition.Along Booth.step ClipsReport
      (boot minRecordingMs recordingsDir accepting onHook (.opened entries)) labels)
    {rt : Booth} (ends_ : Transition.final Booth.step
      (boot minRecordingMs recordingsDir accepting onHook (.opened entries)) labels = some rt)
    (quiescent : Quiescent rt) : rt.state.atEase = true :=
  have held := Transition.finalAlong Booth.step (fun rt => rt.phase = .running → WaitInvariant rt)
    (fun _ _ _ => stepWaiting) (fun _ => bootWaiting _ _ _ _ _) reports ends_
  quiescentAtEase (held quiescent.running) quiescent

def hearOut : List Label :=
  hearUnavailable ++ [.speaker (.ended true),.handle] ++ carryOut 3 1

set_option maxRecDepth 2000 in
theorem promptEndsQuietly : ∃ rt : Booth,
    Transition.final Booth.step (boot 1000 "recordings" true true (.opened [])) hearOut = some rt ∧
    Quiescent rt ∧ rt.state.atEase = true :=
  ⟨_,rfl,by decide,
    nothingWedges 1000 "recordings" true true [] hearOut (by decide) rfl (by decide)⟩

set_option maxRecDepth 2000 in
theorem refusedPromptWedges : ¬ ∀ labels (rt : Booth), Transition.final Booth.step
    (boot 1000 "recordings" true true (.opened [])) labels = some rt → Quiescent rt →
    rt.state.atEase = true := by
  intro settles
  have parked := settles (dialThree ++ carryOut 7 2 ++ [.pulseTimeout,.handle] ++ carryOut 5 0 ++
    [.speaker (.command false)]) _ rfl (by decide)
  cases parked

end TelephoneBooth
