import TelephoneBooth.RecordingOrder
import TelephoneBooth.CallBoundary

/-! Recording events and the recording they belong to. None of them names one; that they are
told apart rests on the order of two queues, from the beep that opens a recording back to the
last effect of the one before. -/
namespace TelephoneBooth
open Booth State Event Effect

/- The end of playback that opens a recording is that of a clip ordered after every effect
for the recorder. -/
def BeepsSettled (rt : Booth) (label : Label) (_ : Booth) : Prop :=
  match label, rt.events with
  | .handle, sent :: _ => rt.state.beeping = true → sent.event = playbackEnded →
      ∃ number ∈ sent.origin, Settled rt.effects.log number
  | _, _ => True

/-- An event of the recorder handled during a recording comes from an effect of that very
recording, and a finished one carries its audio. -/
def RecordingsKeepApart (rt : Booth) (label : Label) (_ : Booth) : Prop :=
  match label, rt.events with
  | .handle, sent :: _ => rt.state.answering.isSome = true → sent.event.ofRecorder = true →
      ∃ start ∈ rt.lastStart, (∃ number ∈ sent.origin, start ≤ number ∧
          ∃ emitted ∈ rt.effects.log[number]?, sent.event.causedBy emitted.effect = true) ∧
        (sent.event.finishes = true → sent.captured = some start)
  | _, _ => True

instance (rt : Booth) (label : Label) (after : Booth) : Decidable (BeepsSettled rt label after) := by
  unfold BeepsSettled
  generalize rt.events = events
  rcases label with _ | _ <;> rcases events with _ | _ <;> infer_instance

instance (rt : Booth) (label : Label) (after : Booth) :
    Decidable (RecordingsKeepApart rt label after) := by
  unfold RecordingsKeepApart
  generalize rt.events = events
  rcases label with _ | _ <;> rcases events with _ | _ <;> infer_instance

theorem beepingFree {s : State} (beeping : s.beeping = true) :
    s.answering = none ∧ s.recorded = false := by
  cases s <;> first
    | exact ⟨rfl,rfl⟩
    | cases beeping

theorem handleDisarmed {rt : Booth} {event : Event} {origin : Option Nat} (rooted : Rooted rt)
    (disarmed : rt.state.recorded = false → Disarmed rt)
    (closed : (rt.handleEvent event origin).state.recorded = false) :
    Disarmed (rt.handleEvent event origin) := by
  have records := stepRecords rt.state (event,rt.accepting)
  intro n armed
  have before : n ∈ rt.recorder.timer ∨
      ∃ emitted, rt.effects.Waits n emitted ∧ emitted.effect = armRecordingTimeout := by
    rcases armed with ticking | ⟨emitted,waits,arms⟩
    · exact .inl ticking
    · rcases handleWaits waits with old | ⟨_,new⟩
      · exact .inr ⟨emitted,old,arms⟩
      · have open_ := records.starts (.inr (arms ▸ emitsMem new))
        rw [handleState,open_] at closed
        cases closed
  have inside : n < rt.effects.log.length := by
    rcases before with ticking | ⟨emitted,waits,_⟩
    · obtain ⟨_,_,found,_⟩ := rooted.timer n ticking
      exact (List.getElem?_eq_some_iff.mp found).1
    · exact (List.getElem?_eq_some_iff.mp waits.2).1
  cases recording_ : rt.state.recorded with
  | true =>
    rcases records.closes recording_ with still | cancels
    · rw [handleState,still] at closed
      cases closed
    · obtain ⟨c,emitted,late,waits,same⟩ := emitsWaits origin cancels
      exact ⟨c,emitted,by omega,waits,same⟩
  | false =>
    obtain ⟨c,emitted,after,waits,cancels⟩ := disarmed recording_ n before
    exact ⟨c,emitted,after,Channel.sentWaits _ waits,cancels⟩

theorem settledBefore {log more : List Emitted} {m : Nat} (settled : Settled (log ++ more) m) :
    Settled log m := by
  intro n mem
  refine settled n ?_
  rw [numberedAppend]
  exact List.mem_append_left _ mem

theorem handleQuiet {rt : Booth} {event : Event} {origin : Option Nat} (heard : Heard rt)
    (quiet : rt.state.recorded = false → Quiet rt)
    (closed : (rt.handleEvent event origin).state.recorded = false) :
    Quiet (rt.handleEvent event origin) := by
  cases recording_ : rt.state.recorded with
  | true =>
    -- leaving `Recording` emits a cancellation behind every clip already heard
    have unsettled (sent : Sent) (mem : sent ∈ rt.events) (ended : sent.event = playbackEnded)
        (m : Nat) (named : m ∈ sent.origin) :
        ¬ Settled (rt.handleEvent event origin).effects.log m := by
      rcases (stepRecords rt.state (event,rt.accepting)).closes recording_ with still | cancels
      · rw [handleState,still] at closed
        cases closed
      · obtain ⟨c,emitted,_,waits,same⟩ := emitsWaits origin cancels
        exact waitsUnsettled waits (by rw [same]; rfl) (heard.events sent mem ended m named)
    refine ⟨fun sent mem ended m named settled => absurd settled (unsettled sent mem ended m named),?_⟩
    refine List.pairwise_of_forall_mem_list ?_
    intro sent mem _ _ ended m named settled
    exact absurd settled (unsettled sent mem ended m named)
  | false =>
    have before := quiet recording_
    refine ⟨fun sent mem ended m named settled =>
      before.timer sent mem ended m named (settledBefore settled),?_⟩
    refine before.order.imp ?_
    intro _ _ silent ended m named settled
    exact silent ended m named (settledBefore settled)

theorem sentStart {rt : Booth} {event : Event} {origin : Option Nat}
    (silent : startRecording ∉ (coreStep rt.state (event,rt.accepting)).2) :
    (rt.handleEvent event origin).lastStart = rt.lastStart := by
  have none_ : numbered starts rt.effects.log.length (emits rt event origin) = [] := by
    refine numberedNone starts ?_
    intro item mem
    obtain ⟨effect,own,rfl⟩ := List.mem_map.mp mem
    refine decide_eq_false ?_
    rintro rfl
    exact silent own
  rw [lastStart,handleEffects]
  refine (latestAppend starts _ _).trans ?_
  rw [show (coreStep rt.state (event,rt.accepting)).2.map (fun effect =>
    (⟨effect,rt.announcedBy event origin⟩ : Emitted)) = emits rt event origin from rfl,none_]
  rfl

theorem continueOwn {rt : Booth} {event : Event} {origin : Option Nat} {start : Nat}
    (own : OwnedBy start rt) (last : rt.lastStart = some start) :
    OwnedBy start (rt.handleEvent event origin) := by
  refine ⟨own.events,own.timer,?_,own.captured⟩
  intro n emitted waits recorder
  rcases handleWaits waits with old | ⟨late,_⟩
  · exact own.waiting n emitted old recorder
  · obtain ⟨_,found,_⟩ := latestFound starts last
    have inside := (List.getElem?_eq_some_iff.mp found).1
    omega

theorem openOwn {rt : Booth} {event : Event} {origin : Option Nat} {front back : List Effect}
    (same : (coreStep rt.state (event,rt.accepting)).2 = front ++ startRecording :: back)
    (quiet : ∀ effect ∈ front, isRecorder effect = false) (once : startRecording ∉ back) {m : Nat}
    (settled : Settled rt.effects.log m) (taken : m < rt.effects.taken)
    (timer : rt.recorder.timer = none) (silent : ∀ sent ∈ rt.events, sent.event.ofRecorder = false) :
    ∃ start ∈ (rt.handleEvent event origin).lastStart, OwnedBy start (rt.handleEvent event origin) := by
  have fits := rt.effects.bounded
  refine ⟨rt.effects.log.length + front.length,?_,?_,?_,?_,?_⟩
  · have before : numbered starts rt.effects.log.length
        (front.map fun effect => (⟨effect,rt.announcedBy event origin⟩ : Emitted)) = [] := by
      refine numberedNone starts ?_
      intro item mem
      obtain ⟨effect,inside,rfl⟩ := List.mem_map.mp mem
      refine decide_eq_false ?_
      rintro rfl
      cases quiet _ inside
    have after (start : Nat) : numbered starts start
        (back.map fun effect => (⟨effect,rt.announcedBy event origin⟩ : Emitted)) = [] := by
      refine numberedNone starts ?_
      intro item mem
      obtain ⟨effect,inside,rfl⟩ := List.mem_map.mp mem
      refine decide_eq_false ?_
      rintro rfl
      exact once inside
    rw [lastStart,handleEffects]
    refine (latestAppend starts _ _).trans ?_
    rw [same,List.map_append,numberedAppend,before,List.map_cons,numbered,after,List.length_map]
    rfl
  · intro sent mem report
    rw [silent sent mem] at report
    cases report
  · intro n ticking
    rw [show (rt.handleEvent event origin).recorder = rt.recorder from rfl,timer] at ticking
    cases ticking
  · intro n emitted waits recorder
    rcases handleWaits waits with old | ⟨late,new⟩
    · exact absurd settled (waitsUnsettled old recorder taken)
    · rw [emits,same] at new
      by_contra early
      have inside : n - rt.effects.log.length < front.length := by omega
      rw [List.map_append,List.getElem?_append_left (by rwa [List.length_map]),
        List.getElem?_map] at new
      obtain ⟨effect,found,rfl⟩ := Option.map_eq_some_iff.mp new
      rw [quiet effect (List.mem_of_getElem? found)] at recorder
      cases recorder
  · intro reached
    have taken_ : (rt.handleEvent event origin).effects.taken = rt.effects.taken := rfl
    omega

theorem handleRecording {rt : Booth} {event : Event} {origin : Option Nat} (heard : Heard rt)
    (rooted : Rooted rt) (disarmed : rt.state.recorded = false → Disarmed rt)
    (quiet : rt.state.recorded = false → Quiet rt)
    (own : rt.state.answering.isSome = true →
      (rt.handleEvent event origin).state.answering.isSome = true →
      ∃ start ∈ rt.lastStart, OwnedBy start rt)
    (opening : rt.state.beeping = true → event = playbackEnded →
      (∃ m, Settled rt.effects.log m ∧ m < rt.effects.taken) ∧ rt.recorder.timer = none ∧
        ∀ sent ∈ rt.events, sent.event.ofRecorder = false) :
    RecordingInvariant (rt.handleEvent event origin) := by
  have records := stepRecords rt.state (event,rt.accepting)
  refine ⟨⟨heard.events,heard.current,heard.commands⟩,⟨?_,?_⟩,handleDisarmed rooted disarmed,
    handleQuiet heard quiet,?_⟩
  · intro sent mem report
    obtain ⟨n,named,before,emitted,found,cause⟩ := rooted.events sent mem report
    exact ⟨n,named,before,emitted,Channel.sentFound _ found,cause⟩
  · intro n ticking
    obtain ⟨before,emitted,found,arms⟩ := rooted.timer n ticking
    exact ⟨before,emitted,Channel.sentFound _ found,arms⟩
  · intro after
    by_cases under : rt.state.answering.isSome = true
    · obtain ⟨start,last,owned⟩ := own under after
      have silent : startRecording ∉ (coreStep rt.state (event,rt.accepting)).2 := by
        intro started
        rw [(beepingFree (records.opens (.inl started)).1).1] at under
        cases under
      exact ⟨start,(sentStart silent).trans last,continueOwn owned last⟩
    · have free : rt.state.answering = none := Option.not_isSome_iff_eq_none.mp under
      obtain ⟨beeping,ended,front,back,same,silent,once⟩ := records.opens (.inr (.inr ⟨free,after⟩))
      obtain ⟨⟨m,settled,taken⟩,timer,events⟩ := opening beeping ended
      exact openOwn same silent once settled taken timer events

theorem bootRecording (minRecordingMs : Nat) (recordingsDir : String) (accepting onHook : Bool)
    (spool : Spool) : RecordingInvariant (boot minRecordingMs recordingsDir accepting onHook spool) := by
  have heard : Heard (atRest minRecordingMs recordingsDir accepting onHook spool) := by
    refine ⟨?_,?_,?_⟩
    · intro sent mem; cases mem
    · intro m mem; cases mem
    · intro command mem; cases mem
  have rooted : Rooted (atRest minRecordingMs recordingsDir accepting onHook spool) := by
    refine ⟨?_,?_⟩
    · intro sent mem; cases mem
    · intro n mem; cases mem
  have disarmed : Disarmed (atRest minRecordingMs recordingsDir accepting onHook spool) := by
    rintro n (ticking | ⟨emitted,⟨_,found⟩,_⟩)
    · cases ticking
    · cases found
  have quiet : Quiet (atRest minRecordingMs recordingsDir accepting onHook spool) :=
    ⟨fun sent mem => absurd mem List.not_mem_nil,.nil⟩
  have free : (atRest minRecordingMs recordingsDir accepting onHook spool).state.answering = none := by
    cases accepting <;> rfl
  refine bootInvariant ⟨heard,rooted,fun _ => disarmed,fun _ => quiet,?_⟩
    (handleRecording heard rooted (fun _ => disarmed) (fun _ => quiet) ?_ ?_)
  · rw [free]
    intro under
    cases under
  · rw [free]
    intro under
    cases under
  · intro _ ended
    cases ended

theorem RecordingInvariant.quietStep {rt rt' : Booth} {label : Label}
    (invariant : RecordingInvariant rt) (step : BoothStep rt label rt')
    (quiet : isQuiet label = true) (running : rt'.phase = .running) : RecordingInvariant rt' := by
  have still := quietStill step quiet
  have driven := recorderStepCases step quiet running
  refine ⟨quietHeard invariant.heard step quiet running,quietRooted invariant.rooted driven still.log,
    ?_,?_,?_⟩
  · rw [still.state]
    exact fun closed => quietDisarmed (invariant.disarmed closed) driven still.log
  · rw [still.state]
    exact fun closed => quietQuiet (invariant.quiet closed) invariant.heard
      (invariant.disarmed closed) driven still.log
  · rw [still.state,lastStart,still.log]
    intro under
    obtain ⟨start,last,own⟩ := invariant.own under
    exact ⟨start,last,quietOwn own invariant.rooted last driven still.log⟩

theorem nextOwn {rt : Booth} {sent : Sent} {events : List Sent} {start : Nat} (own : OwnedBy start rt)
    (next : rt.events = sent :: events) (under : rt.state.answering.isSome = true)
    (goes : (({ rt with events } : Booth).handleEvent sent.event sent.origin).state.answering.isSome =
      true) : OwnedBy start { rt with events } := by
  have old {any : Sent} (mem : any ∈ events) : any ∈ rt.events := by
    rw [next]
    exact List.mem_cons_of_mem _ mem
  refine ⟨fun any mem => own.events any (old mem),own.timer,own.waiting,?_⟩
  intro reached
  rcases own.captured reached with ⟨capture,finished⟩ | ⟨front,failure,back,same,⟨reason,fails⟩,before⟩
  · exact .inl ⟨capture,fun any mem => finished any (old mem)⟩
  · rw [next] at same
    cases front with
    | nil =>
      obtain ⟨rfl,rfl⟩ := List.cons.inj same
      obtain ⟨q,at_⟩ := Option.isSome_iff_exists.mp under
      have ended := ((stepCarries rt.state (sent.event,rt.accepting)).failed q reason at_ fails).2
      rw [handleState,show ({ rt with events } : Booth).state = rt.state from rfl,
        show ({ rt with events } : Booth).accepting = rt.accepting from rfl,ended] at goes
      cases goes
    | cons head front =>
      obtain ⟨rfl,rfl⟩ := List.cons.inj same
      exact .inr ⟨front,failure,back,rfl,⟨reason,fails⟩,
        fun any mem => before any (List.mem_cons_of_mem _ mem)⟩

theorem ownReport {rt : Booth} {sent : Sent} {events : List Sent} (invariant : RecordingInvariant rt)
    (next : rt.events = sent :: events) (under : rt.state.answering.isSome = true)
    (report : sent.event.ofRecorder = true) :
    ∃ start ∈ rt.lastStart, (∃ number ∈ sent.origin, start ≤ number ∧
        ∃ emitted ∈ rt.effects.log[number]?, sent.event.causedBy emitted.effect = true) ∧
      (sent.event.finishes = true → sent.captured = some start) := by
  have mem : sent ∈ rt.events := by rw [next]; exact List.mem_cons_self
  obtain ⟨start,last,own⟩ := invariant.own under
  obtain ⟨n,named,before,cause⟩ := invariant.rooted.events sent mem report
  have later := own.events sent mem report n named
  refine ⟨start,last,⟨n,named,later,cause⟩,?_⟩
  intro finishes
  rcases own.captured (by omega) with ⟨_,finished⟩ | ⟨front,failure,back,same,⟨reason,fails⟩,first⟩
  · exact finished sent mem finishes
  · rw [next] at same
    cases front with
    | nil =>
      obtain ⟨rfl,_⟩ := List.cons.inj same
      rw [fails] at finishes
      cases finishes
    | cons head front =>
      obtain ⟨rfl,_⟩ := List.cons.inj same
      rw [first sent List.mem_cons_self] at finishes
      cases finishes

theorem stepRecording {rt rt' : Booth} {label : Label} (done : rt.step label = some rt')
    (invariant : rt.phase = .running → RecordingInvariant rt) (settled : BeepsSettled rt label rt') :
    (rt'.phase = .running → RecordingInvariant rt') ∧ RecordingsKeepApart rt label rt' := by
  have step := stepCases done
  cases step with
  | handle running next =>
    rename_i sent events
    have holds := invariant running
    have mem : sent ∈ rt.events := by rw [next]; exact List.mem_cons_self
    have old {any : Sent} (inside : any ∈ events) : any ∈ rt.events := by
      rw [next]
      exact List.mem_cons_of_mem _ inside
    simp only [BeepsSettled,RecordingsKeepApart,next] at settled ⊢
    refine ⟨fun _ => handleRecording ⟨fun any inside => holds.heard.events any (old inside),
      holds.heard.current,holds.heard.commands⟩
      ⟨fun any inside => holds.rooted.events any (old inside),holds.rooted.timer⟩ holds.disarmed
      ?_ ?_ ?_,ownReport holds next⟩
    · intro closed
      have quiet := holds.quiet closed
      have order := quiet.order
      rw [next] at order
      exact ⟨fun any inside => quiet.timer any (old inside),(List.pairwise_cons.mp order).2⟩
    · intro under goes
      obtain ⟨start,last,own⟩ := holds.own under
      exact ⟨start,last,nextOwn own next under goes⟩
    · intro beeping ended
      obtain ⟨m,named,free⟩ := settled beeping ended
      have quiet := holds.quiet (beepingFree beeping).2
      have order := quiet.order
      rw [next] at order
      exact ⟨⟨m,free,holds.heard.events sent mem ended m named⟩,quiet.timer sent mem ended m named free,
        fun any inside => (List.pairwise_cons.mp order).1 any inside ended m named free⟩
  | reconcile running =>
    have holds := invariant running
    refine ⟨fun _ => handleRecording ⟨holds.heard.events,holds.heard.current,holds.heard.commands⟩
      ⟨holds.rooted.events,holds.rooted.timer⟩ holds.disarmed
      (fun closed => ⟨(holds.quiet closed).timer,(holds.quiet closed).order⟩) ?_ ?_,trivial⟩
    · intro under _
      obtain ⟨start,last,own⟩ := holds.own under
      exact ⟨start,last,own.events,own.timer,own.waiting,own.captured⟩
    · intro _ ended
      cases ended
  | restart accepting onHook => exact ⟨fun _ => bootRecording _ _ _ _ _,trivial⟩
  | _ =>
    refine ⟨fun running => ?_,trivial⟩
    have step := stepCases done
    exact (invariant (quietRunning step rfl running)).quietStep step rfl running

theorem recordingsKeepApart (minRecordingMs : Nat) (recordingsDir : String) (accepting onHook : Bool)
    (entries : List SpoolEntry) (labels : List Label)
    (settled : Transition.Along Booth.step BeepsSettled
      (boot minRecordingMs recordingsDir accepting onHook (.opened entries)) labels) :
    Transition.Along Booth.step RecordingsKeepApart
      (boot minRecordingMs recordingsDir accepting onHook (.opened entries)) labels :=
  Transition.along Booth.step (fun rt => rt.phase = .running → RecordingInvariant rt)
    (fun _ _ _ => stepRecording) (fun _ => bootRecording _ _ _ _ _) settled

def answerOne : List Label :=
  dialOne ++ [.fetch 6 .inactive,.handle] ++ carryOut 4 3 ++ [.speaker (.ended true),.handle] ++
    carryOut 2 1 ++ [.speaker (.ended true),.handle] ++ carryOut 3 1 ++
    [.speaker (.ended true),.handle] ++ carryOut 3 0 ++ [.recordingTimeout,.handle] ++
    carryOut 2 0 ++ [.take { stop := .ok (some "r1") },.handle]

theorem answerOneKeepsApart : Transition.Along Booth.step RecordingsKeepApart
    (boot 1000 "recordings" true true (.opened [])) answerOne :=
  recordingsKeepApart 1000 "recordings" true true [] _ (by decide)

def abandonedCall : List Label :=
  dialThree ++ carryOut 7 0 ++ [.pulseTimeout,.handle,.sense hookOn,.handle] ++ carryOut 10 0

def endAfter (commands : Nat) : List Label :=
  carryOut 0 commands ++ [.speaker (.ended true),.handle]

/- Two fetches in one call, the first stalled behind its token check; three prompts of
abandoned calls end late and carry the second question to its recording, whose start fails. -/
def hastyRecording : List Label :=
  abandonedCall ++ abandonedCall ++ abandonedCall ++
    [.sense hookOff,.handle,.sense rotaryPulse,.handle] ++ carryOut 5 0 ++
    [.pulseTimeout,.handle] ++ carryOut 3 0 ++
    [.fetch 57 (.ok { id := "q1" }),.fetch 57 .inactive,.sense rotaryPulse,.handle] ++
    carryOut 2 0 ++ [.pulseTimeout,.handle] ++ carryOut 3 0 ++
    [.fetch 62 (.ok { id := "q2" }),.fetch 62 .inactive,.fetch 62 .inactive,.fetch 62 .inactive,
      .handle] ++ endAfter 3 ++ endAfter 4 ++ endAfter 4 ++
    [.sense hookOn] ++ carryOut 9 0 ++ [.take { start := some "busy" }]

/- The hang-up and the failed start end that recording with its stop still to be carried out.
The stalled clip and the three ends left over open the next one, and the stop fails it. -/
def failNextRecording : List Label :=
  [.handle,.handle,.sense hookOff,.handle,.fetch 57 .inactive,.fetch 57 .inactive,.handle] ++
    endAfter 5 ++ endAfter 1 ++ endAfter 1 ++ carryOut 6 0 ++ [.handle]

set_option maxRecDepth 8000 in
theorem lateStopFailsNextRecording : ¬ ∀ labels, Transition.Along Booth.step RecordingsKeepApart
    (boot 1000 "recordings" true true (.opened [])) labels := by
  intro kept
  have crossed := kept (hastyRecording ++ failNextRecording)
  revert crossed
  decide

end TelephoneBooth
