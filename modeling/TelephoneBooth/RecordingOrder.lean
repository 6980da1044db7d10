import TelephoneBooth.RecorderStep
import TelephoneBooth.Playback

/-! The order in which recorder effects are carried out and what they cause is heard, and what
follows from it for the recording under way. -/
namespace TelephoneBooth
open Booth State Event Effect

def records (emitted : Emitted) : Bool := isRecorder emitted.effect

def starts (emitted : Emitted) : Bool := decide (emitted.effect = startRecording)

def Booth.lastStart (rt : Booth) : Option Nat := latest starts rt.effects.log

def Event.finishes : Event → Bool
  | recordingFinished _ => true
  | _ => false

def Event.causedBy : Event → Effect → Bool
  | recordingFinished _, stopRecording => true
  | recordingFailed _, startRecording | recordingFailed _, stopRecording => true
  | recordingTimedOut, armRecordingTimeout => true
  | _, _ => false

def Settled (log : List Emitted) (m : Nat) : Prop := ∀ n ∈ numbered records 0 log, n < m

instance (log : List Emitted) (m : Nat) : Decidable (Settled log m) :=
  inferInstanceAs (Decidable (∀ n ∈ _, _))

structure Heard (rt : Booth) : Prop where
  events : ∀ sent ∈ rt.events, sent.event = playbackEnded → ∀ m ∈ sent.origin,
    m < rt.effects.taken
  current : ∀ m ∈ rt.speaker.current, m < rt.effects.taken
  commands : ∀ command ∈ rt.speaker.commands, ∀ m ∈ command.number, m < rt.effects.taken

structure Rooted (rt : Booth) : Prop where
  events : ∀ sent ∈ rt.events, sent.event.ofRecorder = true → ∃ n ∈ sent.origin,
    n < rt.effects.taken ∧ ∃ emitted ∈ rt.effects.log[n]?, sent.event.causedBy emitted.effect = true
  timer : ∀ n ∈ rt.recorder.timer, n < rt.effects.taken ∧
    ∃ emitted ∈ rt.effects.log[n]?, emitted.effect = armRecordingTimeout

def Disarmed (rt : Booth) : Prop :=
  ∀ n, (n ∈ rt.recorder.timer ∨
      ∃ emitted, rt.effects.Waits n emitted ∧ emitted.effect = armRecordingTimeout) →
    ∃ c emitted, n < c ∧ rt.effects.Waits c emitted ∧ emitted.effect = cancelRecordingTimeout

structure Quiet (rt : Booth) : Prop where
  timer : ∀ sent ∈ rt.events, sent.event = playbackEnded → ∀ m ∈ sent.origin,
    Settled rt.effects.log m → rt.recorder.timer = none
  order : rt.events.Pairwise fun earlier later => earlier.event = playbackEnded →
    ∀ m ∈ earlier.origin, Settled rt.effects.log m → later.event.ofRecorder = false

def FailsFirst (events : List Sent) : Prop :=
  ∃ front failure back, events = front ++ failure :: back ∧
    (∃ reason, failure.event = recordingFailed reason) ∧
    ∀ sent ∈ front, sent.event.finishes = false

structure OwnedBy (start : Nat) (rt : Booth) : Prop where
  events : ∀ sent ∈ rt.events, sent.event.ofRecorder = true → ∀ n ∈ sent.origin, start ≤ n
  timer : ∀ n ∈ rt.recorder.timer, start ≤ n
  waiting : ∀ n emitted, rt.effects.Waits n emitted → isRecorder emitted.effect = true → start ≤ n
  captured : start < rt.effects.taken →
    ((∀ started ∈ rt.recorder.capture, started = start) ∧
      ∀ sent ∈ rt.events, sent.event.finishes = true → sent.captured = some start) ∨
    FailsFirst rt.events

structure RecordingInvariant (rt : Booth) : Prop where
  heard : Heard rt
  rooted : Rooted rt
  disarmed : rt.state.recorded = false → Disarmed rt
  quiet : rt.state.recorded = false → Quiet rt
  own : rt.state.answering.isSome = true → ∃ start ∈ rt.lastStart, OwnedBy start rt

theorem waitsNumbered {rt : Booth} {n : Nat} {emitted : Emitted} (waits : rt.effects.Waits n emitted)
    (recorder : isRecorder emitted.effect = true) : n ∈ numbered records 0 rt.effects.log :=
  (numberedMem records).mpr ⟨Nat.zero_le n,emitted,waits.2,recorder⟩

theorem waitsUnsettled {rt : Booth} {n m : Nat} {emitted : Emitted}
    (waits : rt.effects.Waits n emitted) (recorder : isRecorder emitted.effect = true)
    (taken : m < rt.effects.taken) : ¬ Settled rt.effects.log m := by
  intro settled
  have before := settled n (waitsNumbered waits recorder)
  have after := waits.1
  omega

theorem drivenRecorder {r r' : Recorder} {number : Nat} {effect : Effect} {notices : List Notice}
    (driven : Driven r number effect r' notices) : isRecorder effect = true := by
  cases driven <;> rfl

theorem drivenReports {r r' : Recorder} {number : Nat} {effect : Effect} {notices : List Notice}
    (driven : Driven r number effect r' notices) {notice : Notice} (mem : notice ∈ notices) :
    notice.origin = some number ∧ notice.event.causedBy effect = true ∧
      notice.event ≠ playbackEnded := by
  cases driven with
  | started | armed | cancelled => cases mem
  | refused | finished | failed =>
    rw [List.mem_singleton.mp mem]
    exact ⟨rfl,rfl,by simp⟩

theorem drivenTimer {r r' : Recorder} {number : Nat} {effect : Effect} {notices : List Notice}
    (driven : Driven r number effect r' notices) {n : Nat} (ticking : n ∈ r'.timer) :
    n ∈ r.timer ∧ effect ≠ cancelRecordingTimeout ∨ n = number ∧ effect = armRecordingTimeout := by
  cases driven with
  | started | refused | finished => exact .inl ⟨ticking,by simp⟩
  | failed reason r' kept =>
    rcases kept with rfl | rfl
    · exact .inl ⟨ticking,by simp⟩
    · exact .inl ⟨ticking,by simp⟩
  | armed => exact .inr ⟨(Option.some.inj ticking).symm,rfl⟩
  | cancelled => cases ticking

theorem receiveTaken {rt : Booth} {number : Nat} {emitted : Emitted} {effects : Channel Emitted}
    (received : rt.effects.receive = some ((number,emitted),effects)) :
    effects.taken = rt.effects.taken + 1 ∧ effects.log = rt.effects.log ∧
      number = rt.effects.taken := by
  obtain ⟨place,_,log,taken⟩ := Channel.receiveCases received
  exact ⟨by omega,log,place⟩

theorem executeHeard {rt rt' : Booth} {number : Nat} {effect : Effect} {reply : InlineReply}
    {announced : Option Notice} {effects : Channel Emitted} (heard : Heard rt)
    (received : rt.effects.receive = some ((number,⟨effect,announced⟩),effects))
    (done : AudioEffect { rt with effects } number reply effect rt') : Heard rt' := by
  obtain ⟨taken,_,place⟩ := receiveTaken received
  have le : rt.effects.taken ≤ effects.taken := by omega
  have events (sent : Sent) (mem : sent ∈ rt'.events) (ended : sent.event = playbackEnded) (m : Nat)
      (origin : m ∈ sent.origin) : m < effects.taken :=
    Nat.lt_of_lt_of_le (heard.events sent (executeUnended done mem ended) ended m origin) le
  have current (m : Nat) (mem : m ∈ rt.speaker.current) : m < effects.taken :=
    Nat.lt_of_lt_of_le (heard.current m mem) le
  have commands (command : AudioCommand) (mem : command ∈ rt.speaker.commands) (m : Nat)
      (own : m ∈ command.number) : m < effects.taken :=
    Nat.lt_of_lt_of_le (heard.commands command mem m own) le
  cases done with
  | play source =>
    refine ⟨events,current,?_⟩
    intro command mem m own
    rcases List.mem_append.mp mem with queued | new
    · exact commands command queued m own
    · obtain rfl := List.mem_singleton.mp new
      obtain rfl := Option.some.inj own
      show number < effects.taken
      omega
  | stopAudio =>
    refine ⟨events,current,?_⟩
    intro command mem m own
    rcases List.mem_append.mp mem with queued | new
    · exact commands command queued m own
    · obtain rfl := List.mem_singleton.mp new
      cases own
  | armRecordingTimeout | cancelRecordingTimeout => exact ⟨events,current,commands⟩
  | startRecording | stopRecording =>
    refine ⟨?_,?_,?_⟩
    · simpa using events
    · simpa using current
    · simpa using commands

theorem speakerHeard {rt : Booth} {label : SpeakerLabel} {speaker : Speaker} {notices : List Notice}
    (heard : Heard rt) (done : rt.speaker.step label = some (speaker,notices)) :
    Heard ({ rt with speaker }.send notices) := by
  cases label with
  | command accepted =>
    simp only [Speaker.step] at done
    split at done
    · rename_i command rest _ commands
      cases done
      have queued := heard.commands
      rw [commands] at queued
      rw [sendNone]
      refine ⟨heard.events,?_,?_⟩
      · cases command with
        | play source number =>
          cases accepted with
          | true =>
            intro m mem
            exact queued _ List.mem_cons_self m mem
          | false => exact heard.current
        | stop | shutdown => exact heard.current
      · rw [obeyCommands]
        exact fun other mem => queued other (List.mem_cons_of_mem _ mem)
    · cases done
  | ended natural =>
    simp only [Speaker.step] at done
    split at done
    · cases done
      refine ⟨?_,by simpa using heard.current,by simpa using heard.commands⟩
      intro sent mem ended m origin
      rw [sendEffects]
      rcases sendEvents mem with old | ⟨notice,new,rfl⟩
      · exact heard.events sent old ended m origin
      · cases natural with
        | false => cases new
        | true =>
          obtain rfl := List.mem_singleton.mp new
          exact heard.current m origin
    · cases done

theorem quietHeard {rt rt' : Booth} {label : Label} (heard : Heard rt)
    (step : BoothStep rt label rt') (quiet : isQuiet label = true) (running : rt'.phase = .running) :
    Heard rt' := by
  have later {taken : Nat} (le : rt.effects.taken ≤ taken) {events : List Sent}
      (old : ∀ sent ∈ events, sent.event = playbackEnded → sent ∈ rt.events) :
      ∀ sent ∈ events, sent.event = playbackEnded → ∀ m ∈ sent.origin, m < taken := by
    intro sent mem ended m origin
    exact Nat.lt_of_lt_of_le (heard.events sent (old sent mem ended) ended m origin) le
  cases audioStepCases step quiet running with
  | plain same plain =>
    refine ⟨later (by simp [same.effects]) ?_,?_,?_⟩
    · intro sent mem ended
      exact same.events ▸ sentUnended plain mem ended
    · simpa [same.speaker,same.effects] using heard.current
    · simpa [same.speaker,same.effects] using heard.commands
  | pass received other same plain =>
    obtain ⟨taken,_,_⟩ := receiveTaken received
    have le : rt.effects.taken ≤ _ := Nat.le_of_lt (Nat.lt_of_lt_of_eq (Nat.lt_succ_self _) taken.symm)
    refine ⟨later (by simpa [same.effects] using le) ?_,?_,?_⟩
    · intro sent mem ended
      exact same.events ▸ sentUnended plain mem ended
    · rw [sendSpeaker,sendEffects,same.speaker,same.effects]
      exact fun m mem => Nat.lt_of_lt_of_le (heard.current m mem) le
    · rw [sendSpeaker,sendEffects,same.speaker,same.effects]
      exact fun command mem m own => Nat.lt_of_lt_of_le (heard.commands command mem m own) le
  | execute received done =>
    rename_i reply number emitted effects
    obtain ⟨effect,announced⟩ := emitted
    exact executeHeard heard received done
  | fire done =>
    obtain ⟨armed,_,rfl,rfl⟩ := fireReports done
    refine ⟨later (by simp) ?_,by simpa using heard.current,by simpa using heard.commands⟩
    intro sent mem ended
    rcases sendEvents mem with old | ⟨notice,new,rfl⟩
    · exact old
    · rw [List.mem_singleton.mp new] at ended
      cases ended
  | speaker done => exact speakerHeard heard done

theorem driveEvents {rt rt' : Booth} {number : Nat} {effect : Effect} {notices : List Notice}
    {recorder : Recorder} (driven : Driven rt.recorder number effect recorder notices)
    (events : rt'.events = rt.events ++ notices.map fun notice => ⟨notice,number + 1⟩)
    {sent : Sent} (mem : sent ∈ rt'.events) :
    sent ∈ rt.events ∨ sent.origin = some number ∧ sent.event.causedBy effect = true ∧
      sent.event ≠ playbackEnded := by
  rw [events] at mem
  rcases List.mem_append.mp mem with old | new
  · exact .inl old
  · obtain ⟨notice,inside,rfl⟩ := List.mem_map.mp new
    exact .inr (drivenReports driven inside)

theorem quietRooted {rt rt' : Booth} (rooted : Rooted rt) (step : RecorderStep rt rt')
    (log : rt'.effects.log = rt.effects.log) : Rooted rt' := by
  have later {taken : Nat} (le : rt.effects.taken ≤ taken) (sent : Sent) (mem : sent ∈ rt.events)
      (report : sent.event.ofRecorder = true) : ∃ n ∈ sent.origin, n < taken ∧
        ∃ emitted ∈ rt.effects.log[n]?, sent.event.causedBy emitted.effect = true := by
    obtain ⟨n,origin,before,cause⟩ := rooted.events sent mem report
    exact ⟨n,origin,Nat.lt_of_lt_of_le before le,cause⟩
  cases step with
  | bystand still =>
    obtain ⟨sent,events,plain⟩ := still.events
    refine ⟨?_,?_⟩
    · intro any mem report
      rw [events] at mem
      rw [log]
      rcases List.mem_append.mp mem with old | new
      · exact later still.taken any old report
      · rw [(plain any new).1] at report
        cases report
    · rw [still.recorder,log]
      intro n ticking
      obtain ⟨before,armed⟩ := rooted.timer n ticking
      exact ⟨Nat.lt_of_lt_of_le before still.taken,armed⟩
  | drive received driven same events =>
    rename_i number emitted effects notices
    obtain ⟨taken,_,place⟩ := receiveTaken received
    obtain ⟨_,found⟩ := Channel.receivedWaits received
    have le : rt.effects.taken ≤ effects.taken := by omega
    refine ⟨?_,?_⟩
    · intro any mem report
      rw [log,same]
      rcases driveEvents driven events mem with old | ⟨origin,cause,_⟩
      · exact later le any old report
      · exact ⟨number,origin,by omega,emitted,found,cause⟩
    · intro n ticking
      rw [log,same]
      rcases drivenTimer driven ticking with ⟨old,_⟩ | ⟨rfl,armed⟩
      · obtain ⟨before,armed⟩ := rooted.timer n old
        exact ⟨Nat.lt_of_lt_of_le before le,armed⟩
      · exact ⟨by omega,emitted,found,armed⟩
  | fire ticking recorder effects events =>
    rename_i armed
    refine ⟨?_,?_⟩
    · intro any mem report
      rw [events] at mem
      rw [effects]
      rcases List.mem_append.mp mem with old | new
      · exact rooted.events any old report
      · obtain ⟨before,emitted,found,arms⟩ := rooted.timer armed ticking
        obtain rfl := List.mem_singleton.mp new
        exact ⟨armed,rfl,before,emitted,found,by rw [arms]; rfl⟩
    · rw [recorder]
      intro n none_
      cases none_

theorem quietDisarmed {rt rt' : Booth} (disarmed : Disarmed rt) (step : RecorderStep rt rt')
    (log : rt'.effects.log = rt.effects.log) : Disarmed rt' := by
  intro n armed
  cases step with
  | bystand still =>
    have before : n ∈ rt.recorder.timer ∨
        ∃ emitted, rt.effects.Waits n emitted ∧ emitted.effect = armRecordingTimeout := by
      rcases armed with ticking | ⟨emitted,waits,arms⟩
      · exact .inl (still.recorder ▸ ticking)
      · exact .inr ⟨emitted,⟨Nat.le_trans still.taken waits.1,log ▸ waits.2⟩,arms⟩
    obtain ⟨c,emitted,after,waits,cancels⟩ := disarmed n before
    exact ⟨c,emitted,after,still.waits c emitted waits (by rw [cancels]; rfl),cancels⟩
  | drive received driven same events =>
    rename_i number emitted effects notices
    obtain ⟨taken,_,place⟩ := receiveTaken received
    have here := Channel.receivedWaits received
    rw [same] at armed ⊢
    -- the cancellation still waits, unless it is the effect just carried out
    have onward {c : Nat} {other : Emitted} (after : n < c) (waits : rt.effects.Waits c other)
        (cancels : other.effect = cancelRecordingTimeout) (apart : c ≠ number) :
        ∃ c emitted, n < c ∧ effects.Waits c emitted ∧ emitted.effect = cancelRecordingTimeout := by
      have low := waits.1
      exact ⟨c,other,after,⟨by omega,by rw [← same,log]; exact waits.2⟩,cancels⟩
    have same_ {c : Nat} {other : Emitted} (waits : rt.effects.Waits c other) (at_ : c = number) :
        other = emitted := by
      have found := waits.2
      rw [at_,here.2] at found
      exact (Option.some.inj found).symm
    rcases armed with ticking | ⟨item,waits,arms⟩
    · rcases drivenTimer driven ticking with ⟨old,keeps⟩ | ⟨rfl,arms⟩
      · obtain ⟨c,other,after,waits,cancels⟩ := disarmed n (.inl old)
        refine onward after waits cancels fun at_ => keeps ?_
        rw [← same_ waits at_,cancels]
      · obtain ⟨c,other,after,waits,cancels⟩ := disarmed n (.inr ⟨emitted,here,arms⟩)
        exact onward after waits cancels (by omega)
    · obtain ⟨before,later⟩ := Channel.waitsReceived received waits
      obtain ⟨c,other,after,waits,cancels⟩ := disarmed n (.inr ⟨item,before,arms⟩)
      exact onward after waits cancels (by omega)
  | fire ticking recorder effects events =>
    rw [recorder,effects] at armed
    rw [effects]
    rcases armed with none_ | waits
    · cases none_
    · exact disarmed n (.inr waits)

theorem quietQuiet {rt rt' : Booth} (quiet : Quiet rt) (heard : Heard rt) (disarmed : Disarmed rt)
    (step : RecorderStep rt rt') (log : rt'.effects.log = rt.effects.log) : Quiet rt' := by
  cases step with
  | bystand still =>
    obtain ⟨sent,events,plain⟩ := still.events
    refine ⟨?_,?_⟩
    · intro any mem ended m origin settled
      rw [log] at settled
      rw [still.recorder]
      rw [events] at mem
      rcases List.mem_append.mp mem with old | new
      · exact quiet.timer any old ended m origin settled
      · rw [(plain any new).2 ended] at origin
        -- a timer would have its cancellation still waiting behind the clip just heard
        cases timer : rt.recorder.timer with
        | none => rfl
        | some n =>
          obtain ⟨c,emitted,_,waits,cancels⟩ := disarmed n (.inl timer)
          exact absurd settled (waitsUnsettled waits (by rw [cancels]; rfl) (heard.current m origin))
    · rw [events,log]
      refine List.pairwise_append.mpr ⟨quiet.order,?_,?_⟩
      · exact List.pairwise_of_forall_mem_list fun _ _ other mem _ _ _ _ => (plain other mem).1
      · exact fun _ _ other mem _ _ _ _ => (plain other mem).1
  | drive received driven same events =>
    rename_i number emitted effects notices
    have here := Channel.receivedWaits received
    have unsettled (sent : Sent) (mem : sent ∈ rt.events) (ended : sent.event = playbackEnded)
        (m : Nat) (origin : m ∈ sent.origin) : ¬ Settled rt.effects.log m :=
      waitsUnsettled here (drivenRecorder driven) (heard.events sent mem ended m origin)
    refine ⟨?_,?_⟩
    · intro any mem ended m origin settled
      rw [log] at settled
      rcases driveEvents driven events mem with old | ⟨_,_,other⟩
      · exact absurd settled (unsettled any old ended m origin)
      · exact absurd ended other
    · rw [events,log]
      refine List.pairwise_append.mpr ⟨quiet.order,?_,?_⟩
      · refine List.pairwise_of_forall_mem_list ?_
        intro any mem _ _ ended
        obtain ⟨notice,inside,rfl⟩ := List.mem_map.mp mem
        exact absurd ended (drivenReports driven inside).2.2
      · intro any mem _ _ ended m origin settled
        exact absurd settled (unsettled any mem ended m origin)
  | fire ticking recorder effects events =>
    have unsettled (sent : Sent) (mem : sent ∈ rt.events) (ended : sent.event = playbackEnded)
        (m : Nat) (origin : m ∈ sent.origin) : ¬ Settled rt.effects.log m := by
      intro settled
      rw [quiet.timer sent mem ended m origin settled] at ticking
      cases ticking
    refine ⟨?_,?_⟩
    · rw [recorder]
      exact fun _ _ _ _ _ _ => rfl
    · rw [events,log]
      refine List.pairwise_append.mpr ⟨quiet.order,List.pairwise_singleton _ _,?_⟩
      intro any mem _ _ ended m origin settled
      exact absurd settled (unsettled any mem ended m origin)

theorem FailsFirst.append {events : List Sent} (fails : FailsFirst events) (more : List Sent) :
    FailsFirst (events ++ more) := by
  obtain ⟨front,failure,back,rfl,reason,before⟩ := fails
  exact ⟨front,failure,back ++ more,by simp,reason,before⟩

theorem finishesOfRecorder {event : Event} (finishes : event.finishes = true) :
    event.ofRecorder = true := by
  cases event <;> first
    | rfl
    | cases finishes

theorem unstarted {rt : Booth} {start : Nat} (own : OwnedBy start rt) (rooted : Rooted rt)
    (ahead : rt.effects.taken ≤ start) {sent : Sent} (mem : sent ∈ rt.events) :
    sent.event.ofRecorder = false := by
  cases report : sent.event.ofRecorder with
  | false => rfl
  | true =>
    obtain ⟨n,origin,before,_⟩ := rooted.events sent mem report
    have after := own.events sent mem report n origin
    omega

theorem driveCaptured {rt : Booth} {start number : Nat} {effect : Effect} {recorder : Recorder}
    {notices : List Notice} (own : OwnedBy start rt) (rooted : Rooted rt)
    (driven : Driven rt.recorder number effect recorder notices) (place : number = rt.effects.taken)
    (reached : start ≤ number) (begins : effect = startRecording ↔ number = start) :
    ((∀ started ∈ recorder.capture, started = start) ∧
      ∀ sent ∈ rt.events ++ notices.map fun notice => (⟨notice,number + 1⟩ : Sent),
        sent.event.finishes = true → sent.captured = some start) ∨
    FailsFirst (rt.events ++ notices.map fun notice => ⟨notice,number + 1⟩) := by
  by_cases here : number = start
  · have silent (sent : Sent) (mem : sent ∈ rt.events) : sent.event.finishes = false := by
      cases finishes : sent.event.finishes with
      | false => rfl
      | true =>
        have report := finishesOfRecorder finishes
        rw [unstarted own rooted (by omega) mem] at report
        cases report
    obtain rfl := begins.mpr here
    cases driven with
    | started =>
      refine .inl ⟨fun started same => (Option.some.inj same).symm.trans here,?_⟩
      intro sent mem finishes
      rw [List.map_nil,List.append_nil] at mem
      rw [silent sent mem] at finishes
      cases finishes
    | refused reason => exact .inr ⟨rt.events,_,[],rfl,⟨reason,rfl⟩,silent⟩
  · have before : start < rt.effects.taken := by omega
    rcases own.captured before with ⟨capture,finished⟩ | fails
    · cases driven with
      | started => exact absurd (begins.mp rfl) here
      | refused => exact absurd (begins.mp rfl) here
      | armed | cancelled => exact .inl ⟨capture,by simpa using finished⟩
      | finished recordingId started capturing =>
        refine .inl ⟨fun _ capture => (by cases capture),?_⟩
        intro sent mem finishes
        rcases List.mem_append.mp mem with old | new
        · exact finished sent old finishes
        · obtain rfl := List.mem_singleton.mp new
          exact congrArg some (capture started capturing)
      | failed reason r' kept =>
        refine .inl ⟨?_,?_⟩
        · rcases kept with rfl | rfl
          · exact capture
          · intro _ none_
            cases none_
        · intro sent mem finishes
          rcases List.mem_append.mp mem with old | new
          · exact finished sent old finishes
          · obtain rfl := List.mem_singleton.mp new
            cases finishes
    · exact .inr (fails.append _)

theorem bystandOwn {rt rt' : Booth} {start : Nat} (own : OwnedBy start rt)
    (last : rt.lastStart = some start) (still : Bystands rt rt')
    (log : rt'.effects.log = rt.effects.log) : OwnedBy start rt' := by
  obtain ⟨opening,found,opens⟩ := latestFound starts last
  have begins : opening.effect = startRecording := of_decide_eq_true opens
  obtain ⟨sent,events,plain⟩ := still.events
  have old (any : Sent) (mem : any ∈ rt'.events) (report : any.event.ofRecorder = true) :
      any ∈ rt.events := by
    rw [events] at mem
    rcases List.mem_append.mp mem with old | new
    · exact old
    · rw [(plain any new).1] at report
      cases report
  refine ⟨?_,?_,?_,?_⟩
  · exact fun any mem report => own.events any (old any mem report) report
  · rw [still.recorder]
    exact own.timer
  · rintro n emitted ⟨later,waiting⟩
    exact own.waiting n emitted ⟨Nat.le_trans still.taken later,log ▸ waiting⟩
  · intro after
    -- the start has been carried out before: no step that stands by takes it
    have before : start < rt.effects.taken := by
      rcases Nat.lt_or_ge start rt.effects.taken with before | ahead
      · exact before
      · have waits := still.waits start opening ⟨ahead,found⟩ (by rw [begins]; rfl)
        have low := waits.1
        omega
    rw [still.recorder]
    rcases own.captured before with ⟨capture,finished⟩ | fails
    · exact .inl ⟨capture,fun any mem finishes =>
        finished any (old any mem (finishesOfRecorder finishes)) finishes⟩
    · rw [events]
      exact .inr (fails.append sent)

theorem driveOwn {rt rt' : Booth} {start number : Nat} {emitted : Emitted}
    {effects : Channel Emitted} {notices : List Notice} (own : OwnedBy start rt) (rooted : Rooted rt)
    (last : rt.lastStart = some start)
    (received : rt.effects.receive = some ((number,emitted),effects))
    (driven : Driven rt.recorder number emitted.effect rt'.recorder notices)
    (same : rt'.effects = effects)
    (events : rt'.events = rt.events ++ notices.map fun notice => ⟨notice,number + 1⟩) :
    OwnedBy start rt' := by
  obtain ⟨opening,found,opens⟩ := latestFound starts last
  have begins : opening.effect = startRecording := of_decide_eq_true opens
  obtain ⟨taken,_,place⟩ := receiveTaken received
  have here := Channel.receivedWaits received
  have reached := own.waiting number emitted here (drivenRecorder driven)
  refine ⟨?_,?_,?_,?_⟩
  · intro any mem report n origin
    rcases driveEvents driven events mem with old | ⟨named,_,_⟩
    · exact own.events any old report n origin
    · rw [named] at origin
      obtain rfl := Option.some.inj origin
      exact reached
  · intro n ticking
    rcases drivenTimer driven ticking with ⟨old,_⟩ | ⟨rfl,_⟩
    · exact own.timer n old
    · exact reached
  · intro n other waits
    rw [same] at waits
    exact own.waiting n other (Channel.waitsReceived received waits).1
  · intro _
    rw [events]
    refine driveCaptured own rooted driven place reached ⟨fun begun => ?_,fun at_ => ?_⟩
    · have most := latestGreatest starts last here.2 (decide_eq_true begun)
      omega
    · have waiting := here.2
      rw [at_,found] at waiting
      rw [← Option.some.inj waiting,begins]

theorem fireOwn {rt rt' : Booth} {start armed : Nat} (own : OwnedBy start rt)
    (ticking : rt.recorder.timer = some armed)
    (recorder : rt'.recorder = { rt.recorder with timer := none })
    (effects : rt'.effects = rt.effects)
    (events : rt'.events = rt.events ++
      [⟨{ event := recordingTimedOut, origin := some armed },rt.effects.taken⟩]) :
    OwnedBy start rt' := by
  refine ⟨?_,?_,?_,?_⟩
  · intro any mem report n origin
    rw [events] at mem
    rcases List.mem_append.mp mem with old | new
    · exact own.events any old report n origin
    · obtain rfl := List.mem_singleton.mp new
      obtain rfl := Option.some.inj origin
      exact own.timer _ ticking
  · rw [recorder]
    intro n none_
    cases none_
  · rw [effects]
    exact own.waiting
  · rw [effects,recorder,events]
    intro after
    rcases own.captured after with ⟨capture,finished⟩ | fails
    · refine .inl ⟨capture,?_⟩
      intro any mem finishes
      rcases List.mem_append.mp mem with old | new
      · exact finished any old finishes
      · obtain rfl := List.mem_singleton.mp new
        cases finishes
    · exact .inr (fails.append _)

theorem quietOwn {rt rt' : Booth} {start : Nat} (own : OwnedBy start rt) (rooted : Rooted rt)
    (last : rt.lastStart = some start) (step : RecorderStep rt rt')
    (log : rt'.effects.log = rt.effects.log) : OwnedBy start rt' := by
  cases step with
  | bystand still => exact bystandOwn own last still log
  | drive received driven same events => exact driveOwn own rooted last received driven same events
  | fire ticking recorder effects events => exact fireOwn own ticking recorder effects events

end TelephoneBooth
