import TelephoneBooth.AudioPath

/-! The end of a clip and the state that waits for it. `PlaybackEnded` names no clip; the
select in `audio_task` may report one whose replacement is already on its way, and nothing
else makes the core take one clip's end for another's. -/
namespace TelephoneBooth
open Booth State Event Effect

def State.awaitsPlayback : State → Bool
  | ringingQuestion _ | playingQuestion _ | State.beep _ | playingMessage | playingInstructions
  | callUnavailable | uploadingTimedOut _ _ true | recordingEndedBeep => true
  | _ => false

def isPlay : Effect → Bool
  | play _ => true
  | _ => false

def isClip : Effect → Bool
  | play source => !source.endless
  | _ => false

def plays (emitted : Emitted) : Bool := isPlay emitted.effect

def Booth.lastPlay (rt : Booth) : Option Nat := latest plays rt.effects.log

def Booth.waitingPlays (rt : Booth) : List Nat :=
  rt.speaker.commands.filterMap AudioCommand.number ++ rt.effects.pending plays

def Booth.voices (rt : Booth) : List Nat :=
  (if rt.speaker.playing then rt.speaker.current.toList else []) ++ rt.waitingPlays

def Unended (events : List Sent) : Prop := ∀ sent ∈ events, sent.event ≠ playbackEnded

def OrdersClip (rt after : Booth) : Prop :=
  ∃ emitted ∈ after.effects.log.drop rt.effects.log.length, isClip emitted.effect = true

/- While the core waits for a clip to end, none ends with a `Play` still to reach the sink;
and the core orders a clip with no end of another left to handle. -/
def ClipsEndInTurn (rt : Booth) (label : Label) (after : Booth) : Prop :=
  match label with
  | .speaker (.ended true) => rt.state.awaitsPlayback = true → rt.waitingPlays = []
  | .handle => OrdersClip rt after → Unended rt.events.tail
  | .reconcile => OrdersClip rt after → Unended rt.events
  | _ => True

/-- An end of playback handled in a waiting state is that of the last clip ordered. -/
def EndsLastClip (rt : Booth) (label : Label) (_ : Booth) : Prop :=
  match label, rt.events with
  | .handle, sent :: _ => rt.state.awaitsPlayback = true → sent.event = playbackEnded →
      ∃ number ∈ sent.origin, rt.lastPlay = some number
  | _, _ => True

instance (events : List Sent) : Decidable (Unended events) :=
  inferInstanceAs (Decidable (∀ sent ∈ events, _))

instance (rt after : Booth) : Decidable (OrdersClip rt after) :=
  inferInstanceAs (Decidable (∃ emitted ∈ _, _))

instance (rt : Booth) (label : Label) (after : Booth) :
    Decidable (ClipsEndInTurn rt label after) := by
  unfold ClipsEndInTurn
  split <;> infer_instance

instance (rt : Booth) (label : Label) (after : Booth) : Decidable (EndsLastClip rt label after) := by
  unfold EndsLastClip
  generalize rt.events = events
  rcases label with _ | _ <;> rcases events with _ | _ <;> infer_instance

def Awaits (s s' : State) (effects : List Effect) : Prop :=
  s'.awaitsPlayback = true →
    (∃ effect ∈ effects, isClip effect = true) ∨
      s.awaitsPlayback = true ∧ ∀ effect ∈ effects, isPlay effect = false

theorem dialAwaits {digit : UInt8} (awaits : (decodeDigit digit).1.awaitsPlayback = true) :
    ∃ effect ∈ (decodeDigit digit).2, isClip effect = true := by
  revert awaits
  unfold decodeDigit
  repeat' split
  all_goals
    intro awaits
    first
      | (cases awaits; done)
      | exact ⟨play (.builtin .callUnavailable),by simp,rfl⟩

theorem armAwaits {s e s' effects} (arm : Arm s e s' effects) : Awaits s s' effects := by
  intro awaits
  cases arm
  case stay same => exact .inr ⟨awaits,by simp⟩
  case power effect button =>
    refine .inr ⟨awaits,?_⟩
    rcases button with ⟨_,rfl⟩ | ⟨_,rfl⟩ <;> simp [isPlay]
  case fail fails => cases fails <;> cases awaits
  case dial digit dials => exact .inl (dialAwaits awaits)
  case uploadedBeeping r q done => exact .inr ⟨rfl,by simp⟩
  case answered q => exact .inl ⟨_,List.mem_cons_self,rfl⟩
  case asked q => exact .inl ⟨_,List.mem_cons_self,rfl⟩
  case ring q => exact .inl ⟨_,List.mem_cons_self,rfl⟩
  case playMessage => exact .inl ⟨_,List.mem_cons_self,rfl⟩
  case playInstructions => exact .inl ⟨_,List.mem_cons_self,rfl⟩
  case timedOutFinished q r => exact .inl ⟨_,List.mem_cons_self,rfl⟩
  case finished q r => exact .inl ⟨play (.builtin .beep),by simp,rfl⟩
  all_goals cases awaits

theorem silencedAwaits {s : State} (safe : s.isProtected = true) :
    (silenceBeep s).1.awaitsPlayback = false := by
  cases s with
  | uploadingTimedOut r q pending => cases pending <;> rfl
  | _ => first | rfl | cases safe

theorem turnAwaits {s e accepting s' effects} (turn : Turn s e accepting s' effects) :
    Awaits s s' effects := by
  intro awaits
  cases turn with
  | stale dropped => exact .inr ⟨awaits,by simp⟩
  | inner settled open_ same => exact armAwaits (innerArm same) awaits
  | resumedDigit paused position input =>
    obtain ⟨effect,mem,clip⟩ := dialAwaits awaits
    exact .inl ⟨effect,List.mem_append_right _ mem,clip⟩
  | kept settled safe same still =>
    rw [silencedAwaits still] at awaits
    cases awaits
  | resumedIdle | resumedTone | resumedPulse | stillPaused | cut | released => cases awaits

theorem stepAwaits (s : State) (i : Input) : Awaits s (coreStep s i).1 (coreStep s i).2 := by
  obtain ⟨effects,same,turn⟩ := stepTurn s i
  rw [same]
  intro awaits
  rcases turnAwaits turn awaits with ⟨effect,mem,clip⟩ | ⟨waiting,silent⟩
  · exact .inl ⟨effect,List.mem_append_right _ mem,clip⟩
  · refine .inr ⟨waiting,?_⟩
    intro effect mem
    rcases List.mem_append.mp mem with led | own
    · obtain ⟨colour,pattern,rfl⟩ := ledChangeMem led
      rfl
    · exact silent effect own

structure PlaybackInvariant (rt : Booth) : Prop where
  order : ∀ number, rt.voices.getLast? = some number → rt.lastPlay = some number
  sounding : rt.speaker.playing = true → rt.speaker.current.isSome = true
  heard : rt.state.awaitsPlayback = true → ∀ sent ∈ rt.events, sent.event = playbackEnded →
    ∃ number ∈ sent.origin, rt.lastPlay = some number

@[simp] theorem sendVoices (rt : Booth) (notices : List Notice) :
    (rt.send notices).voices = rt.voices := by
  simp [voices,waitingPlays]

theorem PlaybackInvariant.keep {rt rt' : Booth} (invariant : PlaybackInvariant rt)
    (still : CoreStill rt rt')
    (voices : ∀ number, rt'.voices.getLast? = some number → rt.voices.getLast? = some number)
    (sounding : rt'.speaker.playing = true → rt'.speaker.current.isSome = true)
    (heard : rt.state.awaitsPlayback = true → ∀ sent ∈ rt'.events, sent.event = playbackEnded →
      sent ∈ rt.events ∨ ∃ number ∈ sent.origin, rt.lastPlay = some number) :
    PlaybackInvariant rt' := by
  have last : rt'.lastPlay = rt.lastPlay := by rw [lastPlay,lastPlay,still.log]
  refine ⟨?_,sounding,?_⟩
  · intro number found
    rw [last]
    exact invariant.order number (voices number found)
  · intro waiting sent mem ended
    rw [still.state] at waiting
    rw [last]
    rcases heard waiting sent mem ended with old | new
    · exact invariant.heard waiting sent old ended
    · exact new

theorem lastOfSuffix {front back : List Nat} {number : Nat} (last : back.getLast? = some number) :
    (front ++ back).getLast? = some number := by
  rw [List.getLast?_append,last]
  rfl

theorem sentUnended {rt : Booth} {notices : List Notice} {sent : Sent} (plain : Plain notices)
    (mem : sent ∈ (rt.send notices).events) (ended : sent.event = playbackEnded) :
    sent ∈ rt.events := by
  rcases sendEvents mem with old | ⟨notice,new,rfl⟩
  · exact old
  · exact absurd ended (plain notice new).2

theorem obeyCommands (s : Speaker) (accepted : Bool) (command : AudioCommand) :
    (s.obey accepted command).commands = s.commands := by
  cases command <;> cases accepted <;> rfl

theorem obeyVoices {s : Speaker} {command : AudioCommand} {rest : List AudioCommand}
    (accepted : Bool) (waiting : List Nat) (number : Nat)
    (last : ((if (({ s with commands := rest } : Speaker).obey accepted command).playing then
        (({ s with commands := rest } : Speaker).obey accepted command).current.toList else []) ++
      (rest.filterMap AudioCommand.number ++ waiting)).getLast? = some number) :
    ((if s.playing then s.current.toList else []) ++
      ((command :: rest).filterMap AudioCommand.number ++ waiting)).getLast? = some number := by
  cases command with
  | play source own =>
    refine lastOfSuffix ?_
    have ordered : (AudioCommand.play source own :: rest).filterMap AudioCommand.number =
      own :: rest.filterMap AudioCommand.number := rfl
    rw [ordered,List.cons_append,List.getLast?_cons]
    cases accepted with
    | false =>
      simp only [Speaker.obey,Bool.false_eq_true,if_false,List.nil_append] at last
      rw [last]
      rfl
    | true =>
      simp only [Speaker.obey,if_true] at last
      split at last
      · rw [Option.toList_some,List.singleton_append,List.getLast?_cons] at last
        exact last
      · rw [List.nil_append] at last
        rw [last]
        rfl
  | stop =>
    simp only [Speaker.obey,Bool.false_eq_true,if_false,List.nil_append] at last
    exact lastOfSuffix last
  | shutdown => exact last

theorem obeySounding {s : Speaker} {command : AudioCommand} (accepted : Bool)
    (sounding : s.playing = true → s.current.isSome = true)
    (playing : (s.obey accepted command).playing = true) :
    (s.obey accepted command).current.isSome = true := by
  cases command with
  | play source number =>
    cases accepted with
    | true => rfl
    | false => cases playing
  | stop => cases playing
  | shutdown => exact sounding playing

theorem otherSilent {effect : Effect} (other : isAudio effect = false) : isPlay effect = false := by
  cases effect <;> first
    | rfl
    | cases other

theorem executeVoices {rt rt' : Booth} {number : Nat} {emitted : Emitted} {effects : Channel Emitted}
    {reply : InlineReply} (received : rt.effects.receive = some ((number,emitted),effects))
    (done : AudioEffect { rt with effects } number reply emitted.effect rt') :
    rt'.voices = rt.voices ∧ rt'.speaker.playing = rt.speaker.playing ∧
      rt'.speaker.current = rt.speaker.current := by
  have moved := Channel.pendingReceived plays received
  obtain ⟨effect,announced⟩ := emitted
  simp only [plays] at moved done
  cases done with
  | play source =>
    refine ⟨?_,rfl,rfl⟩
    simp only [voices,waitingPlays,Speaker.enqueue,moved,isPlay,if_true,List.filterMap_append,
      List.append_assoc]
    rfl
  | stopAudio =>
    refine ⟨?_,rfl,rfl⟩
    have silent : [AudioCommand.stop].filterMap AudioCommand.number = [] := rfl
    simp [voices,waitingPlays,Speaker.enqueue,moved,isPlay,silent]
    rfl
  | startRecording | armRecordingTimeout | cancelRecordingTimeout | stopRecording =>
    refine ⟨?_,by simp,by simp⟩
    simp [voices,waitingPlays,moved,isPlay]

theorem executeUnended {rt rt' : Booth} {number : Nat} {effect : Effect} {reply : InlineReply}
    (done : AudioEffect rt number reply effect rt') {sent : Sent} (mem : sent ∈ rt'.events)
    (ended : sent.event = playbackEnded) : sent ∈ rt.events := by
  cases done with
  | play | stopAudio | armRecordingTimeout | cancelRecordingTimeout => exact mem
  | startRecording =>
    rcases sendEvents mem with old | ⟨notice,new,rfl⟩
    · exact old
    · obtain ⟨reason,_,rfl⟩ := startReports new
      cases ended
  | stopRecording stopped =>
    rcases sendEvents mem with old | ⟨notice,new,rfl⟩
    · exact old
    · rcases stopReports stopped with ⟨_,_,_,_,rfl⟩ | ⟨_,_,rfl⟩
      · rw [List.mem_singleton.mp new] at ended
        cases ended
      · rw [List.mem_singleton.mp new] at ended
        cases ended

theorem speakerPlayback {rt : Booth} {label : SpeakerLabel} {speaker : Speaker}
    {notices : List Notice} (invariant : PlaybackInvariant rt)
    (done : rt.speaker.step label = some (speaker,notices))
    (turn : ClipsEndInTurn rt (.speaker label) ({ rt with speaker }.send notices)) :
    PlaybackInvariant ({ rt with speaker }.send notices) := by
  have still : CoreStill rt ({ rt with speaker }.send notices) := by constructor <;> simp
  cases label with
  | command accepted =>
    simp only [Speaker.step] at done
    split at done
    · rename_i command rest running commands
      cases done
      rw [sendNone] at still ⊢
      refine invariant.keep still ?_ ?_ (fun _ _ mem _ => .inl mem)
      · intro number last
        simp only [voices,waitingPlays,obeyCommands] at last
        have heard := obeyVoices accepted (rt.effects.pending plays) number last
        simpa only [voices,waitingPlays,commands] using heard
      · exact obeySounding accepted invariant.sounding
    · cases done
  | ended natural =>
    simp only [Speaker.step] at done
    split at done
    · rename_i sounding
      obtain ⟨_,playing⟩ := Bool.and_eq_true_iff.mp sounding
      cases done
      refine invariant.keep still ?_ (fun playing => by simp at playing) ?_
      · intro number last
        rw [sendVoices] at last
        exact lastOfSuffix last
      · intro waiting sent mem ended
        rcases sendEvents mem with old | ⟨notice,new,rfl⟩
        · exact .inl old
        · cases natural with
          | false => cases new
          | true =>
            obtain rfl := List.mem_singleton.mp new
            have alone := turn waiting
            obtain ⟨number,current⟩ := Option.isSome_iff_exists.mp (invariant.sounding playing)
            refine .inr ⟨number,current,invariant.order number ?_⟩
            simp [voices,alone,playing,current]
    · cases done

theorem quietPlayback {rt rt' : Booth} {label : Label} (invariant : PlaybackInvariant rt)
    (step : BoothStep rt label rt') (quiet : isQuiet label = true) (running : rt'.phase = .running)
    (turn : ClipsEndInTurn rt label rt') : PlaybackInvariant rt' := by
  have still := quietStill step quiet
  -- neither the speaker nor the `Play`s on their way to it have changed
  have apart {mid : Booth} {notices : List Notice} (still : CoreStill rt (mid.send notices))
      (voices : mid.voices = rt.voices) (speaker : mid.speaker = rt.speaker)
      (events : mid.events = rt.events) (plain : Plain notices) :
      PlaybackInvariant (mid.send notices) := by
    refine invariant.keep still ?_ ?_ ?_
    · rw [sendVoices,voices]
      exact fun _ => id
    · rw [sendSpeaker,speaker]
      exact invariant.sounding
    · intro _ sent mem ended
      exact .inl (events ▸ sentUnended plain mem ended)
  cases audioStepCases step quiet running with
  | plain same plain =>
    rename_i mid notices
    have voices : mid.voices = rt.voices := by
      simp only [Booth.voices,waitingPlays,same.speaker,same.effects]
    exact apart still voices same.speaker same.events plain
  | pass received other same plain =>
    rename_i reply number emitted effects mid notices
    have moved := Channel.pendingReceived plays received
    have voices : mid.voices = rt.voices := by
      simp only [Booth.voices,waitingPlays,same.speaker,same.effects,moved,plays,otherSilent other]
      rfl
    exact apart still voices same.speaker same.events plain
  | execute received done =>
    obtain ⟨voices,playing,current⟩ := executeVoices received done
    refine invariant.keep still ?_ ?_ ?_
    · rw [voices]
      exact fun _ => id
    · rw [playing,current]
      exact invariant.sounding
    · intro _ sent mem ended
      exact .inl (executeUnended done mem ended)
  | fire done =>
    obtain ⟨armed,_,rfl,rfl⟩ := fireReports done
    refine invariant.keep still ?_ ?_ ?_
    · rw [sendVoices]
      exact fun _ => id
    · rw [sendSpeaker]
      exact invariant.sounding
    · intro _ sent mem ended
      rcases sendEvents mem with old | ⟨notice,new,rfl⟩
      · exact .inl old
      · rw [List.mem_singleton.mp new] at ended
        cases ended
  | speaker done => exact speakerPlayback invariant done turn

theorem handlePlayback {rt : Booth} (invariant : PlaybackInvariant rt) (event : Event)
    (origin : Option Nat)
    (turn : OrdersClip rt (rt.handleEvent event origin) → Unended rt.events) :
    PlaybackInvariant (rt.handleEvent event origin) := by
  have added := handleEffects rt event origin
  set emitted := (coreStep rt.state (event,rt.accepting)).2.map fun effect =>
    (⟨effect,rt.announcedBy event origin⟩ : Emitted) with emits
  set new := numbered plays rt.effects.log.length emitted with orders
  have last : (rt.handleEvent event origin).lastPlay = new.getLast?.or rt.lastPlay := by
    rw [lastPlay,added]
    exact latestAppend plays _ _
  have voices : (rt.handleEvent event origin).voices = rt.voices ++ new := by
    rw [Booth.voices,waitingPlays,added,Channel.pendingSent,← List.append_assoc,
      ← List.append_assoc]
    rw [Booth.voices,waitingPlays,← List.append_assoc]
    rfl
  refine ⟨?_,invariant.sounding,?_⟩
  · intro number found
    rw [voices,List.getLast?_append] at found
    rw [last]
    cases newest : new.getLast? with
    | none =>
      rw [newest] at found
      exact invariant.order number found
    | some ordered =>
      rw [newest] at found
      exact found
  · intro awaits sent mem ended
    rcases stepAwaits rt.state (event,rt.accepting) awaits with ⟨effect,inside,clip⟩ | ⟨waiting,silent⟩
    · have ordered : OrdersClip rt (rt.handleEvent event origin) := by
        refine ⟨⟨effect,rt.announcedBy event origin⟩,?_,clip⟩
        rw [added]
        simp only [Channel.send,List.drop_left]
        exact List.mem_map_of_mem inside
      exact absurd ended (turn ordered sent mem)
    · have none_ : new = [] := by
        refine numberedNone plays ?_
        intro item inside
        obtain ⟨effect,own,rfl⟩ := List.mem_map.mp inside
        exact silent effect own
      rw [last,none_]
      exact invariant.heard waiting sent mem ended

theorem bootPlayback (minRecordingMs : Nat) (recordingsDir : String) (accepting onHook : Bool)
    (spool : Spool) : PlaybackInvariant (boot minRecordingMs recordingsDir accepting onHook spool) := by
  have resting : PlaybackInvariant (atRest minRecordingMs recordingsDir accepting onHook spool) := by
    refine ⟨?_,?_,?_⟩
    · intro number last; cases last
    · intro playing; cases playing
    · intro _ sent mem; cases mem
  exact bootInvariant resting
    (handlePlayback resting _ _ (fun _ sent mem => absurd mem List.not_mem_nil))

theorem stepPlayback {rt rt' : Booth} {label : Label} (done : rt.step label = some rt')
    (invariant : rt.phase = .running → PlaybackInvariant rt) (turn : ClipsEndInTurn rt label rt') :
    (rt'.phase = .running → PlaybackInvariant rt') ∧ EndsLastClip rt label rt' := by
  have step := stepCases done
  cases step with
  | handle running next =>
    rename_i sent events
    have holds := invariant running
    have left : PlaybackInvariant { rt with events } := by
      refine ⟨holds.order,holds.sounding,?_⟩
      intro waiting other mem
      exact holds.heard waiting other (by rw [next]; exact List.mem_cons_of_mem _ mem)
    refine ⟨fun _ => handlePlayback left sent.event sent.origin ?_,?_⟩
    · intro ordered
      have unended := turn ordered
      rwa [next] at unended
    · simp only [EndsLastClip,next]
      intro waiting ended
      exact holds.heard waiting sent (by rw [next]; exact List.mem_cons_self) ended
  | reconcile running =>
    have holds := invariant running
    have left : PlaybackInvariant { rt with acceptingCalls := rt.accepting } :=
      ⟨holds.order,holds.sounding,holds.heard⟩
    exact ⟨fun _ => handlePlayback left tick none turn,trivial⟩
  | restart accepting onHook => exact ⟨fun _ => bootPlayback _ _ _ _ _,trivial⟩
  | _ =>
    refine ⟨fun running => ?_,trivial⟩
    have step := stepCases done
    exact quietPlayback (invariant (quietRunning step rfl running)) step rfl running turn

theorem endsLastClip (minRecordingMs : Nat) (recordingsDir : String) (accepting onHook : Bool)
    (entries : List SpoolEntry) (labels : List Label)
    (turn : Transition.Along Booth.step ClipsEndInTurn
      (boot minRecordingMs recordingsDir accepting onHook (.opened entries)) labels) :
    Transition.Along Booth.step EndsLastClip
      (boot minRecordingMs recordingsDir accepting onHook (.opened entries)) labels :=
  Transition.along Booth.step (fun rt => rt.phase = .running → PlaybackInvariant rt)
    (fun _ _ _ => stepPlayback) (fun _ => bootPlayback _ _ _ _ _) turn

def dialThree : List Label :=
  [.sense hookOff,.handle,.sense rotaryPulse,.handle,.sense rotaryPulse,.handle,
    .sense rotaryPulse,.handle]

def carryOut (effects commands : Nat) : List Label :=
  List.replicate effects (.take {}) ++ List.replicate commands (.speaker (.command true))

def hearUnavailable : List Label :=
  dialThree ++ carryOut 7 2 ++ [.pulseTimeout,.handle] ++ carryOut 5 1

theorem hearUnavailableEnds : Transition.Along Booth.step EndsLastClip
    (boot 1000 "recordings" true true (.opened []))
    (hearUnavailable ++ [.speaker (.ended true),.handle]) :=
  endsLastClip 1000 "recordings" true true [] _ (by decide)

set_option maxRecDepth 2000 in
/- The caller hangs up on the prompt and dials 3 again while `audio_task` is behind. The first
prompt ends with its stop still queued, and the core takes that for the end of the second. -/
theorem lateStopEndsNextClip : ¬ ∀ labels, Transition.Along Booth.step EndsLastClip
    (boot 1000 "recordings" true true (.opened [])) labels := by
  intro kept
  have stale := kept (hearUnavailable ++ [.sense hookOn,.handle] ++ dialThree ++ carryOut 12 0 ++
    [.pulseTimeout,.handle,.speaker (.ended true),.handle])
  revert stale
  decide

end TelephoneBooth
