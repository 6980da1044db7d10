import TelephoneBooth.Waits
import TelephoneBooth.RecorderStep

/-! What a waiting state waits for, followed through the processes. It is still to be carried
out, under way, or answered by an event that is still to be handled; a clip alone can be lost
on the way, by failing to start or to end. -/
namespace TelephoneBooth
open State Event Effect Booth

structure Asked (w : Wait) (log : List Emitted) (n : Nat) : Prop where
  last : latest (fun emitted => w.concerns emitted.effect) log = some n
  asks : ∃ emitted ∈ log[n]?, w.asks emitted.effect = true

def GoesOn (w : Wait) (under : Booth → Nat → Prop) (rt : Booth) : Prop :=
  (∃ n, Asked w rt.effects.log n ∧ (rt.effects.taken ≤ n ∨ under rt n)) ∨
    ∃ sent ∈ rt.events, w.answers sent.event = true

theorem askedBound {w : Wait} {log : List Emitted} {n : Nat} (asked : Asked w log n) :
    n < log.length := by
  obtain ⟨emitted,found,_⟩ := asked.asks
  exact (List.getElem?_eq_some_iff.mp found).1

theorem askedSent {w : Wait} {log more : List Emitted} {n : Nat} (asked : Asked w log n)
    (others : ∀ emitted ∈ more, w.concerns emitted.effect = false) : Asked w (log ++ more) n := by
  have inside := askedBound asked
  obtain ⟨last,emitted,found,asks⟩ := asked
  refine ⟨?_,emitted,?_,asks⟩
  · rw [latestAppend,numberedNone _ others]
    exact last
  · rw [List.getElem?_append_left inside]
    exact found

theorem askedNow {w : Wait} {log front back : List Emitted} {emitted : Emitted}
    (concerns : w.concerns emitted.effect = true) (asks : w.asks emitted.effect = true)
    (others : ∀ later ∈ back, w.concerns later.effect = false) :
    Asked w (log ++ (front ++ emitted :: back)) (log.length + front.length) := by
  refine ⟨?_,emitted,?_,asks⟩
  · rw [← List.append_assoc,List.append_cons,latestAppend,numberedNone _ others,latestAppend,numbered,
      if_pos concerns,List.length_append]
    rfl
  · rw [List.getElem?_append_right (Nat.le_add_right _ _),Nat.add_sub_cancel_left,
      List.getElem?_append_right (Nat.le_refl _),Nat.sub_self]
    rfl

theorem askedReceived {w : Wait} {c c' : Channel Emitted} {n number : Nat} {emitted : Emitted}
    {under : Prop} (asked : Asked w c.log n) (received : c.receive = some ((number,emitted),c'))
    (place : c.taken ≤ n ∨ under) : c'.taken ≤ n ∨ number = n ∧ w.asks emitted.effect = true ∨
      w.concerns emitted.effect = false ∧ under := by
  obtain ⟨next,found,_,taken⟩ := Channel.receiveCases received
  rcases Nat.lt_trichotomy number n with before | same | after
  · exact .inl (by omega)
  · obtain ⟨other,there,asks⟩ := asked.asks
    rw [← same,found] at there
    cases there
    exact .inr (.inl ⟨same,asks⟩)
  · rcases place with early | way
    · omega
    · refine .inr (.inr ⟨?_,way⟩)
      cases concerned : w.concerns emitted.effect with
      | false => rfl
      | true =>
        have newest := latestGreatest _ asked.last found concerned
        omega

theorem handleGoesOn {w : Wait} {under : Booth → Nat → Prop} {rt : Booth} (lawful : w.Lawful)
    (asking : ∀ effect, w.asks effect = true → w.concerns effect = true) (event : Event)
    (origin : Option Nat) (frame : ∀ n, under rt n → under (rt.handleEvent event origin) n)
    (held : w.waits rt.state = true → w.heard rt.state event = false → GoesOn w under rt)
    (waits : w.waits (rt.handleEvent event origin).state = true) :
    GoesOn w under (rt.handleEvent event origin) := by
  have owes := Wait.stepOwes lawful rt.state (event,rt.accepting) waits
  have added := handleEffects rt event origin
  rcases Wait.askedCases owes with ⟨front,effect,back,same,asks,others⟩ | ⟨before,others⟩
  · refine .inl ⟨rt.effects.log.length + front.length,?_,.inl ?_⟩
    · rw [added,same]
      simp only [Channel.send,List.map_append,List.map_cons]
      have size : (front.map fun effect =>
          (⟨effect,rt.announcedBy event origin⟩ : Emitted)).length = front.length := List.length_map _
      rw [← size]
      refine askedNow (asking _ asks) asks ?_
      intro later mem
      obtain ⟨other,inside,rfl⟩ := List.mem_map.mp mem
      exact others other inside
    · have fits := rt.effects.bounded
      have taken : (rt.handleEvent event origin).effects.taken = rt.effects.taken := rfl
      omega
  · obtain ⟨waited,unheard⟩ := Bool.and_eq_true_iff.mp before
    have unheard_ : w.heard rt.state event = false := by simpa using unheard
    rcases held waited unheard_ with ⟨n,asked,place⟩ | reported
    · refine .inl ⟨n,?_,?_⟩
      · rw [added]
        refine askedSent asked ?_
        intro emitted mem
        obtain ⟨effect,inside,rfl⟩ := List.mem_map.mp mem
        exact others effect inside
      · exact place.imp id (frame n)
    · exact .inr reported

theorem quietGoesOn {w : Wait} {under : Booth → Nat → Prop} {rt rt' : Booth}
    (held : GoesOn w under rt) (log : rt'.effects.log = rt.effects.log)
    (events : ∀ sent ∈ rt.events, sent ∈ rt'.events)
    (moves : ∀ n, Asked w rt.effects.log n → rt.effects.taken ≤ n ∨ under rt n →
      (rt'.effects.taken ≤ n ∨ under rt' n) ∨ ∃ sent ∈ rt'.events, w.answers sent.event = true) :
    GoesOn w under rt' := by
  rcases held with ⟨n,asked,place⟩ | ⟨sent,mem,answer⟩
  · rcases moves n asked place with goes | answered
    · exact .inl ⟨n,by rwa [log],goes⟩
    · exact .inr answered
  · exact .inr ⟨sent,events sent mem,answer⟩

theorem sendKeeps {rt : Booth} (notices : List Notice) {sent : Sent} (mem : sent ∈ rt.events) :
    sent ∈ (rt.send notices).events := by
  unfold send
  split
  · exact List.mem_append_left _ mem
  · exact mem

theorem sendTells (rt : Booth) (running : rt.phase = .running) {notices : List Notice}
    {notice : Notice} (mem : notice ∈ notices) :
    ∃ sent ∈ (rt.send notices).events, sent.event = notice.event := by
  rw [sendRunning rt running]
  exact ⟨⟨notice,rt.effects.taken⟩,List.mem_append_right _ (List.mem_map_of_mem mem),rfl⟩

theorem quietEvents {rt rt' : Booth} {label : Label} (step : BoothStep rt label rt')
    (quiet : isQuiet label = true) (running : rt'.phase = .running) {sent : Sent}
    (mem : sent ∈ rt.events) : sent ∈ rt'.events := by
  cases pulseStepCases step quiet running with
  | still still => exact sendKeeps _ (still.events ▸ mem)
  | carry received events => exact sendKeeps _ (events ▸ mem)
  | fire armed => exact sendKeeps _ mem

theorem timedOther {effect : Effect} (other : timesPulses effect = false) (armed : Bool) :
    timed effect armed = armed := by
  cases effect <;> first
    | rfl
    | cases other

theorem groupQuiet {rt rt' : Booth} {label : Label} (step : BoothStep rt label rt')
    (quiet : isQuiet label = true) (running : rt'.phase = .running) {n : Nat}
    (asked : Asked groupWait rt.effects.log n)
    (place : rt.effects.taken ≤ n ∨ rt.pulseTimeout = true) :
    (rt'.effects.taken ≤ n ∨ rt'.pulseTimeout = true) ∨
      ∃ sent ∈ rt'.events, endsGroup sent.event = true := by
  have started := quietRunning step quiet running
  cases pulseStepCases step quiet running with
  | still still =>
    refine .inl ?_
    rwa [sendEffects,sendPulseTimeout,still.effects,still.timer]
  | carry received events after timer =>
    refine .inl ?_
    rw [sendEffects,sendPulseTimeout,after,timer]
    rcases askedReceived asked received place with early | ⟨_,asks⟩ | ⟨other,armed⟩
    · exact .inl early
    · rw [show _ = armPulseTimeout from eq_of_beq asks]
      exact .inr rfl
    · rw [timedOther other]
      exact .inr armed
  | fire armed =>
    obtain ⟨sent,mem,same⟩ := sendTells { rt with pulseTimeout := false } started
      (List.mem_singleton.mpr (rfl : ({ event := tick } : Notice) = _))
    exact .inr ⟨sent,mem,by rw [same]; rfl⟩

theorem bystandWaits {w : Wait} {rt rt' : Booth} {n : Nat} (still : Bystands rt rt')
    (asked : Asked w rt.effects.log n) (early : rt.effects.taken ≤ n)
    (recorder : ∀ effect, w.asks effect = true → isRecorder effect = true) :
    rt'.effects.taken ≤ n := by
  obtain ⟨emitted,found,asks⟩ := asked.asks
  exact (still.waits n emitted ⟨early,found⟩ (recorder _ asks)).1

theorem answerQuiet {rt rt' : Booth} {label : Label} (step : BoothStep rt label rt')
    (quiet : isQuiet label = true) (running : rt'.phase = .running) {n : Nat}
    (asked : Asked answerWait rt.effects.log n)
    (place : rt.effects.taken ≤ n ∨ rt.recorder.timer.isSome = true) :
    (rt'.effects.taken ≤ n ∨ rt'.recorder.timer.isSome = true) ∨
      ∃ sent ∈ rt'.events, endsAnswer sent.event = true := by
  cases recorderStepCases step quiet running with
  | bystand still =>
    refine .inl (place.imp (fun early => bystandWaits still asked early ?_) ?_)
    · intro effect asks
      rw [show effect = armRecordingTimeout from eq_of_beq asks]
      rfl
    · rw [still.recorder]
      exact id
  | drive received driven taken events =>
    refine .inl ?_
    rw [taken]
    rcases askedReceived asked received place with early | ⟨_,asks⟩ | ⟨other,ticking⟩
    · exact .inl early
    · rw [show _ = armRecordingTimeout from eq_of_beq asks] at driven
      generalize rt'.recorder = recorder at driven
      cases driven
      exact .inr rfl
    · rename_i number emitted effects notices
      generalize emitted.effect = effect at driven other
      generalize rt'.recorder = recorder at driven
      cases driven with
      | armed | cancelled => cases other
      | failed reason recorder kept =>
        rcases kept with rfl | rfl
        · exact .inr ticking
        · exact .inr ticking
      | _ => exact .inr ticking
  | fire ticking recorder effects events =>
    rw [events]
    exact .inr ⟨_,List.mem_append_right _ (List.mem_singleton.mpr rfl),rfl⟩

theorem stopQuiet {rt rt' : Booth} {label : Label} (step : BoothStep rt label rt')
    (quiet : isQuiet label = true) (running : rt'.phase = .running) {n : Nat}
    (asked : Asked stopWait rt.effects.log n) (place : rt.effects.taken ≤ n ∨ False) :
    (rt'.effects.taken ≤ n ∨ False) ∨ ∃ sent ∈ rt'.events, reportsStop sent.event = true := by
  cases recorderStepCases step quiet running with
  | bystand still =>
    refine .inl (place.imp (fun early => bystandWaits still asked early ?_) id)
    intro effect asks
    rw [show effect = stopRecording from eq_of_beq asks]
    rfl
  | drive received driven taken events =>
    rw [taken,events]
    rcases askedReceived asked received place with early | ⟨_,asks⟩ | ⟨_,none_⟩
    · exact .inl (.inl early)
    · rw [show _ = stopRecording from eq_of_beq asks] at driven
      generalize rt'.recorder = recorder at driven
      cases driven with
      | finished | failed =>
        exact .inr ⟨_,List.mem_append_right _ (List.mem_singleton.mpr rfl),rfl⟩
    · exact none_.elim
  | fire ticking recorder effects events =>
    rw [effects]
    exact .inl place

def SlotEnds (f : Fetcher) : Prop := ∀ clip ∈ f.nextRemoteAudio, clip.source.endless = false

theorem operatorAudioEnds (recordingsDir : String) (answer : ClipAnswer) :
    (operatorAudioRef recordingsDir answer).endless = false := by
  unfold operatorAudioRef
  split
  · split <;> rfl
  · rfl

theorem fetchEnds {f f' : Fetcher} {number : Nat} {reply : FetchReply} {notices : List Notice}
    (held : SlotEnds f) (done : f.step number reply = some (f',notices)) : SlotEnds f' := by
  obtain ⟨task,_,done⟩ := Option.bind_eq_some_iff.mp done
  dsimp only at done
  repeat' split at done
  all_goals cases done
  all_goals first
    | exact held
    | skip
  intro clip mem
  obtain rfl := Option.some.inj mem
  exact operatorAudioEnds _ _

theorem resolveEnds {f : Fetcher} (held : SlotEnds f) (source : AudioRef) :
    SlotEnds (f.resolveAudioRef source).2 ∧
      (source.endless = false → (f.resolveAudioRef source).1.endless = false) := by
  unfold Fetcher.resolveAudioRef
  split
  · split
    · refine ⟨fun clip mem => (by cases mem),fun ends_ => ?_⟩
      cases stored : f.nextRemoteAudio with
      | none => exact ends_
      | some clip => exact held clip stored
    · exact ⟨held,id⟩
  · exact ⟨held,id⟩

theorem executeEnds {rt rt' : Booth} {number : Nat} {effect : Effect} {reply : InlineReply}
    (done : Executes rt number reply effect rt') (held : SlotEnds rt.fetcher) :
    SlotEnds rt'.fetcher := by
  cases done with
  | play source => exact (resolveEnds held source).1
  | stopAudio => intro clip mem; cases mem
  | startRecording | stopRecording | uploadRecording => rw [sendFetcher]; exact held
  | _ => exact held

theorem slotEnds {rt rt' : Booth} {label : Label} (step : BoothStep rt label rt')
    (held : SlotEnds rt.fetcher) : SlotEnds rt'.fetcher := by
  cases step with
  | gate accepting invalidates => cases invalidates <;> exact held
  | execute received live done => exact executeEnds done held
  | resume waiting live done => exact executeEnds done held
  | fetch done =>
    rw [sendFetcher]
    exact fetchEnds held done
  | cancelFetch stopping done =>
    obtain ⟨task,_,done⟩ := Option.bind_eq_some_iff.mp done
    split at done <;> cases done
    exact held
  | joinFetch done =>
    obtain ⟨task,_,done⟩ := Option.bind_eq_some_iff.mp done
    split at done <;> cases done
    exact held
  | shutdown done =>
    cases shutdownCases done <;> exact held
  | restart accepting onHook =>
    unfold restart boot
    dsimp only
    split <;> exact fun clip mem => (by cases mem)
  | sense | upload | recordingTimeout | pulseTimeout | speaker => rw [sendFetcher]; exact held
  | _ => exact held

inductive OnItsWay (s : Speaker) (n : Nat) : Prop where
  | ordered (front source) (last : s.commands = front ++ [.play source n])
      (ends_ : source.endless = false)
  | playing (empty : s.commands = []) (playing : s.playing = true) (current : s.current = some n)

theorem speakerGoesOn {s s' : Speaker} {label : SpeakerLabel} {notices : List Notice} {n : Nat}
    (way : OnItsWay s n) (done : s.step label = some (s',notices))
    (starts : label = .command false → ∀ command ∈ s.commands.head?, command.number ≠ some n)
    (stays : label = .ended false → s.current ≠ some n) :
    OnItsWay s' n ∨ ∃ notice ∈ notices, notice.event = playbackEnded := by
  cases label with
  | command accepted =>
    simp only [Speaker.step] at done
    split at done
    · rename_i command rest running commands
      cases done
      cases way with
      | ordered front source last ends_ =>
        rw [commands] at last starts
        cases front with
        | nil =>
          obtain ⟨rfl,rfl⟩ := List.cons.inj last
          cases accepted with
          | false => exact absurd rfl (starts rfl _ rfl)
          | true => exact .inl (.playing rfl (by simp [Speaker.obey,ends_]) rfl)
        | cons first front =>
          obtain ⟨rfl,rfl⟩ := List.cons.inj last
          exact .inl (.ordered front source (obeyCommands _ _ _) ends_)
      | playing empty =>
        rw [empty] at commands
        cases commands
    · cases done
  | ended natural =>
    simp only [Speaker.step] at done
    split at done
    · cases done
      cases natural with
      | true => exact .inr ⟨_,List.mem_singleton.mpr rfl,rfl⟩
      | false =>
        cases way with
        | ordered front source last finite => exact .inl (.ordered front source last finite)
        | playing empty playing current => exact absurd current (stays rfl)
    · cases done

def Booth.lastOrder (rt : Booth) : Option Nat :=
  latest (fun emitted => soundsOut emitted.effect) rt.effects.log

/- While the core waits for a clip and no end of one is left to handle, the last clip ordered
neither fails to start nor fails to end. -/
def ClipsReport (rt : Booth) (label : Label) (_ : Booth) : Prop :=
  match label with
  | .speaker (.command false) => rt.state.awaitsPlayback = true → Unended rt.events →
      ∀ command ∈ rt.speaker.commands.head?, command.number ≠ rt.lastOrder
  | .speaker (.ended false) => rt.state.awaitsPlayback = true → Unended rt.events →
      rt.speaker.current ≠ rt.lastOrder
  | _ => True

instance (rt : Booth) (label : Label) (after : Booth) : Decidable (ClipsReport rt label after) := by
  unfold ClipsReport
  split <;> infer_instance

theorem clipAsks {effect : Effect} (asks : isClip effect = true) :
    ∃ source, effect = play source ∧ source.endless = false := by
  cases effect with
  | play source => exact ⟨source,rfl,by simpa [isClip] using asks⟩
  | _ => cases asks

theorem clipExecute {rt rt' : Booth} {number n : Nat} {emitted : Emitted}
    {effects : Channel Emitted} {reply : InlineReply} (slot : SlotEnds rt.fetcher)
    (asked : Asked clipWait rt.effects.log n)
    (received : rt.effects.receive = some ((number,emitted),effects))
    (done : AudioEffect { rt with effects } number reply emitted.effect rt')
    (place : rt.effects.taken ≤ n ∨ OnItsWay rt.speaker n) :
    rt'.effects.taken ≤ n ∨ OnItsWay rt'.speaker n := by
  obtain ⟨effect,announced⟩ := emitted
  rcases askedReceived asked received place with early | ⟨rfl,asks⟩ | ⟨other,way⟩
  · left
    cases done with
    | play | stopAudio | armRecordingTimeout | cancelRecordingTimeout => exact early
    | startRecording | stopRecording => rwa [sendEffects]
  · obtain ⟨source,rfl,ends_⟩ := clipAsks asks
    cases done
    exact .inr (.ordered _ _ rfl ((resolveEnds slot source).2 ends_))
  · right
    cases done with
    | play | stopAudio => cases other
    | armRecordingTimeout | cancelRecordingTimeout => exact way
    | startRecording | stopRecording => rwa [sendSpeaker]

theorem clipQuiet {rt rt' : Booth} {label : Label} (slot : SlotEnds rt.fetcher)
    (waits : rt.state.awaitsPlayback = true) (step : BoothStep rt label rt')
    (quiet : isQuiet label = true) (running : rt'.phase = .running)
    (reports : ClipsReport rt label rt') {n : Nat} (asked : Asked clipWait rt.effects.log n)
    (place : rt.effects.taken ≤ n ∨ OnItsWay rt.speaker n) :
    (rt'.effects.taken ≤ n ∨ OnItsWay rt'.speaker n) ∨
      ∃ sent ∈ rt'.events, endsClip sent.event = true := by
  have started := quietRunning step quiet running
  have kept {sent : Sent} (mem : sent ∈ rt.events) : sent ∈ rt'.events :=
    quietEvents step quiet running mem
  cases audioStepCases step quiet running with
  | plain still plain =>
    refine .inl ?_
    rwa [sendEffects,sendSpeaker,still.effects,still.speaker]
  | pass received other still plain =>
    refine .inl ?_
    rw [sendEffects,sendSpeaker,still.effects,still.speaker]
    rcases askedReceived asked received place with early | ⟨_,asks⟩ | ⟨_,way⟩
    · exact .inl early
    · obtain ⟨source,same,_⟩ := clipAsks asks
      rw [same] at other
      cases other
    · exact .inr way
  | execute received done => exact .inl (clipExecute slot asked received done place)
  | fire done =>
    refine .inl ?_
    rwa [sendEffects,sendSpeaker]
  | speaker done =>
    rename_i label speaker notices
    by_cases ended : Unended rt.events
    · rcases place with early | way
      · refine .inl (.inl ?_)
        rwa [sendEffects]
      · have last : rt.lastOrder = some n := asked.last
        have on := speakerGoesOn way done
          (by rintro rfl; simpa [ClipsReport,last] using reports waits ended)
          (by rintro rfl; simpa [ClipsReport,last] using reports waits ended)
        rcases on with way | ⟨notice,mem,same⟩
        · refine .inl (.inr ?_)
          rwa [sendSpeaker]
        · obtain ⟨sent,inside,told⟩ := sendTells { rt with speaker } started mem
          exact .inr ⟨sent,inside,by rw [told,same]; rfl⟩
    · have told : ∃ sent ∈ rt.events, sent.event = playbackEnded := by
        by_contra none_
        exact ended fun sent mem same => none_ ⟨sent,mem,same⟩
      obtain ⟨sent,mem,same⟩ := told
      exact .inr ⟨sent,kept mem,by rw [same]; rfl⟩

end TelephoneBooth
