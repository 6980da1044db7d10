import TelephoneBooth.PiSink

/-! `audio_task` over any audio sink: the commands are handled once inside the select, while a clip
plays, and once outside it. -/
namespace TelephoneBooth

def AudioError.display : AudioError → String
  | .noDevice text => s!"no audio device available: {text}"
  | .device text => s!"audio device error: {text}"
  | .source text => s!"audio source unavailable: {text}"
  | .codec text => s!"audio codec error: {text}"
  | .recordingIo text => s!"recording I/O error: {text}"
  | .unsupported text => s!"audio operation unsupported: {text}"

namespace AudioTask

inductive Output where
  | error (source message : String)
  | playbackEnded
  deriving DecidableEq

def publishAudioError (error : AudioError) : Output := .error "audio" error.display

/- `current` is the effect of the last play that succeeded and `last` its source until something
ends it, both history; `did` is what the last step sent and published. -/
structure State where
  commands : List AudioCommand
  closed : Bool
  playing : Bool
  running : Bool
  current : Option Nat
  last : Option AudioRef
  did : List Output
  deriving DecidableEq

inductive Label where
  | send (command : AudioCommand)
  | close
  | recv (stopped played : Option AudioError)
  | ended (failure : Option AudioError)
  deriving DecidableEq

namespace State

def new : State := ⟨[],false,false,true,none,none,[]⟩

def plays (s : State) (source : AudioRef) (number : Nat) (playing : Bool) : State :=
  { s with playing, current := some number, last := some source }

/- The `Option` is `rx.recv()`'s: none when the channel is closed and empty. The two failures are
what the sink would answer. -/
def whilePlaying (s : State) (stopped played : Option AudioError) : Option AudioCommand → State
  | some (.play source number) =>
    let s := { s with did := stopped.toList.map publishAudioError }
    match played with
    | none => s.plays source number true
    | some error => { s with playing := false, last := none, did := s.did ++ [publishAudioError error] }
  | some .stop =>
    { s with playing := false, last := none, did := stopped.toList.map publishAudioError }
  | some .shutdown | none => { s with running := false }

def whileSilent (s : State) (stopped played : Option AudioError) : Option AudioCommand → State
  | some (.play source number) =>
    let completes := !source.endless
    match played with
    | none => s.plays source number completes
    | some error => { s with last := none, did := [publishAudioError error] }
  | some .stop => { s with last := none, did := stopped.toList.map publishAudioError }
  | some .shutdown | none => { s with running := false }

def obey (s : State) (stopped played : Option AudioError) (command : Option AudioCommand) : State :=
  if s.playing then s.whilePlaying stopped played command else s.whileSilent stopped played command

def recv (s : State) : Option (Option AudioCommand × State) :=
  match s.commands with
  | command :: rest => some (some command,{ s with commands := rest })
  | [] => if s.closed then some (none,s) else none

def step (before : State) (label : Label) : Option State :=
  let s := { before with did := [] }
  match label with
  | .send command => if s.closed then none else some { s with commands := s.commands ++ [command] }
  | .close => some { s with closed := true }
  | .recv stopped played =>
    if s.running then s.recv.map fun (command,s) => s.obey stopped played command else none
  | .ended failure =>
    if s.running && s.playing then some { s with
        playing := false
        last := none
        did := match failure with
          | none => [.playbackEnded]
          | some error => [publishAudioError error] }
    else none

def speaker (s : State) : Speaker := ⟨s.commands,s.playing,s.current,s.running⟩

end State

def FlagRight (s : State) (label : Label) (t : State) : Prop :=
  ∀ stopped played source number, label = .recv stopped played →
    s.commands.head? = some (.play source number) →
    (t.playing = true ↔ played = none ∧ source.endless = false)

def EndsOwn (s t : State) : Prop :=
  .playbackEnded ∈ t.did → t.did = [.playbackEnded] ∧ t.last = none ∧
    ∃ source, s.last = some source ∧ source.endless = false

def NoToneOverClip (s : State) (label : Label) (_ : State) : Prop :=
  ∀ stopped source number, label = .recv stopped none → s.playing = true →
    s.commands.head? = some (.play source number) → source.endless = false

def WaitsForClip (s : State) : Prop :=
  s.playing = true → ∃ source, s.last = some source ∧ source.endless = false

section Steps
variable {s t : State} {stopped played : Option AudioError} {command : Option AudioCommand}

theorem publishedNoEnd (errors : List AudioError) :
    Output.playbackEnded ∉ errors.map publishAudioError := by
  intro mem
  obtain ⟨error,_,same⟩ := List.mem_map.mp mem
  cases same

theorem obeyStop : s.obey stopped played (some .stop) =
    { s with playing := false, last := none, did := stopped.toList.map publishAudioError } := by
  unfold State.obey
  split
  · rfl
  · rename_i silent
    rw [State.whileSilent]
    congr 1
    simpa using silent

theorem obeyLeave (leave : command = some .shutdown ∨ command = none) :
    s.obey stopped played command = { s with running := false } := by
  rcases leave with rfl | rfl
  · exact ite_self _
  · exact ite_self _

theorem obeyPlay (source : AudioRef) (number : Nat) :
    (s.obey stopped played (some (.play source number))).playing = true ↔
      played = none ∧ (s.playing = true ∨ source.endless = false) := by
  unfold State.obey State.whilePlaying State.whileSilent State.plays
  cases played <;> cases playing : s.playing <;> simp

theorem obeyPlayed (source : AudioRef) (number : Nat) :
    (s.obey stopped none (some (.play source number))).last = some source := by
  unfold State.obey
  split <;> rfl

theorem obeyNoEnd (silent : s.did = []) :
    Output.playbackEnded ∉ (s.obey stopped played command).did := by
  rcases command with _ | ⟨source,number⟩ | _ | _
  · rw [obeyLeave (.inr rfl),silent]
    exact List.not_mem_nil
  · unfold State.obey State.whilePlaying State.whileSilent State.plays
    cases played with
    | none =>
      split
      · exact publishedNoEnd _
      · rw [silent]
        exact List.not_mem_nil
    | some error =>
      split
      · show Output.playbackEnded ∉ stopped.toList.map publishAudioError ++ [publishAudioError error]
        rw [← List.map_singleton,← List.map_append]
        exact publishedNoEnd _
      · exact publishedNoEnd [error]
  · rw [obeyStop]
    exact publishedNoEnd _
  · rw [obeyLeave (.inl rfl),silent]
    exact List.not_mem_nil

theorem obeyWaits (waits : WaitsForClip s) (fine : ∀ source number, command = some (.play source number) →
    played = none → s.playing = true → source.endless = false) :
    WaitsForClip (s.obey stopped played command) := by
  rcases command with _ | ⟨source,number⟩ | _ | _
  · rw [obeyLeave (.inr rfl)]
    exact waits
  · intro playing
    obtain ⟨rfl,either⟩ := (obeyPlay source number).mp playing
    exact ⟨source,obeyPlayed source number,either.elim (fine source number rfl rfl) id⟩
  · rw [obeyStop]
    exact fun playing => by cases playing
  · rw [obeyLeave (.inl rfl)]
    exact waits

theorem recvCases {after : State} (received : s.recv = some (command,after)) :
    after.playing = s.playing ∧ after.last = s.last ∧ after.did = s.did ∧
      s.commands.head? = command := by
  unfold State.recv at received
  split at received
  · rename_i first rest queue
    cases received
    exact ⟨rfl,rfl,rfl,by rw [queue]; rfl⟩
  · rename_i queue
    split at received <;> cases received
    exact ⟨rfl,rfl,rfl,by rw [queue]; rfl⟩

theorem recvRight {after : State}
    (received : ({ s with did := [] } : State).recv = some (command,after)) :
    FlagRight s (.recv stopped played) (after.obey stopped played command) ↔
      NoToneOverClip s (.recv stopped played) (after.obey stopped played command) := by
  obtain ⟨playing,_,_,head⟩ := recvCases received
  constructor
  · intro right stopped' source number same playing_ first
    cases same
    obtain rfl := head.symm.trans first
    have flag := (right _ _ source number rfl first).mp
      ((obeyPlay source number).mpr ⟨rfl,.inl (playing.trans playing_)⟩)
    exact flag.2
  · intro fine stopped' played' source number same first
    cases same
    obtain rfl := head.symm.trans first
    refine (obeyPlay source number).trans (and_congr_right fun ok => ?_)
    subst ok
    refine ⟨fun either => ?_,.inr⟩
    exact either.elim (fun on => fine _ source number rfl (playing.symm.trans on) first) id

theorem recvWaits {after t : State}
    (received : ({ s with did := [] } : State).recv = some (command,after))
    (waits : WaitsForClip s) (fine : NoToneOverClip s (.recv stopped played) t) :
    WaitsForClip (after.obey stopped played command) ∧
      EndsOwn s (after.obey stopped played command) := by
  obtain ⟨playing,last,did,head⟩ := recvCases received
  have waits' : WaitsForClip after := fun on => by
    rw [last]
    exact waits (playing.symm.trans on)
  refine ⟨obeyWaits waits' ?_,fun mem => absurd mem (obeyNoEnd did)⟩
  rintro source number rfl rfl on
  exact fine _ source number rfl (playing.symm.trans on) head

theorem stepPromises {label : Label} (done : s.step label = some t) :
    (FlagRight s label t ↔ NoToneOverClip s label t) ∧
    (WaitsForClip s → NoToneOverClip s label t → WaitsForClip t ∧ EndsOwn s t) := by
  have otherwise (other : ∀ stopped played, label ≠ .recv stopped played) :
      FlagRight s label t ↔ NoToneOverClip s label t :=
    ⟨fun _ stopped source number same => absurd same (other stopped none),
      fun _ stopped played source number same => absurd same (other stopped played)⟩
  have noEnd (none_ : t.did = []) : EndsOwn s t := fun mem => by rw [none_] at mem; cases mem
  unfold State.step at done
  cases label with
  | send command =>
    simp only at done
    split at done <;> cases done
    exact ⟨otherwise (by simp),fun waits _ => ⟨waits,noEnd rfl⟩⟩
  | close =>
    cases done
    exact ⟨otherwise (by simp),fun waits _ => ⟨waits,noEnd rfl⟩⟩
  | ended failure =>
    simp only at done
    split at done <;> cases done
    rename_i live
    refine ⟨otherwise (by simp),fun waits _ => ⟨fun playing => (by cases playing),fun mem => ?_⟩⟩
    cases failure with
    | none => exact ⟨rfl,rfl,waits (by simp_all)⟩
    | some error => exact absurd mem (publishedNoEnd [error])
  | recv stopped played =>
    simp only at done
    split at done
    · obtain ⟨⟨command,after⟩,received,same⟩ := Option.map_eq_some_iff.mp done
      subst same
      exact ⟨recvRight received,recvWaits received⟩
    · cases done

end Steps

/- In every run: the flag is right after each `Play`, and each `PlaybackEnded` the one end of a clip
that was played, exactly if no looping tone is started over a clip. -/
theorem playsAlike (labels : List Label) :
    Transition.Along State.step (fun s label t => FlagRight s label t ∧ EndsOwn s t) .new labels ↔
      Transition.Along State.step NoToneOverClip .new labels := by
  have initial : WaitsForClip .new := fun playing => by cases playing
  constructor
  · refine Transition.along State.step WaitsForClip ?_ initial
    intro s label t done waits ⟨right,_⟩
    obtain ⟨exact_,keeps⟩ := stepPromises done
    have fine := exact_.mp right
    exact ⟨(keeps waits fine).1,fine⟩
  · refine Transition.along State.step WaitsForClip ?_ initial
    intro s label t done waits fine
    obtain ⟨exact_,keeps⟩ := stepPromises done
    obtain ⟨still,own⟩ := keeps waits fine
    exact ⟨still,exact_.mpr fine,own⟩

/- The question fails while the ringback plays: the busy tone starts over it, its stream breaks,
and the end of a tone that never ends is reported. -/
theorem toneReportedEnded :
    ¬ Transition.Along State.step (fun s label t => FlagRight s label t ∧ EndsOwn s t) .new
      [.send (.play (.builtin .ringback) 0),.recv none none,.send (.play (.builtin .lineBusy) 1),
        .recv none none,.ended none] := by
  intro run
  have own := run.2.2.2.2.1.2 List.mem_cons_self
  obtain ⟨source,same,finite⟩ := own.2.2
  cases Option.some.inj same
  cases finite

theorem obeySpeaker {s : State} {stopped played : Option AudioError} (command : AudioCommand) :
    (s.obey stopped played (some command)).speaker = s.speaker.obey played.isNone command := by
  cases command with
  | play source number =>
    unfold State.obey State.whilePlaying State.whileSilent State.plays Speaker.obey State.speaker
    cases played <;> cases playing : s.playing <;> simp
  | stop =>
    rw [obeyStop]
    rfl
  | shutdown =>
    rw [obeyLeave (.inl rfl)]
    rfl

theorem speakerCommand {s : State} {first : AudioCommand} {rest : List AudioCommand}
    (running : s.running = true) (queue : s.commands = first :: rest) (accepted : Bool) :
    s.speaker.step (.command accepted) =
      some (({ s with commands := rest } : State).speaker.obey accepted first,[]) := by
  cases s
  cases running
  cases queue
  rfl

theorem speakerFollows {s t : State} {label : Label} (done : s.step label = some t) :
    match label with
    | .send command => t.speaker = s.speaker.enqueue command
    | .close => t.speaker = s.speaker
    | .recv _ played => s.speaker.step (.command played.isNone) = some (t.speaker,[]) ∨
        s.commands = [] ∧ t.speaker = { s.speaker with running := false }
    | .ended failure => s.speaker.step (.ended failure.isNone) = some (t.speaker,
        if t.did = [.playbackEnded] then [{ event := .playbackEnded, origin := s.current }] else []) := by
  unfold State.step at done
  cases label with
  | send command =>
    simp only at done
    split at done <;> cases done
    rfl
  | close =>
    cases done
    rfl
  | ended failure =>
    simp only at done
    split at done <;> cases done
    rename_i live
    cases failure <;> simp_all [State.speaker,Speaker.step,publishAudioError]
  | recv stopped played =>
    simp only at done
    split at done
    · rename_i running
      obtain ⟨⟨command,after⟩,received,rfl⟩ := Option.map_eq_some_iff.mp done
      unfold State.recv at received
      split at received
      · rename_i first rest queue
        cases received
        refine .inl ?_
        rw [speakerCommand running queue,obeySpeaker]
        rfl
      · rename_i queue
        split at received <;> cases received
        refine .inr ⟨queue,?_⟩
        rw [obeyLeave (.inr rfl)]
        rfl
    · cases done

end AudioTask
end TelephoneBooth
