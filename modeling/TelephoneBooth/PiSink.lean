import TelephoneBooth.Speaker
import TelephoneBooth.Transition

/-! `PiAudioSink`: one held playback task that `play`, `stop` and `wait_for_end` hand over to each
other. A step ends where the source awaits, and a call in flight is a phase of the sink; tasks
end whenever they like, with any result. -/
namespace TelephoneBooth

inductive AudioError where
  | noDevice (text : String)
  | device (text : String)
  | source (text : String)
  | codec (text : String)
  | recordingIo (text : String)
  | unsupported (text : String)
  deriving DecidableEq, Repr

namespace PiSink

/- What the join handle of a playback task gives: the task's result, or the text of its panic. -/
inductive Outcome where
  | returned (failure : Option AudioError)
  | panicked (text : String)
  deriving DecidableEq

def joinAudioTask : Outcome → Option AudioError
  | .returned failure => failure
  | .panicked text => some (.device s!"audio playback task failed: {text}")

/- `done` is the value of the watch channel, `ended` what the join handle is ready with. -/
structure Task where
  source : AudioRef
  cancel : Bool
  done : Bool
  ended : Option Outcome
  deriving DecidableEq

/- What `wait_for_end` sees: `done` was sent, or its sender is gone with the task. -/
def Task.over (task : Task) : Bool := task.done || task.ended.isSome

def Task.uncancelled (task : Task) : Bool := !task.cancel && !task.over

def Task.fresh (source : AudioRef) : Task := ⟨source,false,false,none⟩

structure Load where
  source : AudioRef
  failure : Option AudioError
  deriving DecidableEq

/- Where the call in flight awaits: the join of `stop`, for itself or for a `play`; the loading of
`play`; the watch channel of `wait_for_end`; its join. -/
inductive Call where
  | idle
  | stopping (task : Nat) (next : Option Load)
  | loading (load : Load)
  | waiting (task : Nat)
  | joining (task : Nat)
  deriving DecidableEq

inductive Answer where
  | play (load : Load) (failure : Option AudioError)
  | stop (failure : Option AudioError)
  | waitForEnd (failure : Option AudioError)
  deriving DecidableEq

/- Tasks are numbered in the order in which they were spawned. `found` is what was held when the
last call came, `answered` what this step answers its caller; no step reads either. -/
structure Sink where
  playback : Option Nat
  tasks : List Task
  call : Call
  found : Option Nat
  answered : Option Answer
  deriving DecidableEq

inductive Label where
  | play (load : Load)
  | stop
  | waitForEnd
  | resume
  | dropWait
  | finish (task : Nat)
  | exit (task : Nat) (outcome : Outcome)
  deriving DecidableEq

namespace Sink

def new : Sink := ⟨none,[],.idle,none,none⟩

def setTask (s : Sink) (n : Nat) (change : Task → Task) : Sink :=
  { s with tasks := s.tasks.modify n change }

def outcome (s : Sink) (n : Nat) : Option Outcome := s.tasks[n]?.bind Task.ended

/- After the join of `stop`: its own caller has the answer, a `play` passes an error on (the `?`)
or goes on to its source. -/
def afterStop (s : Sink) (failure : Option AudioError) : Option Load → Sink
  | none => { s with call := .idle, answered := some (.stop failure) }
  | some load =>
    match failure with
    | none => { s with call := .loading load }
    | some error => { s with call := .idle, answered := some (.play load (some error)) }

def stop (s : Sink) (next : Option Load) : Sink :=
  match s.playback with
  | some n =>
    { s.setTask n fun task => { task with cancel := true } with
      playback := none
      call := .stopping n next }
  | none => s.afterStop none next

def spawn (s : Sink) (source : AudioRef) : Sink :=
  { s with playback := some s.tasks.length, tasks := s.tasks ++ [.fresh source] }

def afterLoad (s : Sink) (load : Load) : Sink :=
  match load.failure with
  | none => { s.spawn load.source with call := .idle, answered := some (.play load none) }
  | some error => { s with call := .idle, answered := some (.play load (some error)) }

/- `wait_for_end` has seen the end and only now takes the task. -/
def afterEnd (s : Sink) : Sink :=
  match s.playback with
  | some n => { s with playback := none, call := .joining n }
  | none => { s with call := .idle, answered := some (.waitForEnd none) }

def resume (s : Sink) : Option Sink :=
  match s.call with
  | .idle => none
  | .stopping n next => (s.outcome n).map fun outcome => s.afterStop (joinAudioTask outcome) next
  | .loading load => some (s.afterLoad load)
  | .waiting n => if (s.tasks[n]?.map Task.over).getD true then some s.afterEnd else none
  | .joining n => (s.outcome n).map fun outcome =>
      { s with call := .idle, answered := some (.waitForEnd (joinAudioTask outcome)) }

/- A caller has the sink to itself: the next call comes when the last one has answered or, for
`wait_for_end`, was dropped. A task that does not panic sends `done` before it returns. -/
def step (before : Sink) (label : Label) : Option Sink :=
  let s := { before with answered := none }
  match label with
  | .play load => if s.call = .idle then some ({ s with found := s.playback }.stop (some load)) else none
  | .stop => if s.call = .idle then some ({ s with found := s.playback }.stop none) else none
  | .waitForEnd =>
    if s.call = .idle then
      match s.playback with
      | some n => some { s with found := s.playback, call := .waiting n }
      | none => some { s with found := none, answered := some (.waitForEnd none) }
    else none
  | .resume => s.resume
  | .dropWait =>
    match s.call with
    | .waiting _ | .joining _ => some { s with call := .idle }
    | _ => none
  | .finish n =>
    match s.tasks[n]? with
    | some task => if task.over then none else some (s.setTask n fun task => { task with done := true })
    | none => none
  | .exit n outcome =>
    match s.tasks[n]?, outcome with
    | some task, .returned _ => if task.done && task.ended.isNone then
        some (s.setTask n fun task => { task with ended := some outcome }) else none
    | some task, .panicked _ => if task.over then none else
        some (s.setTask n fun task => { task with ended := some outcome })
    | none, _ => none

def At (s : Sink) (n : Nat) (holds : Task → Prop) : Prop := ∃ task, s.tasks[n]? = some task ∧ holds task

abbrev Cancelled (s : Sink) (n : Nat) : Prop := s.At n fun task => task.cancel = true

abbrev Over (s : Sink) (n : Nat) : Prop := s.At n fun task => task.over = true

end Sink

def OnePlays (s : Sink) : Prop :=
  ∀ n m, s.At n (fun task => task.uncancelled = true) → s.At m (fun task => task.uncancelled = true) →
    n = m

def StopClears (t : Sink) : Prop :=
  ∀ failure, t.answered = some (.stop failure) →
    t.playback = none ∧ ∀ n, t.found = some n → t.Cancelled n

def DropKeeps (s : Sink) (label : Label) (t : Sink) : Prop :=
  label = .dropWait → ∀ n, s.found = some n → ¬ s.Over n → t.playback = some n

def PlayReplaces (s t : Sink) : Prop :=
  ∀ load failure, t.answered = some (.play load failure) → load.failure = none →
    failure = none ∧ t.playback = some s.tasks.length ∧ t.tasks[s.tasks.length]? = some (.fresh load.source)

/- Where a `play` whose source loads joins the task it found, this task has ended with `Ok`. -/
def JoinsCleanly (s : Sink) (label : Label) (_ : Sink) : Prop :=
  label = .resume → ∀ n load, s.call = .stopping n (some load) → load.failure = none →
    s.outcome n = some (.returned none)

def Placed (s : Sink) : Prop :=
  match s.call with
  | .idle => True
  | .stopping n _ => s.playback = none ∧ s.found = some n ∧ s.Cancelled n
  | .loading _ => s.playback = none
  | .waiting n => s.playback = some n ∧ s.found = some n
  | .joining n => s.playback = none ∧ s.found = some n ∧ s.Over n

structure Sound (s : Sink) : Prop where
  held : ∀ n, s.playback = some n → n < s.tasks.length
  playing : ∀ n, s.At n (fun task => task.uncancelled = true) → s.playback = some n
  placed : Placed s

namespace Sink
variable {s t : Sink} {n m : Nat}

theorem atSet {change : Task → Task} {holds : Task → Prop} :
    (s.setTask n change).At m holds ↔ s.At m fun task => holds (if n = m then change task else task) := by
  unfold At setTask
  rw [List.getElem?_modify]
  cases s.tasks[m]? with
  | none => simp
  | some task => split <;> simp [*]

theorem atSpawn {source : AudioRef} {holds : Task → Prop} :
    (s.spawn source).At m holds ↔ s.At m holds ∨ m = s.tasks.length ∧ holds (.fresh source) := by
  unfold At spawn
  rcases Nat.lt_trichotomy m s.tasks.length with earlier | rfl | later
  · rw [List.getElem?_append_left earlier]
    simp [Nat.ne_of_lt earlier]
  · simp
  · have beyond : (s.tasks ++ [Task.fresh source])[m]? = none :=
      List.getElem?_eq_none (by rwa [List.length_append])
    simp [beyond,List.getElem?_eq_none (Nat.le_of_lt later),Nat.ne_of_gt later]

theorem atKept {change : Task → Task} {holds : Task → Prop}
    (keeps : ∀ task, holds task → holds (change task)) (here : s.At m holds) :
    (s.setTask n change).At m holds := by
  obtain ⟨task,here,held⟩ := here
  refine atSet.mpr ⟨task,here,?_⟩
  split
  · exact keeps task held
  · exact held

end Sink

section Steps
variable {s t : Sink}

theorem nothingPlays (sound : Sound s) (free : s.playback = none) (n : Nat) :
    ¬ s.At n fun task => task.uncancelled = true := by
  intro plays
  have held := sound.playing n plays
  rw [free] at held
  cases held

theorem soundIdle (sound : Sound s) (answered : Option Answer) :
    Sound { s with call := .idle, answered } := ⟨sound.held,sound.playing,trivial⟩

theorem onePlays (sound : Sound s) : OnePlays s := fun n m first second => by
  have held := sound.playing n first
  rw [sound.playing m second] at held
  exact (Option.some.inj held).symm

theorem silentAnswer (silent : t.answered = none) : StopClears t ∧ PlayReplaces s t := by
  constructor
  · intro failure answer
    rw [silent] at answer
    cases answer
  · intro load failure answer
    rw [silent] at answer
    cases answer

theorem afterStopSound (sound : Sound s) (free : s.playback = none) (failure : Option AudioError)
    (next : Option Load) : Sound (s.afterStop failure next) := by
  unfold Sink.afterStop
  split
  · exact soundIdle sound _
  · split
    · exact ⟨sound.held,sound.playing,free⟩
    · exact soundIdle sound _

theorem stopSound (sound : Sound s) (found : s.found = s.playback) (next : Option Load) :
    Sound (s.stop next) := by
  unfold Sink.stop
  split
  · rename_i n held
    have cancelled : (s.setTask n fun task => { task with cancel := true }).Cancelled n :=
      Sink.atSet.mpr ⟨_,List.getElem?_eq_getElem (sound.held n held),by simp⟩
    refine ⟨fun m other => (by cases other),fun m plays => ?_,
      show _ ∧ _ ∧ _ from ⟨rfl,found.trans held,cancelled⟩⟩
    -- the only task that could play is the one just cancelled
    obtain ⟨task,here,plays⟩ := Sink.atSet.mp plays
    by_cases same : n = m
    · rw [if_pos same] at plays
      cases plays
    · rw [if_neg same] at plays
      have other := sound.playing m ⟨task,here,plays⟩
      exact absurd (Option.some.inj (held.symm.trans other)) same
  · rename_i free
    exact afterStopSound sound free _ _

theorem spawnSound (sound : Sound s) (free : s.playback = none) (source : AudioRef)
    (answered : Option Answer) : Sound { s.spawn source with call := .idle, answered } := by
  refine ⟨fun n held => ?_,fun n plays => ?_,trivial⟩
  · obtain rfl := Option.some.inj held
    simp [Sink.spawn]
  · rcases Sink.atSpawn.mp plays with earlier | ⟨rfl,_⟩
    · exact absurd earlier (nothingPlays sound free n)
    · rfl

theorem placedKept (placed : Placed s)
    (same : t.call = s.call ∧ t.playback = s.playback ∧ t.found = s.found)
    (cancelled : ∀ n, s.Cancelled n → t.Cancelled n) (ended : ∀ n, s.Over n → t.Over n) :
    Placed t := by
  obtain ⟨call,playback,found⟩ := same
  unfold Placed at placed ⊢
  rw [call,playback,found]
  cases here : s.call with
  | idle => trivial
  | stopping n next =>
    rw [here] at placed
    exact ⟨placed.1,placed.2.1,cancelled n placed.2.2⟩
  | loading load =>
    rw [here] at placed
    exact placed
  | waiting n =>
    rw [here] at placed
    exact placed
  | joining n =>
    rw [here] at placed
    exact ⟨placed.1,placed.2.1,ended n placed.2.2⟩

theorem endingSound {n : Nat} {change : Task → Task} (sound : Sound s)
    (ending : ∀ task, (change task).cancel = task.cancel ∧ (task.over = true → (change task).over = true)) :
    Sound (s.setTask n change) := by
  refine ⟨fun m held => ?_,fun m plays => ?_,?_⟩
  · simpa [Sink.setTask] using sound.held m held
  · obtain ⟨task,here,plays⟩ := Sink.atSet.mp plays
    refine sound.playing m ⟨task,here,?_⟩
    split at plays
    · obtain ⟨alike,spent⟩ := ending task
      simp only [Task.uncancelled,Bool.and_eq_true,Bool.not_eq_true'] at plays ⊢
      refine ⟨alike.symm.trans plays.1,?_⟩
      cases before : task.over with
      | false => rfl
      | true => exact absurd (spent before) (by simp [plays.2])
    · exact plays
  · refine placedKept sound.placed ⟨rfl,rfl,rfl⟩ (fun _ => ?_) fun _ => ?_
    · exact Sink.atKept fun task cancelled => (ending task).1.trans cancelled
    · exact Sink.atKept fun task => (ending task).2

theorem stopPromises (found : s.found = s.playback) (silent : s.answered = none) (next : Option Load) :
    StopClears (s.stop next) ∧ PlayReplaces s (s.stop next) := by
  unfold Sink.stop
  split
  · exact silentAnswer silent
  · rename_i free
    cases next with
    | none =>
      refine ⟨fun failure _ => ⟨free,fun n earlier => ?_⟩,fun load failure answer => ?_⟩
      · have held : s.found = some n := earlier
        rw [found,free] at held
        cases held
      · cases Option.some.inj answer
    | some load => exact silentAnswer silent

theorem joinClean {outcome : Outcome} : joinAudioTask outcome = none ↔ outcome = .returned none := by
  cases outcome with
  | returned failure => exact ⟨congrArg _,fun same => Outcome.returned.inj same⟩
  | panicked text => simp [joinAudioTask]

theorem waitAnswer {failure : Option AudioError} (answer : t.answered = some (.waitForEnd failure)) :
    StopClears t ∧ PlayReplaces s t := by
  constructor
  · intro failure' other
    cases Option.some.inj (answer.symm.trans other)
  · intro load failure' other
    cases Option.some.inj (answer.symm.trans other)

theorem afterStopPromises {n : Nat} {outcome : Outcome} (silent : s.answered = none)
    (free : s.playback = none) (found : s.found = some n) (cancelled : s.Cancelled n)
    (next : Option Load) : StopClears (s.afterStop (joinAudioTask outcome) next) ∧
      (PlayReplaces s (s.afterStop (joinAudioTask outcome) next) ↔
        ∀ load, next = some load → load.failure = none → outcome = .returned none) := by
  cases next with
  | none =>
    refine ⟨fun failure _ => ⟨free,fun m held => ?_⟩,fun _ load other => (by cases other),
      fun _ load failure answer => (by cases Option.some.inj answer)⟩
    obtain rfl := Option.some.inj (found.symm.trans held)
    exact cancelled
  | some load =>
    cases clean : joinAudioTask outcome with
    | none =>
      obtain ⟨clears,replaces⟩ := @silentAnswer s (s.afterStop none (some load)) silent
      exact ⟨clears,fun _ _ _ _ => joinClean.mp clean,fun _ => replaces⟩
    | some error =>
      refine ⟨fun failure answer => (by cases Option.some.inj answer),fun replaces other same loads => ?_,
        fun joins other failure answer loads => ?_⟩
      · cases same
        cases (replaces load (some error) rfl loads).1
      · cases Option.some.inj answer
        rw [joinClean.mpr (joins load rfl loads)] at clean
        cases clean

theorem afterLoadPromises (sound : Sound s) (free : s.playback = none) (load : Load) :
    Sound (s.afterLoad load) ∧ StopClears (s.afterLoad load) ∧ PlayReplaces s (s.afterLoad load) := by
  unfold Sink.afterLoad
  split
  · refine ⟨spawnSound sound free _ _,fun failure answer => (by cases Option.some.inj answer),
      fun load' failure answer _ => ?_⟩
    cases Option.some.inj answer
    exact ⟨rfl,rfl,by simp [Sink.spawn]⟩
  · rename_i error fails
    refine ⟨soundIdle sound _,fun failure answer => (by cases Option.some.inj answer),
      fun load' failure answer fine => ?_⟩
    cases Option.some.inj answer
    rw [fails] at fine
    cases fine

theorem afterEndPromises {n : Nat} (sound : Sound s) (silent : s.answered = none)
    (held : s.playback = some n) (found : s.found = some n) (spent : s.Over n) :
    Sound s.afterEnd ∧ StopClears s.afterEnd ∧ PlayReplaces s s.afterEnd := by
  rw [Sink.afterEnd,held]
  refine ⟨⟨fun m other => (by cases other),fun m plays => ?_,show _ ∧ _ ∧ _ from ⟨rfl,found,spent⟩⟩,
    silentAnswer silent⟩
  -- the only task that could play is over
  obtain rfl := Option.some.inj (held.symm.trans (sound.playing m plays))
  obtain ⟨task,here,ended⟩ := spent
  obtain ⟨task',here',plays⟩ := plays
  obtain rfl := Option.some.inj (here.symm.trans here')
  rw [Task.uncancelled,ended,Bool.not_true,Bool.and_false] at plays
  cases plays

theorem resumePromises (sound : Sound s) (silent : s.answered = none) (done : s.resume = some t) :
    Sound t ∧ StopClears t ∧ (PlayReplaces s t ↔ ∀ n load, s.call = .stopping n (some load) →
      load.failure = none → s.outcome n = some (.returned none)) := by
  have placed := sound.placed
  have vacuous {call : Call} (here : s.call = call) (other : ∀ n load, call ≠ .stopping n (some load)) :
      ∀ n load, s.call = .stopping n (some load) → load.failure = none →
        s.outcome n = some (.returned none) :=
    fun n load stops => absurd (here.symm.trans stops) (other n load)
  unfold Sink.resume at done
  split at done
  · cases done
  · rename_i n next call
    rw [Placed,call] at placed
    obtain ⟨free,found,cancelled⟩ := placed
    obtain ⟨outcome,joined,rfl⟩ := Option.map_eq_some_iff.mp done
    obtain ⟨clears,replaces⟩ := @afterStopPromises s n outcome silent free found cancelled next
    refine ⟨afterStopSound sound free _ _,clears,replaces.trans ?_⟩
    rw [call]
    constructor
    · rintro clean m load ⟨rfl,rfl⟩ loads
      rw [joined,clean load rfl loads]
    · rintro clean load rfl loads
      exact Option.some.inj (joined.symm.trans (clean n load rfl loads))
  · rename_i load call
    rw [Placed,call] at placed
    cases done
    obtain ⟨kept,clears,replaces⟩ := afterLoadPromises sound placed load
    exact ⟨kept,clears,fun _ => vacuous call (by simp),fun _ => replaces⟩
  · rename_i n call
    rw [Placed,call] at placed
    split at done
    · rename_i spent
      cases done
      have ended : s.Over n := by
        rw [List.getElem?_eq_getElem (sound.held n placed.1)] at spent
        exact ⟨_,List.getElem?_eq_getElem (sound.held n placed.1),spent⟩
      obtain ⟨kept,clears,replaces⟩ := afterEndPromises sound silent placed.1 placed.2 ended
      exact ⟨kept,clears,fun _ => vacuous call (by simp),fun _ => replaces⟩
    · cases done
  · rename_i n call
    obtain ⟨outcome,joined,rfl⟩ := Option.map_eq_some_iff.mp done
    obtain ⟨clears,replaces⟩ := @waitAnswer s
      { s with call := .idle, answered := some (.waitForEnd (joinAudioTask outcome)) } _ rfl
    exact ⟨soundIdle sound _,clears,fun _ => vacuous call (by simp),fun _ => replaces⟩

theorem callSound (sound : Sound s) (idle : s.call = .idle) (found : Option Nat) :
    Sound { s with found } := by
  refine ⟨sound.held,sound.playing,?_⟩
  rw [Placed,show ({ s with found } : Sink).call = .idle from idle]
  trivial

theorem otherLabel {label : Label} (promises : StopClears t ∧ PlayReplaces s t)
    (stays : label ≠ .dropWait) (waits : label ≠ .resume) :
    StopClears t ∧ DropKeeps s label t ∧ (PlayReplaces s t ↔ JoinsCleanly s label t) :=
  ⟨promises.1,fun drops => absurd drops stays,fun _ resumes => absurd resumes waits,fun _ => promises.2⟩

theorem callStops (sound : Sound s) (idle : s.call = .idle) (next : Option Load) {label : Label}
    (stays : label ≠ .dropWait) (waits : label ≠ .resume) :
    let t := Sink.stop { s with answered := none, found := s.playback } next
    Sound t ∧ StopClears t ∧ DropKeeps s label t ∧ (PlayReplaces s t ↔ JoinsCleanly s label t) := by
  have silent : Sound { s with answered := none } := ⟨sound.held,sound.playing,sound.placed⟩
  have promises := @stopPromises { s with answered := none, found := s.playback } rfl rfl next
  exact ⟨stopSound (callSound silent idle _) rfl _,otherLabel promises stays waits⟩

theorem dropPromises (sound : Sound s) (waits : (∃ n, s.call = .waiting n) ∨ ∃ n, s.call = .joining n) :
    let t := { s with answered := none, call := .idle }
    StopClears t ∧ DropKeeps s .dropWait t ∧ (PlayReplaces s t ↔ JoinsCleanly s .dropWait t) := by
  have placed := sound.placed
  obtain ⟨clears,replaces⟩ := @silentAnswer s { s with answered := none, call := .idle } rfl
  refine ⟨clears,fun _ m found running => ?_,fun _ resumes => (by cases resumes),fun _ => replaces⟩
  rcases waits with ⟨n,call⟩ | ⟨n,call⟩
  · rw [Placed,call] at placed
    exact placed.1.trans (placed.2.symm.trans found)
  · rw [Placed,call] at placed
    obtain rfl := Option.some.inj (placed.2.1.symm.trans found)
    exact absurd placed.2.2 running

theorem stepPromises {label : Label} (done : s.step label = some t) (sound : Sound s) :
    Sound t ∧ StopClears t ∧ DropKeeps s label t ∧ (PlayReplaces s t ↔ JoinsCleanly s label t) := by
  have silent : Sound { s with answered := none } := ⟨sound.held,sound.playing,sound.placed⟩
  unfold Sink.step at done
  cases label with
  | play load =>
    simp only at done
    split at done <;> cases done
    rename_i idle
    exact callStops sound idle (some load) (by simp) (by simp)
  | stop =>
    simp only at done
    split at done <;> cases done
    rename_i idle
    exact callStops sound idle none (by simp) (by simp)
  | waitForEnd =>
    simp only at done
    split at done
    · rename_i idle
      split at done <;> cases done
      · rename_i n held
        refine ⟨⟨sound.held,sound.playing,show _ ∧ _ from ⟨held,held⟩⟩,?_⟩
        exact otherLabel (silentAnswer rfl) (by simp) (by simp)
      · refine ⟨⟨sound.held,sound.playing,(callSound silent idle none).placed⟩,?_⟩
        exact otherLabel (waitAnswer rfl) (by simp) (by simp)
    · cases done
  | resume =>
    obtain ⟨kept,clears,replaces⟩ := resumePromises silent rfl done
    refine ⟨kept,clears,fun drop => (by cases drop),replaces.trans ?_⟩
    exact ⟨fun clean _ => clean,fun clean => clean rfl⟩
  | dropWait =>
    simp only at done
    split at done <;> cases done
    · rename_i n call
      exact ⟨soundIdle sound _,dropPromises sound (.inl ⟨n,call⟩)⟩
    · rename_i n call
      exact ⟨soundIdle sound _,dropPromises sound (.inr ⟨n,call⟩)⟩
  | finish n =>
    simp only at done
    split at done
    · split at done <;> cases done
      refine ⟨endingSound silent fun task => ⟨rfl,fun _ => rfl⟩,?_⟩
      exact otherLabel (silentAnswer rfl) (by simp) (by simp)
    · cases done
  | exit n outcome =>
    have ending : t = { s with answered := none }.setTask n fun task => { task with ended := some outcome } := by
      simp only at done
      split at done
      · split at done <;> cases done
        rfl
      · split at done <;> cases done
        rfl
      · cases done
    subst ending
    refine ⟨endingSound silent fun task => ⟨rfl,fun _ => by simp [Task.over]⟩,?_⟩
    exact otherLabel (silentAnswer rfl) (by simp) (by simp)

end Steps

/- Over any sequence of calls, drops and task ends: at most one task is uncancelled, `stop` clears,
a dropped wait keeps; and a `play` replaces what it finds exactly if that ended with `Ok`. -/
theorem sinkHonoursContract (labels : List Label) :
    Transition.Along Sink.step (fun s label t => OnePlays t ∧ StopClears t ∧ DropKeeps s label t)
      .new labels ∧
    (Transition.Along Sink.step (fun s _ t => PlayReplaces s t) .new labels ↔
      Transition.Along Sink.step JoinsCleanly .new labels) := by
  have initial : Sound .new :=
    ⟨fun n held => (by cases held),fun n plays => (by obtain ⟨task,here,_⟩ := plays; cases here),trivial⟩
  refine ⟨?_,?_,?_⟩
  · refine Transition.along Sink.step Sound ?_ initial (Transition.alongAlways Sink.step _ _)
    intro s label t done sound _
    obtain ⟨kept,clears,drops,_⟩ := stepPromises done sound
    exact ⟨kept,onePlays kept,clears,drops⟩
  · refine Transition.along Sink.step Sound ?_ initial
    intro s label t done sound replaces
    obtain ⟨kept,_,_,exact_⟩ := stepPromises done sound
    exact ⟨kept,exact_.mp replaces⟩
  · refine Transition.along Sink.step Sound ?_ initial
    intro s label t done sound clean
    obtain ⟨kept,_,_,exact_⟩ := stepPromises done sound
    exact ⟨kept,exact_.mpr clean⟩

/- The dial tone's task has failed; the clip that is played next loads, and is refused with the
dial tone's error. -/
theorem olderErrorSurfaces :
    ¬ Transition.Along Sink.step (fun s _ t => PlayReplaces s t) .new
      [.play ⟨.builtin .dialTone,none⟩,.resume,.finish 0,.exit 0 (.returned (some (.device "unplugged"))),
        .play ⟨.localFile "clip.flac",none⟩,.resume] := by
  intro run
  have last := run.2.2.2.2.2.1 ⟨.localFile "clip.flac",none⟩ (some (.device "unplugged")) rfl rfl
  cases last.1

end PiSink
end TelephoneBooth
