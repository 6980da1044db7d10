import TelephoneBooth.Forwarder
import TelephoneBooth.SpoolSharing

/-! Where the forwarder's events are: an event that was pushed is in the batch, or it is safe, that is
acknowledged, in a spool file, or counted as dropped or removed by the cap. While the task waits for
a spill the batch is also what that spill has stored or has still to store. -/
namespace TelephoneBooth.Forwarder
open EventSpool Listing BatchNames

section Predicates
variable (codec : BatchCodec WireEvent) (config : OperatorForwardConfig)

def Spooled (s : Forwarder) (event : WireEvent) : Prop :=
  ∃ name ∈ entries s.files, event ∈ eventsAt codec s.files name

instance (s : Forwarder) (event : WireEvent) : Decidable (Spooled codec s event) :=
  inferInstanceAs (Decidable (∃ name ∈ entries s.files, event ∈ eventsAt codec s.files name))

def Safe (s : Forwarder) (event : WireEvent) : Prop :=
  event ∈ s.acked ∨ event ∈ s.dropped ∨ event ∈ s.capped ∨
    Held codec (requestMax config) s.files event

def aims (s : Forwarder) : Option Name := s.replay.bind ReplayJob.aims

structure OneHolder (spills : List (SpillJob WireEvent)) (replay : Option (ReplayJob WireEvent)) :
    Prop where
  single : ∀ (i j : Nat) (a b : SpillJob WireEvent), spills[i]? = some a → spills[j]? = some b →
    a.holds = true → b.holds = true → i = j
  apart : ∀ job ∈ replay, job.holds = true → ∀ spill ∈ spills, spill.holds = false

structure Sound (s : Forwarder) : Prop where
  events : ∀ event ∈ s.pushed, event ∈ s.batch ∨ Safe codec config s event
  spills : ∀ job ∈ s.spills, SpillSound codec (requestMax config) s.files s.aims job
  replay : ∀ job ∈ s.replay, ReplaySound codec (requestMax config) s.acked s.files job
  lock : OneHolder s.spills s.replay

def Still (spills : List (SpillJob WireEvent)) : Prop := ∀ job ∈ spills, ∃ ok, job = .finished ok

def Awaited (s : Forwarder) : Prop :=
  ∃ job rest, s.spills = job :: rest ∧ ∀ event ∈ s.batch,
    Safe codec config s event ∨ event ∈ job.pending ∨ job = .finished false

def Placed (s : Forwarder) : Prop :=
  match s.place with
  | .idle | .flushing false => Still s.spills ∧ s.replay = none
  | .reading | .removing | .splitting => Still s.spills
  | .pushing path events => Still s.spills ∧ s.replay = none ∧ Fetched codec s.files path events
  | .flushSpilling false | .afterSpilling =>
    Still s.spills.tail ∧ s.replay = none ∧ Awaited codec config s
  | .flushSpilling true | .finalSpilling => Awaited codec config s
  | .ended true => s.batch = []
  | .draining | .flushing true | .ended false => True

end Predicates

section Batch
variable {codec : BatchCodec WireEvent} {config : OperatorForwardConfig} {s t : Forwarder}
  {event : WireEvent}

theorem pushAllMem {α : Type*} {cap : Nat} {batch items : List α} {x : α} (mem : x ∈ batch ∨ x ∈ items) :
    x ∈ (pushAll cap batch items).1 ∨ x ∈ (pushAll cap batch items).2 := by
  induction items generalizing batch with
  | nil => exact .inl (mem.resolve_right List.not_mem_nil)
  | cons item rest ih =>
    have one : x ∈ (pushWithCap cap batch item).1 ∨ x ∈ (pushWithCap cap batch item).2 ∨ x ∈ rest := by
      unfold pushWithCap
      rcases mem with old | new
      · split
        · rw [← List.take_append_drop 1 batch] at old
          rcases List.mem_append.mp old with first | later
          · exact .inr (.inl first)
          · exact .inl (List.mem_append_left _ later)
        · exact .inl (List.mem_append_left _ old)
      · rcases List.mem_cons.mp new with rfl | later
        · refine .inl ?_
          split <;> exact List.mem_append_right _ List.mem_cons_self
        · exact .inr (.inr later)
    rw [pushAll]
    rcases one with kept | gone | later
    · exact (ih (.inl kept)).imp_right (List.mem_append_right _)
    · exact .inr (List.mem_append_left _ gone)
    · exact (ih (.inr later)).imp_right (List.mem_append_right _)

structure Grown (s t : Forwarder) : Prop where
  files : t.files = s.files
  acked : ∀ event ∈ s.acked, event ∈ t.acked
  dropped : ∀ event ∈ s.dropped, event ∈ t.dropped
  capped : ∀ event ∈ s.capped, event ∈ t.capped

theorem Safe.grown (safe : Safe codec config s event) (grown : Grown s t) : Safe codec config t event := by
  rcases safe with acked | dropped | capped | held
  · exact .inl (grown.acked event acked)
  · exact .inr (.inl (grown.dropped event dropped))
  · exact .inr (.inr (.inl (grown.capped event capped)))
  · exact .inr (.inr (.inr (grown.files ▸ held)))

end Batch

section Lock
variable {spills : List (SpillJob WireEvent)} {replay : Option (ReplayJob WireEvent)} {s : Forwarder}

theorem OneHolder.tail {job : SpillJob WireEvent} (lock : OneHolder (job :: spills) replay) :
    OneHolder spills replay :=
  ⟨fun i j a b hereA hereB holdsA holdsB =>
    Nat.succ_injective (lock.single (i + 1) (j + 1) a b hereA hereB holdsA holdsB),
   fun held mem holds spill inside => lock.apart held mem holds spill (List.mem_cons_of_mem _ inside)⟩

theorem OneHolder.spawn (lock : OneHolder spills replay) (parts : List (List WireEvent)) :
    OneHolder (.waiting parts :: spills) replay := by
  refine ⟨fun i j a b hereA hereB holdsA holdsB => ?_,fun held mem holds spill inside => ?_⟩
  · cases i with
    | zero =>
      obtain rfl := Option.some.inj hereA
      cases holdsA
    | succ i =>
      cases j with
      | zero =>
        obtain rfl := Option.some.inj hereB
        cases holdsB
      | succ j => exact congrArg (· + 1) (lock.single i j a b hereA hereB holdsA holdsB)
  · rcases List.mem_cons.mp inside with rfl | inside
    · rfl
    · exact lock.apart held mem holds spill inside

theorem OneHolder.unlocked (lock : OneHolder spills replay) {other : Option (ReplayJob WireEvent)}
    (free : ∀ job ∈ other, job.holds = false) : OneHolder spills other :=
  ⟨lock.single,fun job mem holds => absurd (holds.symm.trans (free job mem)) nofun⟩

theorem lockFreeSpill (free : lockFree s = true) {job : SpillJob WireEvent} (mem : job ∈ s.spills) :
    job.holds = false := by
  have all := List.all_eq_true.mp (Bool.and_eq_true_iff.mp free).1 job mem
  simpa using all

theorem lockFreeReplay (free : lockFree s = true) {job : ReplayJob WireEvent} (mem : job ∈ s.replay) :
    job.holds = false := by
  have none_ := (Bool.and_eq_true_iff.mp free).2
  rw [Option.mem_def.mp mem] at none_
  simpa using none_

theorem OneHolder.setReplay (lock : OneHolder s.spills s.replay) {job next : ReplayJob WireEvent}
    (here : s.replay = some job) (taken : next.holds = true → job.holds = true ∨ lockFree s = true) :
    OneHolder s.spills (some next) := by
  refine ⟨lock.single,fun held mem holds spill inside => ?_⟩
  obtain rfl := Option.some.inj mem
  rcases taken holds with old | free
  · exact lock.apart job here old spill inside
  · exact lockFreeSpill free inside

theorem OneHolder.setSpill (lock : OneHolder s.spills s.replay) {number : Nat}
    {job next : SpillJob WireEvent} (here : s.spills[number]? = some job)
    (taken : next.holds = true → job.holds = true ∨ lockFree s = true) :
    OneHolder (s.spills.set number next) s.replay := by
  have mem := List.mem_of_getElem? here
  -- another job that has the lock had it before, so this one did not take it
  have other {i : Nat} {a : SpillJob WireEvent} (differ : number ≠ i)
      (hereA : (s.spills.set number next)[i]? = some a) (holdsA : a.holds = true)
      (holds : next.holds = true) : False := by
    rw [List.getElem?_set_ne differ] at hereA
    rcases taken holds with old | free
    · exact differ (lock.single number i job a here hereA old holdsA)
    · have none_ := lockFreeSpill free (List.mem_of_getElem? hereA)
      rw [none_] at holdsA
      cases holdsA
  have self {a : SpillJob WireEvent} (hereA : (s.spills.set number next)[number]? = some a) :
      a = next := by
    rw [List.getElem?_set_self (List.getElem?_eq_some_iff.mp here).1] at hereA
    exact (Option.some.inj hereA).symm
  refine ⟨fun i j a b hereA hereB holdsA holdsB => ?_,fun held inside holds spill there => ?_⟩
  · by_cases first : number = i
    · subst first
      obtain rfl := self hereA
      by_contra differ
      exact other differ hereB holdsB holdsA
    · by_cases second : number = j
      · subst second
        obtain rfl := self hereB
        exact (other first hereA holdsA holdsB).elim
      · rw [List.getElem?_set_ne first] at hereA
        rw [List.getElem?_set_ne second] at hereB
        exact lock.single i j a b hereA hereB holdsA holdsB
  · rcases List.mem_or_eq_of_mem_set there with old | rfl
    · exact lock.apart held inside holds spill old
    · by_contra locked
      rcases taken (Bool.eq_true_of_not_eq_false locked) with old | free
      · have none_ := lock.apart held inside holds job mem
        rw [old] at none_
        cases none_
      · have none_ := lockFreeReplay free inside
        rw [holds] at none_
        cases none_

end Lock

section Moves
variable {codec : BatchCodec WireEvent} {config : OperatorForwardConfig} {s : Forwarder}

theorem stillSound {spills : List (SpillJob WireEvent)} (still : Still spills) {files : SpoolFiles}
    {aims : Option Name} : ∀ job ∈ spills, SpillSound codec (requestMax config) files aims job := by
  intro job mem
  obtain ⟨ok,rfl⟩ := still job mem
  trivial

theorem stillLock {spills : List (SpillJob WireEvent)} (still : Still spills)
    (replay : Option (ReplayJob WireEvent)) : OneHolder spills replay := by
  have free {job : SpillJob WireEvent} (mem : job ∈ spills) : job.holds = false := by
    obtain ⟨ok,rfl⟩ := still job mem
    rfl
  refine ⟨fun i j a b hereA _ holdsA _ => ?_,fun _ _ _ spill mem => free mem⟩
  rw [free (List.mem_of_getElem? hereA)] at holdsA
  cases holdsA

theorem Sound.forget (sound : Sound codec config s) (place : Place) :
    Sound codec config { s with place,replay := none } :=
  ⟨sound.events,fun job mem => (sound.spills job mem).disarm,nofun,sound.lock.unlocked nofun⟩

theorem Sound.spawn (sound : Sound codec config s) (waits : Place) :
    Sound codec config (spawnSpill config s waits) := by
  refine ⟨sound.events,fun job mem => ?_,sound.replay,sound.lock.spawn _⟩
  rcases List.mem_cons.mp mem with rfl | old
  · exact chunksLength s.batch
  · exact sound.spills job old

theorem spawnAwaited (waits : Place) : Awaited codec config (spawnSpill config s waits) := by
  refine ⟨_,_,rfl,fun event mem => .inr (.inl ?_)⟩
  show event ∈ (chunks (requestMax config) s.batch).flatten
  rwa [chunksFlatten (requestPositive config)]

theorem afterReplaySound (sound : Sound codec config s) (still : Still s.spills) :
    Sound codec config (afterReplay s) ∧ Placed codec config (afterReplay s) := by
  unfold afterReplay
  split
  · exact ⟨sound.forget .idle,still,rfl⟩
  · exact ⟨sound.forget (.flushing false),still,rfl⟩

theorem spillRemainingSound (sound : Sound codec config s) {done waits : Place}
    (nothing : s.batch = [] → Placed codec config { s with place := done })
    (spawned : Awaited codec config (spawnSpill config s waits) →
      Placed codec config (spawnSpill config s waits)) :
    Sound codec config (spillRemaining config s done waits) ∧
      Placed codec config (spillRemaining config s done waits) := by
  unfold spillRemaining
  split
  · rename_i empty_
    exact ⟨⟨sound.events,sound.spills,sound.replay,sound.lock⟩,nothing (List.isEmpty_iff.mp empty_)⟩
  · exact ⟨sound.spawn waits,spawned (spawnAwaited waits)⟩

theorem afterFlushSound {ok final : Bool} (sound : Sound codec config s)
    (quiet : final = false → Still s.spills ∧ s.replay = none) (flushed : ok = true → s.batch = []) :
    Sound codec config (afterFlush config ok final s) ∧
      Placed codec config (afterFlush config ok final s) := by
  unfold afterFlush
  split
  · exact ⟨⟨sound.events,sound.spills,sound.replay,sound.lock⟩,flushed rfl⟩
  · exact ⟨⟨sound.events,sound.spills,sound.replay,sound.lock⟩,quiet rfl⟩
  · exact spillRemainingSound sound id id
  · split
    · exact ⟨⟨sound.events,sound.spills,sound.replay,sound.lock⟩,quiet rfl⟩
    · exact spillRemainingSound sound (fun _ => quiet rfl) fun awaited =>
        ⟨(quiet rfl).1,(quiet rfl).2,awaited⟩

theorem afterSpillSound {ok : Bool} {rest : List (SpillJob WireEvent)} (sound : Sound codec config s)
    (head : s.spills = .finished ok :: rest) (awaited : Awaited codec config s)
    (placed : Placed codec config s)
    (waits : (∃ final, s.place = .flushSpilling final) ∨ s.place = .afterSpilling ∨
      s.place = .finalSpilling) :
    Sound codec config (afterSpill config s ok) ∧ Placed codec config (afterSpill config s ok) := by
  have tail (place : Place) : Sound codec config
      { s with place,spills := s.spills.tail,batch := if ok then [] else s.batch } := by
    refine ⟨fun event mem => ?_,fun job mem => sound.spills job (List.mem_of_mem_tail mem),
      sound.replay,?_⟩
    · cases ok with
      | false => exact sound.events event mem
      | true =>
        refine .inr ?_
        rcases sound.events event mem with batch | safe
        · obtain ⟨job,others,here,covers⟩ := awaited
          rw [head] at here
          obtain ⟨rfl,rfl⟩ := List.cons.inj here
          rcases covers event batch with safe | pending | failed
          · exact safe
          · cases pending
          · cases failed
        · exact safe
    · have lock := sound.lock
      rw [head] at lock
      rw [head]
      exact lock.tail
  unfold Placed at placed
  unfold afterSpill
  dsimp only
  rcases waits with ⟨final,place⟩ | place | place
  · rw [place] at placed ⊢
    refine afterFlushSound (tail _) (fun loop => ?_) nofun
    subst loop
    exact ⟨placed.1,placed.2.1⟩
  · rw [place] at placed ⊢
    exact ⟨tail _,placed.1,placed.2.1⟩
  · rw [place]
    refine ⟨tail _,?_⟩
    cases ok with
    | false => trivial
    | true => rfl

end Moves

section Steps
variable {codec : BatchCodec WireEvent} {config : OperatorForwardConfig} {ids : ProcessIds}
  {s t : Forwarder} {event : WireEvent}

theorem ingestSound (sound : Sound codec config s) (bufferMax : Nat) (record : BusEvent) :
    Sound codec config (ingestRecord ids bufferMax s record) := by
  refine ⟨fun event mem => ?_,sound.spills,sound.replay,sound.lock⟩
  have grown : Grown s (ingestRecord ids bufferMax s record) :=
    ⟨rfl,fun _ => id,fun _ mem => List.mem_append_left _ mem,fun _ => id⟩
  have held (mem : event ∈ s.batch ∨ event ∈ (wiresOf ids s.tracker s.nextSeq record).2.2) :
      event ∈ (ingestRecord ids bufferMax s record).batch ∨
        Safe codec config (ingestRecord ids bufferMax s record) event := by
    rcases @pushAllMem _ bufferMax _ _ _ mem with kept | gone
    · exact .inl kept
    · exact .inr (.inr (.inl (List.mem_append_right _ gone)))
  rcases List.mem_append.mp mem with old | new
  · rcases sound.events event old with batch | safe
    · exact held (.inl batch)
    · exact .inr (safe.grown grown)
  · exact held (.inr new)

theorem flushingQuiet {final : Bool} (placed : Placed codec config s) (place : s.place = .flushing final) :
    final = false → Still s.spills ∧ s.replay = none := by
  rintro rfl
  rw [Placed,place] at placed
  exact placed

theorem ackedSound (sound : Sound codec config s) (count : Nat) :
    Sound codec config
      { s with acked := s.acked ++ s.batch.take count,batch := s.batch.drop count } := by
  refine ⟨fun event mem => ?_,sound.spills,fun job mem =>
    (sound.replay job mem).grown fun _ inside => List.mem_append_left _ inside,sound.lock⟩
  rcases sound.events event mem with batch | safe
  · rw [← List.take_append_drop count s.batch] at batch
    rcases List.mem_append.mp batch with sent | kept
    · exact .inr (.inl (List.mem_append_right _ sent))
    · exact .inl kept
  · exact .inr (safe.grown ⟨rfl,fun _ inside => List.mem_append_left _ inside,fun _ => id,fun _ => id⟩)

theorem replayedSound (sound : Sound codec config s) (still : Still s.spills) {path : Name}
    {events : List WireEvent} (fetched : Fetched codec s.files path events) :
    Sound codec config { s with
      place := .removing
      replay := some (.removing path)
      acked := s.acked ++ events } := by
  refine ⟨fun event mem => ?_,stillSound still,fun job mem => ?_,stillLock still _⟩
  · exact (sound.events event mem).imp_right fun safe =>
      safe.grown ⟨rfl,fun _ inside => List.mem_append_left _ inside,fun _ => id,fun _ => id⟩
  · obtain rfl := Option.some.inj mem
    refine ⟨fetched.seen,fetched.reserved,fun _ _ _ event inside => ?_⟩
    rcases fetched.same with none_ | same
    · rw [none_] at inside
      cases inside
    · exact List.mem_append_right _ (same ▸ inside)

theorem oversizedSound (sound : Sound codec config s) (still : Still s.spills) {path : Name}
    {events : List WireEvent} (fetched : Fetched codec s.files path events)
    (large : requestMax config < events.length) :
    Sound codec config { s with
      place := .splitting
      replay := some (.waiting path events (requestMax config)) } := by
  refine ⟨sound.events,stillSound still,fun job mem => ?_,stillLock still _⟩
  obtain rfl := Option.some.inj mem
  refine ⟨fetched.seen,fetched.reserved,fun _ _ short event inside => ?_⟩
  rcases fetched.same with none_ | same
  · rw [none_] at inside
    cases inside
  · rw [same] at short
    omega

theorem answerSound (answer : PushAnswer) (sound : Sound codec config s) (placed : Placed codec config s)
    (enabled : step config ids codec s (.answer answer) = some t) :
    Sound codec config t ∧ Placed codec config t := by
  simp only [step] at enabled
  split at enabled
  · rename_i path events place
    rw [Placed,place] at placed
    cases enabled
    exact ⟨replayedSound sound placed.1 placed.2.2,placed.1⟩
  · rename_i path events place _
    rw [Placed,place] at placed
    cases enabled
    exact afterReplaySound sound placed.1
  · rename_i final place
    have quiet := flushingQuiet placed place
    have acked := ackedSound sound (requestMax config)
    split at enabled
    · rename_i empty_
      cases enabled
      exact afterFlushSound acked quiet fun _ => List.isEmpty_iff.mp empty_
    · cases enabled
      refine ⟨acked,?_⟩
      rw [Placed,place]
      cases final with
      | true => trivial
      | false => exact quiet rfl
  · rename_i final place
    have quiet := flushingQuiet placed place
    split at enabled
    · cases enabled
      exact afterFlushSound sound quiet fun fails => Bool.noConfusion fails
    · cases enabled
      refine ⟨sound.spawn _,?_⟩
      cases final with
      | true => exact spawnAwaited _
      | false => exact ⟨(quiet rfl).1,(quiet rfl).2,spawnAwaited _⟩
  · rename_i final place
    cases enabled
    exact afterFlushSound sound (flushingQuiet placed place) fun fails => Bool.noConfusion fails
  · cases enabled

theorem resumeSound (sound : Sound codec config s) (placed : Placed codec config s)
    (enabled : step config ids codec s .resume = some t) :
    Sound codec config t ∧ Placed codec config t := by
  have read (path : Name) (events : List WireEvent)
      (here : s.replay = some (.readDone (some (path,events)))) :
      Fetched codec s.files path events := sound.replay _ here
  simp only [step] at enabled
  split at enabled
  · rename_i place _
    rw [Placed,place] at placed
    cases enabled
    exact afterReplaySound sound placed
  · rename_i path events place here
    rw [Placed,place] at placed
    split at enabled
    · rename_i large
      cases enabled
      exact ⟨oversizedSound sound placed (read _ _ here) large,placed⟩
    · cases enabled
      exact ⟨sound.forget _,placed,rfl,read _ _ here⟩
  · rename_i place _
    rw [Placed,place] at placed
    cases enabled
    exact afterReplaySound sound placed
  · rename_i place _
    rw [Placed,place] at placed
    cases enabled
    exact afterReplaySound sound placed
  · rename_i final ok rest place head
    cases enabled
    have awaited : Awaited codec config s := by
      have here := placed
      rw [Placed,place] at here
      cases final with
      | true => exact here
      | false => exact here.2.2
    exact afterSpillSound sound head awaited placed (.inl ⟨final,place⟩)
  · rename_i place head
    cases enabled
    have here := placed
    rw [Placed,place] at here
    exact afterSpillSound sound head here.2.2 placed (.inr (.inl place))
  · rename_i place head
    cases enabled
    have here := placed
    rw [Placed,place] at here
    exact afterSpillSound sound head here placed (.inr (.inr place))
  · cases enabled

theorem Awaited.same (awaited : Awaited codec config s)
    (safe : ∀ event, Safe codec config s event → Safe codec config t event) (batch : t.batch = s.batch)
    (spills : t.spills = s.spills) : Awaited codec config t := by
  obtain ⟨job,rest,here,covers⟩ := awaited
  refine ⟨job,rest,spills.trans here,fun event mem => ?_⟩
  rw [batch] at mem
  exact (covers event mem).imp_left (safe event)

theorem Placed.carried (placed : Placed codec config s) (place : t.place = s.place)
    (still : Still s.spills → Still t.spills) (tail : Still s.spills.tail → Still t.spills.tail)
    (replay : s.replay = none → t.replay = none)
    (fetched : s.replay = none → Still s.spills → ∀ path events,
      Fetched codec s.files path events → Fetched codec t.files path events)
    (awaited : Awaited codec config s → Awaited codec config t) (batch : t.batch = s.batch) :
    Placed codec config t := by
  unfold Placed at placed ⊢
  rw [place]
  generalize s.place = place at placed
  cases place with
  | idle => exact ⟨still placed.1,replay placed.2⟩
  | reading | removing | splitting => exact still placed
  | pushing path events =>
    exact ⟨still placed.1,replay placed.2.1,fetched placed.2.1 placed.1 _ _ placed.2.2⟩
  | flushing final =>
    cases final with
    | true => trivial
    | false => exact ⟨still placed.1,replay placed.2⟩
  | flushSpilling final =>
    cases final with
    | true => exact awaited placed
    | false => exact ⟨tail placed.1,replay placed.2.1,awaited placed.2.2⟩
  | afterSpilling => exact ⟨tail placed.1,replay placed.2.1,awaited placed.2.2⟩
  | draining => trivial
  | finalSpilling => exact awaited placed
  | ended ok =>
    cases ok with
    | true => exact batch.trans placed
    | false => trivial

theorem replaySafe {job : ReplayJob WireEvent} {files : SpoolFiles}
    (effect : ReplayEffect codec (requestMax config) s.acked job s.files files)
    (replay : Option (ReplayJob WireEvent)) (safe : Safe codec config s event) :
    Safe codec config { s with files,replay } event := by
  rcases safe with acked | dropped | capped | held
  · exact .inl acked
  · exact .inr (.inl dropped)
  · exact .inr (.inr (.inl capped))
  · rcases effect.held held with held | acked
    · exact .inr (.inr (.inr held))
    · exact .inl acked

theorem replayIoSound (result : FsResult) (now : Nat) (sound : Sound codec config s)
    (placed : Placed codec config s) (enabled : step config ids codec s (.replayIo result now) = some t) :
    Sound codec config t ∧ Placed codec config t := by
  obtain ⟨job,here,enabled⟩ := Option.bind_eq_some_iff.mp enabled
  obtain ⟨⟨files,next⟩,stepped,enabled⟩ := Option.bind_eq_some_iff.mp enabled
  cases enabled
  obtain ⟨effect,kept⟩ := ReplayJob.stepSound _ now result (sound.replay job here) stepped
  have safe (event : WireEvent) (safe : Safe codec config s event) :
      Safe codec config { s with files,replay := some next } event := replaySafe effect _ safe
  have aimed : s.aims = job.aims := congrArg (Option.bind · ReplayJob.aims) here
  refine ⟨⟨fun event mem => (sound.events event mem).imp_right (safe event),fun spill mem => ?_,
    fun other mem => ?_,sound.lock.setReplay here (replayLocks stepped)⟩,?_⟩
  · have held := sound.spills spill mem
    rw [aimed] at held
    refine held.afterReplay effect (fun holds => ?_) fun path => replayAims _ now result stepped
    by_contra locked
    have free := sound.lock.apart job here (Bool.eq_true_of_not_eq_false locked) spill mem
    rw [holds] at free
    cases free
  · obtain rfl := Option.some.inj mem
    exact kept
  · have absurd_ {p : Prop} (none_ : s.replay = none) : p := by
      rw [none_] at here
      cases here
    exact placed.carried rfl id id absurd_ (fun none_ => absurd_ none_)
      (fun awaited => awaited.same safe rfl rfl) rfl

theorem spillSafe {number : Nat} {files : SpoolFiles} {job next : SpillJob WireEvent}
    (effect : SpillEffect codec s.aims s.files files job) (safe : Safe codec config s event) :
    Safe codec config { s with
      files
      spills := s.spills.set number next
      capped := s.capped ++ overCap codec s.files files job } event := by
  rcases safe with acked | dropped | capped | held
  · exact .inl acked
  · exact .inr (.inl dropped)
  · exact .inr (.inr (.inl (List.mem_append_left _ capped)))
  · rcases effect.held held with held | ⟨name,ops,rest,rfl,gone,mem⟩
    · exact .inr (.inr (.inr held))
    · refine .inr (.inr (.inl (List.mem_append_right _ ?_)))
      rw [overCap,gone]
      exact mem

theorem othersSound {number : Nat} {result : FsResult} {now : Nat} {files : SpoolFiles}
    {job next : SpillJob WireEvent} (sound : Sound codec config s) (here : s.spills[number]? = some job)
    (stepped : spillStep codec defaultMaxFiles (lockFree s) now s.files result job = some (files,next))
    (kept : SpillSound codec (requestMax config) files s.aims next) :
    ∀ spill ∈ s.spills.set number next, SpillSound codec (requestMax config) files s.aims spill := by
  intro spill inside
  obtain ⟨i,there⟩ := List.mem_iff_getElem?.mp inside
  by_cases own : number = i
  · subst own
    rw [List.getElem?_set_self (List.getElem?_eq_some_iff.mp here).1] at there
    exact Option.some.inj there ▸ kept
  · rw [List.getElem?_set_ne own] at there
    have held := sound.spills spill (List.mem_of_getElem? there)
    cases locked : job.holds with
    | false =>
      rw [spillUnlocked stepped locked]
      exact held
    | true =>
      refine held.unlocked ?_
      by_contra holds
      exact own (sound.lock.single number i job spill here there locked
        (Bool.eq_true_of_not_eq_false holds))

theorem Awaited.stepped {number : Nat} {job next : SpillJob WireEvent}
    (awaited : Awaited codec config s) (here : s.spills[number]? = some job)
    (running : job ≠ .finished false)
    (safe : ∀ event, Safe codec config s event → Safe codec config t event)
    (stored : ∀ event ∈ job.pending,
      event ∈ next.pending ∨ Safe codec config t event ∨ next = .finished false)
    (batch : t.batch = s.batch) (spills : t.spills = s.spills.set number next) :
    Awaited codec config t := by
  obtain ⟨head,rest,listing,covers⟩ := awaited
  rw [listing] at here spills
  cases number with
  | zero =>
    obtain rfl := Option.some.inj here
    refine ⟨next,rest,spills,fun event mem => ?_⟩
    rw [batch] at mem
    rcases covers event mem with done | pending | failed
    · exact .inl (safe event done)
    · rcases stored event pending with pending | done | failed
      · exact .inr (.inl pending)
      · exact .inl done
      · exact .inr (.inr failed)
    · exact absurd failed running
  | succ number =>
    refine ⟨head,rest.set number next,spills,fun event mem => ?_⟩
    rw [batch] at mem
    exact (covers event mem).imp_left (safe event)

theorem spillIoSound (number : Nat) (result : FsResult) (now : Nat) (sound : Sound codec config s)
    (placed : Placed codec config s)
    (enabled : step config ids codec s (.spillIo number result now) = some t) :
    Sound codec config t ∧ Placed codec config t := by
  obtain ⟨job,here,enabled⟩ := Option.bind_eq_some_iff.mp enabled
  obtain ⟨⟨files,next⟩,stepped,enabled⟩ := Option.bind_eq_some_iff.mp enabled
  cases enabled
  have running (ok : Bool) : job ≠ .finished ok := by
    rintro rfl
    cases stepped
  have reserved (path : Name) (aimed : s.aims = some path) : Reserved s.files path := by
    obtain ⟨replay,going,aims⟩ := Option.bind_eq_some_iff.mp aimed
    have doomed := sound.replay replay going
    cases replay with
    | corrupt | removing | waiting =>
      obtain rfl := Option.some.inj aims
      exact doomed.reserved
    | scanning | reading | readDone | splitting | finished => cases aims
  obtain ⟨effect,kept,stored⟩ := SpillJob.stepSound (by decide) _ now result reserved
    (sound.spills job (List.mem_of_getElem? here)) stepped
  have safe (event : WireEvent) (safe : Safe codec config s event) := @spillSafe codec config s event
    number files job next effect safe
  have locks := @spillLocks _ codec _ _ job _ _ _ _ _ stepped
  refine ⟨⟨fun event mem => (sound.events event mem).imp_right (safe event),
    othersSound sound here stepped kept,
    fun replay going => (sound.replay replay going).afterSpill effect,sound.lock.setSpill here locks⟩,?_⟩
  refine placed.carried rfl (fun still => ?_) (fun still => ?_) id
    (fun _ _ _ _ fetched => fetched.afterSpill effect) (fun awaited => ?_) rfl
  · obtain ⟨ok,done⟩ := still job (List.mem_of_getElem? here)
    exact absurd done (running ok)
  · show Still (s.spills.set number next).tail
    cases listing : s.spills with
    | nil => exact nofun
    | cons head rest =>
      rw [listing] at still here
      cases number with
      | zero => exact still
      | succ number =>
        obtain ⟨ok,done⟩ := still job (List.mem_of_getElem? here)
        exact absurd done (running ok)
  · exact awaited.stepped here (running false) safe
      (fun event mem => (stored event mem).imp_right fun later =>
        later.imp_left fun held => .inr (.inr (.inr held))) rfl rfl

theorem ledgerStep (s : Forwarder) (label : ForwarderLabel) (t : Forwarder)
    (enabled : step config ids codec s label = some t)
    (ledger : Sound codec config s ∧ Placed codec config s) :
    Sound codec config t ∧ Placed codec config t := by
  obtain ⟨sound,placed⟩ := ledger
  have moved (place : Place) : Sound codec config { s with place } :=
    ⟨sound.events,sound.spills,sound.replay,sound.lock⟩
  cases label with
  | tick =>
    simp only [step] at enabled
    split at enabled <;> cases enabled
    rename_i place
    rw [Placed,place] at placed
    exact ⟨⟨sound.events,stillSound placed.1,fun job mem => Option.some.inj mem ▸ trivial,
      stillLock placed.1 _⟩,placed.1⟩
  | record event =>
    simp only [step] at enabled
    split at enabled
    · rename_i place
      rw [Placed,place] at placed
      have ingested := @ingestSound codec config ids s sound config.bufferMax event
      split at enabled <;> cases enabled
      · exact ⟨⟨ingested.events,ingested.spills,ingested.replay,ingested.lock⟩,placed⟩
      · refine ⟨ingested,?_⟩
        rw [Placed,show (ingestRecord ids config.bufferMax s event).place = .idle from place]
        exact placed
    · rename_i place
      cases enabled
      refine ⟨ingestSound sound _ event,?_⟩
      rw [Placed,show (ingestRecord ids config.bufferMax s event).place = .draining from place]
      trivial
    · cases enabled
  | lagged =>
    simp only [step] at enabled
    split at enabled <;> cases enabled
    exact ⟨sound,placed⟩
  | closed =>
    simp only [step] at enabled
    split at enabled <;> cases enabled
    exact ⟨moved .draining,trivial⟩
  | shutdown =>
    simp only [step] at enabled
    split at enabled <;> cases enabled <;> exact ⟨moved .draining,trivial⟩
  | drained =>
    simp only [step] at enabled
    split at enabled <;> cases enabled
    refine ⟨moved _,?_⟩
    cases empty_ : s.batch.isEmpty with
    | true => exact List.isEmpty_iff.mp empty_
    | false => trivial
  | timeout =>
    simp only [step] at enabled
    split at enabled <;> cases enabled <;>
      exact afterFlushSound sound (fun drains => Bool.noConfusion drains)
        fun fails => Bool.noConfusion fails
  | answer answer => exact answerSound answer sound placed enabled
  | resume => exact resumeSound sound placed enabled
  | replayIo result now => exact replayIoSound result now sound placed enabled
  | spillIo number result now => exact spillIoSound number result now sound placed enabled

theorem endedEmpty (placed : Placed codec config s) (ended : s.place = .ended true) : s.batch = [] := by
  rw [Placed,ended] at placed
  exact placed

theorem safeAccounted (safe : Safe codec config s event) :
    event ∈ s.acked ∨ Spooled codec s event ∨ event ∈ s.dropped ∨ event ∈ s.capped := by
  rcases safe with acked | dropped | capped | ⟨n,_,mem⟩
  · exact .inl acked
  · exact .inr (.inr (.inl dropped))
  · exact .inr (.inr (.inr capped))
  · exact .inr (.inl ⟨batchName n,entriesMem.mpr ⟨batchListed n,eventsListed mem⟩,mem⟩)

/-- In every run every event that was pushed is acknowledged, in the batch, in a spool file, dropped or
removed by the cap; and when the task has ended well it is not only in the batch. -/
theorem eventsAccounted (config : OperatorForwardConfig) (ids : ProcessIds)
    (codec : BatchCodec WireEvent) (files : SpoolFiles) (labels : List ForwarderLabel) :
    Transition.Along (step config ids codec)
      (fun _ _ after =>
        (∀ event ∈ after.pushed, event ∈ after.acked ∨ event ∈ after.batch ∨
          Spooled codec after event ∨ event ∈ after.dropped ∨ event ∈ after.capped) ∧
        (after.place = .ended true → ∀ event ∈ after.pushed, event ∈ after.acked ∨
          Spooled codec after event ∨ event ∈ after.dropped ∨ event ∈ after.capped))
      (start files) labels := by
  have still : Still ([] : List (SpillJob WireEvent)) := nofun
  have initial : Sound codec config (start files) ∧ Placed codec config (start files) :=
    ⟨⟨nofun,nofun,nofun,stillLock still _⟩,still,rfl⟩
  refine Transition.along _ (fun s => Sound codec config s ∧ Placed codec config s)
    (fun s label t enabled ledger _ => ?_) initial (Transition.alongAlways _ _ _)
  obtain ⟨sound,placed⟩ := ledgerStep s label t enabled ledger
  refine ⟨⟨sound,placed⟩,fun event mem => ?_,fun ended event mem => ?_⟩
  · rcases sound.events event mem with batch | safe
    · exact .inr (.inl batch)
    · exact (safeAccounted safe).imp_right .inr
  · rcases sound.events event mem with batch | safe
    · rw [endedEmpty placed ended] at batch
      cases batch
    · exact safeAccounted safe

def twoEvents : OperatorForwardConfig := { batchMax := 2, bufferMax := 2 }

def drainedRun : List ForwarderLabel :=
  [.shutdown,.record .log,.record .log,.record .log,.drained,.answer .failed] ++
    List.replicate 6 (.spillIo 0 .ok 7) ++ [.resume]

theorem droppedEventGone :
    ¬Transition.Along (step twoEvents someIds WireEvent.marked)
      (fun _ _ after => after.place = .ended true → ∀ event ∈ after.pushed,
        event ∈ after.acked ∨ Spooled WireEvent.marked after event) (start ∅) drainedRun := by
  decide +kernel

end Steps

end TelephoneBooth.Forwarder
