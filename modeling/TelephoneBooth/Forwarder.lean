import TelephoneBooth.Config
import TelephoneBooth.PrefixCode
import TelephoneBooth.Sessions
import TelephoneBooth.SpoolJobs

/-! The event forwarder: records of the bus become events of a batch, which is pushed to the
operator in requests of limited size and spilled to the spool when that fails. -/
namespace TelephoneBooth
open EventSpool Listing

inductive BusEvent where
  | gpioEdge | statusLed | audioLevel | systemSample
  | audioDeviceChange | operatorRequest | operatorResponse | log | error
  | recordingStarted (id sessionId : String)
  | recordingStopped (id sessionId : String)
  | uploadStarted (recordingId sessionId : String)
  | uploadCompleted (recordingId sessionId : String)
  | uploadFailed (recordingId sessionId : String)
  | stateTransition (source target : String)
  | digitDialed (digit pulses : UInt8)
  | callStarted (sessionId : String)
  | callEnded (sessionId : String) (outcome : CallOutcome) (digitsDialed : String)
  deriving DecidableEq, Repr

namespace BusEvent

def told : BusEvent → TelemetryEvent
  | stateTransition source target => .stateTransition source target
  | digitDialed digit pulses => .digitDialed digit pulses
  | uploadCompleted _ _ => .uploadCompleted
  | uploadFailed _ _ => .uploadFailed
  | callStarted sessionId => .callStarted sessionId
  | callEnded sessionId outcome digitsDialed => .callEnded sessionId outcome digitsDialed
  | _ => .other

def synthetic : TelemetryEvent → Option BusEvent
  | .callStarted sessionId => some (callStarted sessionId)
  | .callEnded sessionId outcome digitsDialed => some (callEnded sessionId outcome digitsDialed)
  | _ => none

def shouldForward : BusEvent → Bool
  | audioLevel | gpioEdge => false
  | statusLed => false
  | systemSample => false
  | callStarted _ | callEnded _ _ _ => false
  | _ => true

def sessionIdOf : BusEvent → Option String
  | callStarted sessionId | callEnded sessionId _ _ | recordingStarted _ sessionId
  | recordingStopped _ sessionId | uploadStarted _ sessionId | uploadCompleted _ sessionId
  | uploadFailed _ sessionId => some sessionId
  | _ => none

def recordingIdOf : BusEvent → Option String
  | recordingStarted id _ | recordingStopped id _ => some id
  | uploadStarted recordingId _ | uploadCompleted recordingId _ | uploadFailed recordingId _ =>
    some recordingId
  | _ => none

def sessionIdForWire (event : BusEvent) (active : Option String) : Option String :=
  match event with
  | digitDialed _ _ => active
  | _ => sessionIdOf event

end BusEvent

structure ProcessIds where
  bootId : String
  uuid : Nat → String

structure WireEvent where
  bootId : String
  seq : Nat
  sessionId : Option String
  recordingId : Option String
  event : BusEvent
  deriving DecidableEq, Repr

/- The JSON of a batch is a parameter below; this is one way to write batches that can be read
back. -/
namespace BusEvent

def parts : BusEvent → Nat × List Nat × List String
  | gpioEdge => (0,[],[])
  | statusLed => (1,[],[])
  | audioLevel => (2,[],[])
  | systemSample => (3,[],[])
  | audioDeviceChange => (4,[],[])
  | operatorRequest => (5,[],[])
  | operatorResponse => (6,[],[])
  | log => (7,[],[])
  | error => (8,[],[])
  | recordingStarted id sessionId => (9,[],[id,sessionId])
  | recordingStopped id sessionId => (10,[],[id,sessionId])
  | uploadStarted recordingId sessionId => (11,[],[recordingId,sessionId])
  | uploadCompleted recordingId sessionId => (12,[],[recordingId,sessionId])
  | uploadFailed recordingId sessionId => (13,[],[recordingId,sessionId])
  | stateTransition source target => (14,[],[source,target])
  | digitDialed digit pulses => (15,[digit.toNat,pulses.toNat],[])
  | callStarted sessionId => (16,[],[sessionId])
  | callEnded sessionId outcome digitsDialed => (17,[outcome.ctorIdx],[sessionId,digitsDialed])

def ofParts : Nat × List Nat × List String → Option BusEvent
  | (0,_,_) => some gpioEdge
  | (1,_,_) => some statusLed
  | (2,_,_) => some audioLevel
  | (3,_,_) => some systemSample
  | (4,_,_) => some audioDeviceChange
  | (5,_,_) => some operatorRequest
  | (6,_,_) => some operatorResponse
  | (7,_,_) => some log
  | (8,_,_) => some error
  | (9,_,[id,sessionId]) => some (recordingStarted id sessionId)
  | (10,_,[id,sessionId]) => some (recordingStopped id sessionId)
  | (11,_,[recordingId,sessionId]) => some (uploadStarted recordingId sessionId)
  | (12,_,[recordingId,sessionId]) => some (uploadCompleted recordingId sessionId)
  | (13,_,[recordingId,sessionId]) => some (uploadFailed recordingId sessionId)
  | (14,_,[source,target]) => some (stateTransition source target)
  | (15,[digit,pulses],_) => some (digitDialed (.ofNat digit) (.ofNat pulses))
  | (16,_,[sessionId]) => some (callStarted sessionId)
  | (17,[outcome],[sessionId,digitsDialed]) =>
    some (callEnded sessionId (.ofNat outcome) digitsDialed)
  | _ => none

theorem partsRead (event : BusEvent) : ofParts event.parts = some event := by
  cases event with
  | digitDialed digit pulses =>
    show some (digitDialed (.ofNat digit.toNat) (.ofNat pulses.toNat)) = _
    rw [UInt8.ofNat_toNat,UInt8.ofNat_toNat]
  | callEnded sessionId outcome digitsDialed => cases outcome <;> rfl
  | _ => rfl

end BusEvent

namespace WireEvent

def code : PrefixCode WireEvent :=
  (PrefixCode.text.both (PrefixCode.nat.both (PrefixCode.text.option.both (PrefixCode.text.option.both
    ((PrefixCode.nat.both (PrefixCode.nat.list.both PrefixCode.text.list)).through
      BusEvent.parts BusEvent.ofParts BusEvent.partsRead))))).through
    (fun wire => (wire.bootId,wire.seq,wire.sessionId,wire.recordingId,wire.event))
    (fun (bootId,seq,sessionId,recordingId,event) => some ⟨bootId,seq,sessionId,recordingId,event⟩)
    fun _ => rfl

def marked : BatchCodec WireEvent where
  toVec := code.list.put
  fromSlice bytes := (code.list.take bytes).map Prod.fst
  reads batch := by
    have read := code.list.reads batch []
    rw [List.append_nil] at read
    rw [read,Option.map_some]

end WireEvent

def nextEventSeq (seq : Nat) : Nat := min (seq + 1) (2 ^ 64 - 1)

def wireFor (bootId : String) (record : BusEvent) (seq : Nat) (active : Option String) :
    Option WireEvent :=
  if record.shouldForward then
    some ⟨bootId,seq,record.sessionIdForWire active,record.recordingIdOf,record⟩
  else none

def wireForSynthetic (bootId : String) (event : BusEvent) (seq : Nat) : WireEvent :=
  ⟨bootId,seq,event.sessionIdOf,event.recordingIdOf,event⟩

def syntheticWires (bootId : String) : Nat → List BusEvent → Nat × List WireEvent
  | seq, [] => (seq,[])
  | seq, event :: rest =>
    let (last,wires) := syntheticWires bootId (nextEventSeq seq) rest
    (last,wireForSynthetic bootId event seq :: wires)

def pushWithCap {α : Type*} (cap : Nat) (batch : List α) (item : α) : List α × List α :=
  if cap ≤ batch.length then (batch.drop 1 ++ [item],batch.take 1) else (batch ++ [item],[])

def pushAll {α : Type*} (cap : Nat) : List α → List α → List α × List α
  | batch, [] => (batch,[])
  | batch, item :: rest =>
    let (batch,gone) := pushWithCap cap batch item
    let (batch,more) := pushAll cap batch rest
    (batch,gone ++ more)

def operatorEventBatchMax : Nat := 500

/- `configured.clamp(1, OPERATOR_EVENT_BATCH_MAX)`. -/
def effectiveEventBatchMax (configured : Nat) : Nat := max 1 (min configured operatorEventBatchMax)

/- Where the task is. `final` marks the flush of the shutdown, and `ended` says whether the last
spill left nothing behind. -/
inductive Place where
  | idle
  | reading
  | pushing (path : Name) (events : List WireEvent)
  | removing
  | splitting
  | flushing (final : Bool)
  | flushSpilling (final : Bool)
  | afterSpilling
  | draining
  | finalSpilling
  | ended (ok : Bool)
  deriving DecidableEq, Repr

/- The answers to `push_events_json` other than `Unsupported`. -/
inductive PushAnswer where
  | acknowledged
  | installationInactive
  | failed
  deriving DecidableEq, Repr

/- `replay` and `spills` are the jobs on other threads, the latest spill first; a job of which the
task waits no longer stays. `pushed`, `acked`, `dropped` and `capped` are histories. -/
structure Forwarder where
  files : SpoolFiles
  tracker : SessionTracker
  nextSeq : Nat
  batch : List WireEvent
  place : Place
  replay : Option (ReplayJob WireEvent)
  spills : List (SpillJob WireEvent)
  pushed : List WireEvent
  acked : List WireEvent
  dropped : List WireEvent
  capped : List WireEvent

inductive ForwarderLabel where
  | tick
  | record (event : BusEvent)
  | lagged
  | closed
  | shutdown
  | drained
  | timeout
  | answer (answer : PushAnswer)
  | resume
  | replayIo (result : FsResult) (now : Nat)
  | spillIo (job : Nat) (result : FsResult) (now : Nat)
  deriving DecidableEq, Repr

namespace Forwarder

section Ingest
variable (ids : ProcessIds)

def wiresOf (tracker : SessionTracker) (nextSeq : Nat) (record : BusEvent) :
    SessionTracker × Nat × List WireEvent :=
  let (tracker,announced) := tracker.observe ids.uuid record.told
  let own := wireFor ids.bootId record nextSeq tracker.currentSessionId
  let seq := if own.isSome then nextEventSeq nextSeq else nextSeq
  let (seq,wires) := syntheticWires ids.bootId seq (announced.filterMap BusEvent.synthetic)
  (tracker,seq,own.toList ++ wires)

def ingestRecord (bufferMax : Nat) (s : Forwarder) (record : BusEvent) : Forwarder :=
  let (tracker,nextSeq,wires) := wiresOf ids s.tracker s.nextSeq record
  let (batch,gone) := pushAll bufferMax s.batch wires
  { s with
    tracker
    nextSeq
    batch
    pushed := s.pushed ++ wires
    dropped := s.dropped ++ gone }

end Ingest

def start (files : SpoolFiles) : Forwarder := ⟨files,.new,0,[],.idle,none,[],[],[],[],[]⟩

section Task
variable (config : OperatorForwardConfig)

def requestMax : Nat := effectiveEventBatchMax config.batchMax

def spawnSpill (s : Forwarder) (waits : Place) : Forwarder :=
  { s with
    place := waits
    spills := .waiting (chunks (requestMax config) s.batch) :: s.spills }

def spillRemaining (s : Forwarder) (done waits : Place) : Forwarder :=
  if s.batch.isEmpty then { s with place := done } else spawnSpill config s waits

def afterReplay (s : Forwarder) : Forwarder :=
  if s.batch.isEmpty then { s with place := .idle,replay := none }
  else { s with place := .flushing false,replay := none }

/- What follows a flush: in the loop `after_flush`, at the end `spill_remaining`. -/
def afterFlush (ok final : Bool) (s : Forwarder) : Forwarder :=
  match ok, final with
  | true, true => { s with place := .ended true }
  | true, false => { s with place := .idle }
  | false, true => spillRemaining config s (.ended true) .finalSpilling
  | false, false =>
    if s.batch.length < config.bufferMax / 2 then { s with place := .idle }
    else spillRemaining config s .idle .afterSpilling

def lockFree (s : Forwarder) : Bool :=
  s.spills.all (fun job => !job.holds) && !s.replay.any ReplayJob.holds

def overCap (codec : BatchCodec WireEvent) (files after : SpoolFiles) :
    SpillJob WireEvent → List WireEvent
  | .capping (.remove name :: _) _ =>
    if (after.lookup name).isNone then eventsAt codec files name else []
  | _ => []

def afterSpill (s : Forwarder) (ok : Bool) : Forwarder :=
  let s := { s with spills := s.spills.tail,batch := if ok then [] else s.batch }
  match s.place with
  | .flushSpilling final => afterFlush config false final s
  | .afterSpilling => { s with place := .idle }
  | _ => { s with place := .ended ok }

def step (ids : ProcessIds) (codec : BatchCodec WireEvent) (s : Forwarder) :
    ForwarderLabel → Option Forwarder
  | .tick =>
    match s.place with
    | .idle => some { s with place := .reading,replay := some .scanning }
    | _ => none
  | .record event =>
    match s.place with
    | .idle =>
      let s := ingestRecord ids config.bufferMax s event
      if requestMax config ≤ s.batch.length then some { s with place := .flushing false } else some s
    | .draining => some (ingestRecord ids config.bufferMax s event)
    | _ => none
  | .lagged => if s.place = .idle ∨ s.place = .draining then some s else none
  | .closed => if s.place = .idle then some { s with place := .draining } else none
  | .shutdown =>
    match s.place with
    | .idle | .reading | .pushing _ _ | .removing | .splitting | .flushing false
    | .flushSpilling false => some { s with place := .draining }
    | _ => none
  | .drained =>
    if s.place = .draining then
      some { s with place := if s.batch.isEmpty then .ended true else .flushing true }
    else none
  | .timeout =>
    match s.place with
    | .flushing true | .flushSpilling true => some (afterFlush config false true s)
    | _ => none
  | .answer answer =>
    match s.place, answer with
    | .pushing path events, .acknowledged => some { s with
        place := .removing
        replay := some (.removing path)
        acked := s.acked ++ events }
    | .pushing _ _, _ => some (afterReplay s)
    | .flushing final, .acknowledged =>
      let s := { s with
        acked := s.acked ++ s.batch.take (requestMax config)
        batch := s.batch.drop (requestMax config) }
      if s.batch.isEmpty then some (afterFlush config true final s) else some s
    | .flushing final, .installationInactive =>
      if s.batch.isEmpty then some (afterFlush config false final s)
      else some (spawnSpill config s (.flushSpilling final))
    | .flushing final, .failed => some (afterFlush config false final s)
    | _, _ => none
  | .resume =>
    match s.place, s.replay, s.spills with
    | .reading, some (.readDone none), _ => some (afterReplay s)
    | .reading, some (.readDone (some (path,events))), _ =>
      if requestMax config < events.length then some { s with
        place := .splitting
        replay := some (.waiting path events (requestMax config)) }
      else some { s with place := .pushing path events,replay := none }
    | .removing, some .finished, _ | .splitting, some .finished, _ => some (afterReplay s)
    | .flushSpilling _, _, .finished ok :: _ | .afterSpilling, _, .finished ok :: _
    | .finalSpilling, _, .finished ok :: _ => some (afterSpill config s ok)
    | _, _, _ => none
  | .replayIo result now => do
    let job ← s.replay
    let (files,job) ← replayStep codec (lockFree s) now s.files result job
    some { s with files,replay := some job }
  | .spillIo number result now => do
    let job ← s.spills[number]?
    let (files,next) ← spillStep codec defaultMaxFiles (lockFree s) now s.files result job
    some { s with
      files
      spills := s.spills.set number next
      capped := s.capped ++ overCap codec s.files files job }

end Task

section Bounds
variable {ids : ProcessIds} {config : OperatorForwardConfig} {codec : BatchCodec WireEvent}

def PushesFit {α : Type*} (cap : Nat) : List α → List α → Prop
  | _, [] => True
  | batch, item :: rest => batch.length < cap ∧ PushesFit cap (pushWithCap cap batch item).1 rest

theorem pushesFitIff {α : Type*} (cap : Nat) (batch items : List α) :
    PushesFit cap batch items ↔ items = [] ∨ batch.length + items.length ≤ cap := by
  induction items generalizing batch with
  | nil => exact ⟨fun _ => .inl rfl,fun _ => trivial⟩
  | cons item rest ih =>
    constructor
    · rintro ⟨room,later⟩
      rw [pushWithCap,if_neg (Nat.not_le.mpr room)] at later
      have bound := (ih _).mp later
      rw [List.length_append] at bound
      refine .inr ?_
      rcases bound with rfl | bound
      · exact room
      · simp only [List.length_cons,List.length_nil] at bound ⊢
        omega
    · rintro (none_ | bound)
      · cases none_
      · rw [List.length_cons] at bound
        have room : batch.length < cap := by omega
        refine ⟨room,?_⟩
        rw [pushWithCap,if_neg (Nat.not_le.mpr room),ih,List.length_append]
        refine .inr ?_
        simp only [List.length_cons,List.length_nil]
        omega

theorem pushAllFits {α : Type*} {cap : Nat} {batch items : List α} (fits : PushesFit cap batch items) :
    pushAll cap batch items = (batch ++ items,[]) := by
  induction items generalizing batch with
  | nil => rw [pushAll,List.append_nil]
  | cons item rest ih =>
    obtain ⟨room,later⟩ := fits
    have one : pushWithCap cap batch item = (batch ++ [item],[]) := if_neg (Nat.not_le.mpr room)
    rw [one] at later
    simp only [pushAll,one,ih later,List.append_assoc,List.singleton_append,List.append_nil]

theorem observeOne (uuid : Nat → String) (t : SessionTracker) (event : TelemetryEvent) :
    (t.observe uuid event).2.length ≤ 1 := by
  cases event with
  | stateTransition source target =>
    rw [observeTags]
    simp only [List.length_append]
    have opens : idleTag source = false → (openSession uuid t source target).2 = [] := by
      intro busy
      simp [openSession,busy]
    have closes (t : SessionTracker) : idleTag source = true → (closeSession t source target).2 = [] := by
      intro idle_
      simp [closeSession,idle_]
    have openBound : (openSession uuid t source target).2.length ≤ 1 := by
      unfold openSession
      split <;> simp
    have closeBound (t : SessionTracker) : (closeSession t source target).2.length ≤ 1 := by
      unfold closeSession
      split
      · split <;> simp
      · simp
    cases idle_ : idleTag source with
    | true =>
      rw [closes _ idle_]
      exact openBound
    | false =>
      rw [opens idle_,List.length_nil,Nat.zero_add]
      exact closeBound _
  | _ => exact Nat.zero_le _

theorem syntheticWiresLength (bootId : String) (seq : Nat) (events : List BusEvent) :
    (syntheticWires bootId seq events).2.length = events.length := by
  induction events generalizing seq with
  | nil => rfl
  | cons event rest ih => exact congrArg (· + 1) (ih _)

theorem wiresTwo (tracker : SessionTracker) (nextSeq : Nat) (record : BusEvent) :
    (wiresOf ids tracker nextSeq record).2.2.length ≤ 2 := by
  have one := observeOne ids.uuid tracker record.told
  have fewer := List.length_filterMap_le BusEvent.synthetic (tracker.observe ids.uuid record.told).2
  have own (wire : Option WireEvent) : wire.toList.length ≤ 1 := by cases wire <;> simp
  simp only [wiresOf,List.length_append,syntheticWiresLength]
  have first := own (wireFor ids.bootId record nextSeq
    (tracker.observe ids.uuid record.told).1.currentSessionId)
  omega

def SpillsSucceed (_ : Forwarder) (_ : ForwarderLabel) (after : Forwarder) : Prop :=
  ∀ job ∈ after.spills, job ≠ .finished false

def RecordFits (ids : ProcessIds) (config : OperatorForwardConfig) (before : Forwarder)
    (label : ForwarderLabel) (_ : Forwarder) : Prop :=
  match label with
  | .record event => before.place = .idle →
      PushesFit config.bufferMax before.batch (wiresOf ids before.tracker before.nextSeq event).2.2
  | _ => True

structure Calm (config : OperatorForwardConfig) (s : Forwarder) : Prop where
  small : s.place = .idle → s.batch.length < requestMax config ∨ s.batch.length < config.bufferMax / 2
  spilled : ∀ job ∈ s.spills, job ≠ .finished false

theorem requestPositive (config : OperatorForwardConfig) : 0 < requestMax config :=
  Nat.lt_of_lt_of_le Nat.one_pos (Nat.le_max_left _ _)

theorem smallEmpty {s : Forwarder} (empty_ : s.batch.isEmpty = true) :
    s.batch.length < requestMax config ∨ s.batch.length < config.bufferMax / 2 := by
  rw [List.isEmpty_iff.mp empty_]
  exact .inl (requestPositive config)

theorem afterReplayCalm (s : Forwarder) : (afterReplay s).place = .idle →
    (afterReplay s).batch.length < requestMax config ∨
      (afterReplay s).batch.length < config.bufferMax / 2 := by
  unfold afterReplay
  split
  · rename_i empty_
    exact fun _ => smallEmpty empty_
  · exact nofun

theorem afterFlushCalm {ok final : Bool} {s : Forwarder} (flushed : ok = true → s.batch.isEmpty = true) :
    (afterFlush config ok final s).place = .idle →
      (afterFlush config ok final s).batch.length < requestMax config ∨
        (afterFlush config ok final s).batch.length < config.bufferMax / 2 := by
  unfold afterFlush spillRemaining spawnSpill
  split
  · exact nofun
  · exact fun _ => smallEmpty (flushed rfl)
  · split <;> exact nofun
  · split
    · rename_i short
      exact fun _ => .inr short
    · split
      · rename_i empty_
        exact fun _ => smallEmpty empty_
      · exact nofun

theorem afterSpillCalm (s : Forwarder) : (afterSpill config s true).place = .idle →
    (afterSpill config s true).batch.length < requestMax config ∨
      (afterSpill config s true).batch.length < config.bufferMax / 2 := by
  unfold afterSpill
  dsimp only
  split
  · exact afterFlushCalm nofun
  · exact fun _ => smallEmpty rfl
  · exact nofun

theorem calmAnswer {s t : Forwarder} {answer : PushAnswer}
    (enabled : step config ids codec s (.answer answer) = some t) : t.place = .idle →
      t.batch.length < requestMax config ∨ t.batch.length < config.bufferMax / 2 := by
  simp only [step] at enabled
  split at enabled
  · cases enabled
    exact nofun
  · cases enabled
    exact afterReplayCalm s
  · rename_i flushing
    split at enabled
    · rename_i empty_
      cases enabled
      exact afterFlushCalm fun _ => empty_
    · cases enabled
      intro idle_
      exact absurd (flushing.symm.trans idle_) nofun
  · split at enabled <;> cases enabled
    · exact afterFlushCalm nofun
    · exact nofun
  · cases enabled
    exact afterFlushCalm nofun
  · cases enabled

theorem calmResume {s t : Forwarder} (enabled : step config ids codec s .resume = some t)
    (calm : Calm config s) : t.place = .idle →
      t.batch.length < requestMax config ∨ t.batch.length < config.bufferMax / 2 := by
  have succeeded {ok : Bool} {rest : List (SpillJob WireEvent)} (head : s.spills = .finished ok :: rest) :
      ok = true := by
    cases ok with
    | true => rfl
    | false => exact absurd rfl (calm.spilled _ (head ▸ List.mem_cons_self))
  simp only [step] at enabled
  split at enabled
  · cases enabled
    exact afterReplayCalm s
  · split at enabled <;> cases enabled <;> exact nofun
  · cases enabled
    exact afterReplayCalm s
  · cases enabled
    exact afterReplayCalm s
  · rename_i head
    obtain rfl := succeeded head
    cases enabled
    exact afterSpillCalm s
  · rename_i head
    obtain rfl := succeeded head
    cases enabled
    exact afterSpillCalm s
  · rename_i head
    obtain rfl := succeeded head
    cases enabled
    exact afterSpillCalm s
  · cases enabled

theorem calmStep (s : Forwarder) (label : ForwarderLabel) (t : Forwarder)
    (enabled : step config ids codec s label = some t) (calm : Calm config s)
    (succeed : SpillsSucceed s label t) : Calm config t := by
  refine ⟨?_,succeed⟩
  cases label with
  | tick =>
    simp only [step] at enabled
    split at enabled <;> cases enabled
    exact nofun
  | record event =>
    simp only [step] at enabled
    split at enabled
    · split at enabled
      · cases enabled
        exact nofun
      · rename_i short
        cases enabled
        exact fun _ => .inl (Nat.not_le.mp short)
    · rename_i draining
      cases enabled
      intro idle_
      exact absurd (draining.symm.trans idle_) nofun
    · cases enabled
  | lagged =>
    simp only [step] at enabled
    split at enabled <;> cases enabled
    exact calm.small
  | closed =>
    simp only [step] at enabled
    split at enabled <;> cases enabled
    exact nofun
  | shutdown =>
    simp only [step] at enabled
    split at enabled <;> cases enabled <;> exact nofun
  | drained =>
    simp only [step] at enabled
    split at enabled <;> cases enabled
    intro idle_
    dsimp only at idle_
    split at idle_ <;> cases idle_
  | timeout =>
    simp only [step] at enabled
    split at enabled <;> cases enabled <;> exact afterFlushCalm nofun
  | answer answer => exact calmAnswer enabled
  | resume => exact calmResume enabled calm
  | replayIo result now =>
    obtain ⟨job,_,enabled⟩ := Option.bind_eq_some_iff.mp enabled
    obtain ⟨next,_,enabled⟩ := Option.bind_eq_some_iff.mp enabled
    cases enabled
    exact calm.small
  | spillIo number result now =>
    obtain ⟨job,_,enabled⟩ := Option.bind_eq_some_iff.mp enabled
    obtain ⟨next,_,enabled⟩ := Option.bind_eq_some_iff.mp enabled
    cases enabled
    exact calm.small

/- One more than the larger of the two bounds leaves room for two events. -/
theorem calmFits (room : requestMax config < config.bufferMax) {s : Forwarder} (calm : Calm config s)
    (label : ForwarderLabel) (t : Forwarder) : RecordFits ids config s label t := by
  cases label with
  | record event =>
    intro idle_
    have small := calm.small idle_
    have two := @wiresTwo ids s.tracker s.nextSeq event
    have positive := requestPositive config
    refine (pushesFitIff ..).mpr (.inr ?_)
    omega
  | _ => trivial

/- A batch one event short of a request that is as large as the buffer: a record of two events
finds the buffer full between them. -/
theorem equalLimitsOverflow (equal : requestMax config = config.bufferMax) (n : Nat) {s : Forwarder}
    (idle_ : s.place = .idle) (fresh : s.tracker = .new) (none_ : s.spills = [])
    (filled : s.batch.length + n + 1 = config.bufferMax) :
    let labels := List.replicate n (.record .log) ++ [.record (.stateTransition "idle" "dial_tone")]
    Transition.Along (step config ids codec) SpillsSucceed s labels ∧
      ¬Transition.Along (step config ids codec) (RecordFits ids config) s labels := by
  induction n generalizing s with
  | zero =>
    have two : (wiresOf ids .new s.nextSeq (.stateTransition "idle" "dial_tone")).2.2.length = 2 := rfl
    have full : ¬PushesFit config.bufferMax s.batch
        (wiresOf ids s.tracker s.nextSeq (.stateTransition "idle" "dial_tone")).2.2 := by
      rw [fresh,pushesFitIff]
      intro fits
      rcases fits with nothing | fits
      · rw [nothing] at two
        cases two
      · omega
    obtain ⟨t,enabled,same⟩ : ∃ t, step config ids codec s
        (.record (.stateTransition "idle" "dial_tone")) = some t ∧ t.spills = s.spills := by
      simp only [step,idle_]
      split <;> exact ⟨_,rfl,rfl⟩
    simp only [List.replicate_zero,List.nil_append,Transition.Along,enabled]
    refine ⟨⟨fun job mem => ?_,trivial⟩,fun fits => full (fits.1 idle_)⟩
    rw [same,none_] at mem
    cases mem
  | succ n ih =>
    have wires : wiresOf ids s.tracker s.nextSeq .log =
        (s.tracker,nextEventSeq s.nextSeq,[⟨ids.bootId,s.nextSeq,none,none,.log⟩]) := rfl
    have fits : PushesFit config.bufferMax s.batch [⟨ids.bootId,s.nextSeq,none,none,.log⟩] :=
      ⟨by omega,trivial⟩
    let t := ingestRecord ids config.bufferMax s .log
    have batch : t.batch = s.batch ++ [⟨ids.bootId,s.nextSeq,none,none,.log⟩] := by
      simp only [t,ingestRecord,wires,pushAllFits fits]
    have length : t.batch.length = s.batch.length + 1 := by rw [batch,List.length_append]; rfl
    have enabled : step config ids codec s (.record .log) = some t := by
      simp only [step,idle_]
      exact if_neg (by rw [length]; omega)
    have later := ih (s := t) idle_ fresh none_ (by omega)
    simp only [List.replicate_succ,List.cons_append,Transition.Along,enabled]
    refine ⟨⟨fun job mem => ?_,later.1⟩,fun fits => later.2 fits.2⟩
    rw [show t.spills = s.spills from rfl,none_] at mem
    cases mem

/-- In every run in which the spills succeed no push meets a full batch, exactly when a request is
smaller than the buffer. -/
theorem bufferNeverFull (ids : ProcessIds) (codec : BatchCodec WireEvent) {built : Features}
    {config : RuntimeConfig} (valid : validateConfig built config = .ok ()) :
    let forward := config.observability.operatorForward
    (∀ files labels,
      Transition.Along (step forward ids codec) SpillsSucceed (start files) labels →
      Transition.Along (step forward ids codec) (RecordFits ids forward) (start files) labels) ↔
    min forward.batchMax operatorEventBatchMax < forward.bufferMax := by
  intro forward
  have checked (check : Check) (mem : check ∈ RuntimeConfig.observabilityChecks config.observability) :
      check.fails = false :=
    validatePasses valid check (by simp only [RuntimeConfig.checks,List.mem_append]; tauto)
  have some_ : forward.batchMax ≠ 0 :=
    of_decide_eq_false (checked _ (List.mem_cons_of_mem _ List.mem_cons_self))
  have room : ¬forward.bufferMax < forward.batchMax :=
    of_decide_eq_false (checked _ (List.mem_cons_of_mem _ (List.mem_cons_of_mem _
      (List.mem_cons_of_mem _ List.mem_cons_self))))
  have request : requestMax forward = min forward.batchMax operatorEventBatchMax :=
    Nat.max_eq_right (by unfold operatorEventBatchMax; omega)
  rw [← request]
  constructor
  · intro always
    by_contra full
    have equal : requestMax forward = forward.bufferMax := by omega
    have positive := requestPositive forward
    obtain ⟨run,overflow⟩ := @equalLimitsOverflow ids forward codec equal (forward.bufferMax - 1)
      (start ∅) rfl rfl rfl (show 0 + _ + 1 = _ by omega)
    exact overflow (always ∅ _ run)
  · intro room files labels run
    have initial : Calm forward (start files) := ⟨fun _ => .inl (requestPositive forward),nofun⟩
    exact Transition.along _ (Calm forward) (fun s label t enabled calm succeed =>
      ⟨calmStep s label t enabled calm succeed,calmFits room calm label t⟩) initial run

def someIds : ProcessIds := ⟨"boot",fun drawn => s!"session {drawn}"⟩

theorem defaultNeverFull :
    (∀ files labels,
      Transition.Along (step {} someIds WireEvent.marked) SpillsSucceed (start files) labels →
      Transition.Along (step {} someIds WireEvent.marked) (RecordFits someIds {}) (start files)
        labels) ↔
    min 200 operatorEventBatchMax < 4096 :=
  bufferNeverFull someIds WireEvent.marked (defaultValid ⟨true,true,true,true⟩)

def oneEvent : OperatorForwardConfig := { batchMax := 1, bufferMax := 1 }

theorem secondEventDrops :
    validateConfig ⟨true,true,true,true⟩ { observability := { operatorForward := oneEvent } } = .ok () ∧
    Transition.Along (step oneEvent someIds WireEvent.marked) SpillsSucceed (start ∅)
      [.record (.stateTransition "idle" "dial_tone")] ∧
    ¬Transition.Along (step oneEvent someIds WireEvent.marked) (RecordFits someIds oneEvent) (start ∅)
      [.record (.stateTransition "idle" "dial_tone")] :=
  ⟨rfl,@equalLimitsOverflow someIds oneEvent WireEvent.marked rfl 0 (start ∅) rfl rfl rfl rfl⟩

end Bounds

end Forwarder

end TelephoneBooth
