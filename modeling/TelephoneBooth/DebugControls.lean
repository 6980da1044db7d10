import TelephoneBooth.Channel
import TelephoneBooth.Telemetry
import TelephoneBooth.TelemetryBus

/-! The debug surface in front of `run_runtime`. A handler sends its commands into a bounded channel
and may be dropped at any await; the runtime takes one command at a time, with other events between
them. A state query that gets no answer reads the telemetry ring instead. -/
namespace TelephoneBooth.DebugControls
open State Event

inductive RuntimeMode where
  | real | mock | simulator
  deriving DecidableEq, Repr

def RuntimeMode.asStr : RuntimeMode → String
  | real => "real"
  | mock => "mock"
  | simulator => "simulator"

structure Controls where
  allowControls : Bool
  runtimeMode : RuntimeMode

structure ControlsDenied where
  reason : String
  detail : String
  runtimeMode : String
  deriving DecidableEq, Repr

/- The two gates of `/v1/simulate/…`, in the source's order. -/
def ensureControls (config : Controls) : Option ControlsDenied :=
  if !config.allowControls then
    some ⟨"controls_disabled",
      "Set [debug] allow_controls = true to enable /v1/simulate/* endpoints.",
      config.runtimeMode.asStr⟩
  else if config.runtimeMode = .real then
    some ⟨"headless_real_hardware",
      "Controls are blocked while the booth is in real-hardware mode " ++
        "so synthetic events cannot race with live GPIO and audio.",
      config.runtimeMode.asStr⟩
  else none

/- The time of the snapshot and the two fields that are always empty are left out. -/
structure StatusSnapshot where
  state : String
  lastError : Option String
  deriving DecidableEq, Repr

def statusFromHal (status : BoothStatus) : StatusSnapshot :=
  let name := match status with
    | .idle => "idle"
    | .dialTone => "dialTone"
    | .playingQuestion => "playingQuestion"
    | .recording => "recording"
    | .uploading => "uploading"
    | .playingMessage => "playingMessage"
    | .playingInstructions => "playingInstructions"
    | .callUnavailable => "callUnavailable"
  ⟨name,none⟩

def statusFromCore (state : State) : StatusSnapshot := statusFromHal state.status

def operatorStateName (name : String) : String :=
  match name with
  | "idle" | "Idle" => "idle"
  | "dial_tone" | "DialTone" => "dialTone"
  | "dialing" | "Dialing" => "dialing"
  | "ringing_question" | "RingingQuestion" | "playing_question" | "PlayingQuestion" =>
    "playingQuestion"
  | "beep" | "Beep" => "beep"
  | "recording" | "Recording" => "recording"
  | "finishing_timeout_recording" | "uploading" | "uploading_timeout" | "recording_end_beep"
  | "Uploading" => "uploading"
  | "playing_message" | "PlayingMessage" => "playingMessage"
  | "playing_instructions" | "PlayingInstructions" => "playingInstructions"
  | "call_unavailable" | "CallUnavailable" => "callUnavailable"
  | "error" | "Error" => "error"
  | other => other

inductive Published where
  | stateTransition (target : String)
  | error (source message : String)
  | unread
  deriving DecidableEq, Repr

def Published.isTransition : Published → Bool
  | stateTransition _ => true
  | _ => false

def Published.read : TelemetryEvent → Published
  | .stateTransition _ target => .stateTransition target
  | _ => .unread

def snapshotOf : Published → Option StatusSnapshot
  | .stateTransition target => some ⟨operatorStateName target,none⟩
  | .error _ message => some ⟨"error",some message⟩
  | .unread => none

def statusFromTelemetry (ring : RingBuffer Published) : Option StatusSnapshot :=
  (ring.snapshotSince none).reverse.findSome? fun record => snapshotOf record.event

def fallback (ring : RingBuffer Published) : StatusSnapshot :=
  (statusFromTelemetry ring).getD (statusFromHal .idle)

/- A `snapshot` carries the sending half of a oneshot, whose other half its request holds. -/
inductive Command where
  | injectEvent (event : Event)
  | snapshot
  | shutdown
  deriving DecidableEq

/- The owner of an injection is a ghost; that of a snapshot stands for the oneshot. -/
structure Queued where
  owner : Nat
  command : Command
  deriving DecidableEq

inductive Asked where
  | simulateEvent (event : Event)
  | simulatePulse (count : UInt8)
  | state
  | quit
  deriving DecidableEq

def Asked.events : Asked → List Event
  | simulateEvent event => [event]
  | simulatePulse count => List.replicate count.toNat .rotaryPulse ++ [.tick]
  | state | quit => []

def Asked.commands : Asked → List Command
  | state => [.snapshot]
  | quit => [.shutdown]
  | simulateEvent event => [.injectEvent event]
  | simulatePulse count => (simulatePulse count).events.map .injectEvent

inductive Answer where
  | accepted (injected : Nat)
  | denied (why : ControlsDenied)
  | unavailable
  | status (snapshot : StatusSnapshot)
  | quitting
  deriving DecidableEq

def Asked.sentAll (asked : Asked) (injected : Nat) : Answer :=
  if asked = quit then .quitting else .accepted injected

def Asked.refused (asked : Asked) : Answer := if asked = quit then .quitting else .unavailable

inductive Stage where
  | sending (rest : List Command) (injected : Nat) (permit : Bool)
  | awaiting
  | answered (answer : Answer)
  | dropped
  deriving DecidableEq

def Stage.permitted : Stage → Bool
  | sending _ _ permit => permit
  | _ => false

def Stage.over : Stage → Bool
  | answered _ | dropped => true
  | _ => false

/- Where a handler is once a command is sent; the count is a saturating u16. -/
def nextStage (asked : Asked) (rest : List Command) (injected : Nat) : Stage :=
  let injected := min (injected + 1) 65535
  if rest = [] then .answered (asked.sentAll injected) else .sending rest injected false

structure Request where
  asked : Asked
  stage : Stage
  deriving DecidableEq

inductive Phase where
  | running | leaving | closed
  deriving DecidableEq, Repr

def commandChannel : Nat := 64

/- `handled` is a ghost: what the core was given, an injection with the request it came from. -/
structure Surface where
  phase : Phase
  core : State
  accepting : Bool
  ring : RingBuffer Published
  commands : Channel Queued
  requests : List Request
  handled : List (Option Nat × Input)

/- The id and the time of the records of one step are whatever the counter and the clock give. -/
inductive Label where
  | ask (asked : Asked)
  | grant (number : Nat)
  | send (number : Nat)
  | refuse (number : Nat)
  | time (number : Nat)
  | hangUp (number : Nat)
  | drop (number : Nat)
  | serve (stamp : Nat → Nat × Nat)
  | handle (event : Event) (stamp : Nat → Nat × Nat)
  | gate (accepting : Bool)
  | publish (record : TelemetryRecord Published)
  | leave
  | close

namespace Surface

def boot (accepting onHook : Bool) (capacity : Nat) : Surface :=
  ⟨.running,if accepting then .idle else .callsPaused onHook,accepting,⟨capacity,[]⟩,.empty,[],[]⟩

def waiting (s : Surface) : Nat := s.commands.log.length - s.commands.taken

def permits (s : Surface) : Nat := s.requests.countP fun request => request.stage.permitted

def full (s : Surface) : Prop := commandChannel ≤ s.waiting + s.permits

instance (s : Surface) : Decidable s.full := inferInstanceAs (Decidable (_ ≤ _))

def tell (s : Surface) (number : Nat) (request : Request) : Surface :=
  { s with requests := s.requests.set number request }

def note (s : Surface) (stamp : Nat → Nat × Nat) (events : List Published) : Surface :=
  { s with
    ring := events.zipIdx.foldl
      (fun ring entry => ring.push ⟨(stamp entry.2).1,(stamp entry.2).2,entry.1⟩) s.ring }

def handleEvent (s : Surface) (stamp : Nat → Nat × Nat) (origin : Option Nat) (event : Event) :
    Surface :=
  let input : Input := (event,s.accepting)
  { s.note stamp ((published s.core input).map .read) with
    core := (coreStep s.core input).1
    handled := s.handled ++ [(origin,input)] }

def ask (config : Controls) (s : Surface) (asked : Asked) : Surface :=
  let begin_ (stage : Stage) : Surface := { s with requests := s.requests ++ [⟨asked,stage⟩] }
  match asked with
  | .state =>
    if s.phase = .closed ∨ s.full then begin_ (.answered (.status (fallback s.ring)))
    else { begin_ .awaiting with commands := s.commands.send [⟨s.requests.length,.snapshot⟩] }
  | .quit => begin_ (.sending asked.commands 0 false)
  | .simulateEvent _ | .simulatePulse _ =>
    match ensureControls config with
    | some why => begin_ (.answered (.denied why))
    | none => begin_ (.sending asked.commands 0 false)

def obey (config : Controls) (s : Surface) (stamp : Nat → Nat × Nat) (queued : Queued) : Surface :=
  match queued.command with
  | .injectEvent event =>
    if config.allowControls then s.handleEvent stamp (some queued.owner) event
    else s.note stamp [.error "booth_bin::debug" "debug controls are disabled"]
  | .snapshot =>
    if s.requests[queued.owner]? = some ⟨.state,.awaiting⟩ then
      s.tell queued.owner ⟨.state,.answered (.status (statusFromCore s.core))⟩
    else s
  | .shutdown => { s with phase := .leaving }

def step (config : Controls) (s : Surface) : Label → Option Surface
  | .ask asked => some (s.ask config asked)
  | .grant number =>
    match s.requests[number]? with
    | some ⟨asked,.sending rest injected false⟩ =>
      if s.phase = .closed ∨ s.full then none
      else some (s.tell number ⟨asked,.sending rest injected true⟩)
    | _ => none
  | .send number =>
    match s.requests[number]? with
    | some ⟨asked,.sending (command :: rest) injected true⟩ =>
      some { s.tell number ⟨asked,nextStage asked rest injected⟩ with
        commands := s.commands.send [⟨number,command⟩] }
    | _ => none
  | .refuse number =>
    match s.requests[number]? with
    | some ⟨asked,.sending _ _ false⟩ =>
      if s.phase = .closed then some (s.tell number ⟨asked,.answered asked.refused⟩) else none
    | _ => none
  | .time number =>
    if s.requests[number]? = some ⟨.state,.awaiting⟩ then
      some (s.tell number ⟨.state,.answered (.status (fallback s.ring))⟩)
    else none
  | .hangUp number =>
    if s.phase = .closed ∧ s.requests[number]? = some ⟨.state,.awaiting⟩ then
      some (s.tell number ⟨.state,.answered (.status (fallback s.ring))⟩)
    else none
  | .drop number =>
    (s.requests[number]?).bind fun request =>
      if request.stage.over then none else some (s.tell number ⟨request.asked,.dropped⟩)
  | .serve stamp =>
    if s.phase = .running then
      s.commands.receive.map fun received =>
        { s with commands := received.2 }.obey config stamp received.1.2
    else none
  | .handle event stamp =>
    if s.phase = .running then some (s.handleEvent stamp none event) else none
  | .gate accepting => some { s with accepting }
  | .publish record =>
    -- only `handle_event` publishes transitions
    if record.event.isTransition then none else some { s with ring := s.ring.push record }
  | .leave => if s.phase = .running then some { s with phase := .leaving } else none
  | .close => if s.phase = .leaving then some { s with phase := .closed } else none

end Surface

section Ring
variable {tag after : String} {ring : RingBuffer Published} {record : TelemetryRecord Published}

structure Shows (tag : String) (ring : RingBuffer Published) : Prop where
  last : ∀ before record later, ring.records = before ++ record :: later →
    (∀ other ∈ later, snapshotOf other.event = none) →
      ∀ target, record.event = .stateTransition target → target = tag
  unused : ring.capacity = 0 → ring.records = []

theorem pushShows (shows_ : Shows tag ring)
    (fits : snapshotOf record.event = none ∧ after = tag ∨ snapshotOf record.event ≠ none ∧
      ∀ target, record.event = .stateTransition target → target = after) :
    Shows after (ring.push record) := by
  by_cases some_ : ring.capacity = 0
  · rw [RingBuffer.push,if_pos some_]
    exact ⟨fun before _ _ split => (by simp [shows_.unused some_] at split),shows_.unused⟩
  rw [RingBuffer.push,if_neg some_]
  refine ⟨fun before found later split silent target is => ?_,fun none_ => absurd none_ some_⟩
  obtain ⟨dropped,kept⟩ := RingBuffer.evictSuffix ring.capacity ring.records
  rcases List.eq_nil_or_concat' later with rfl | ⟨front,newest,rfl⟩
  · obtain ⟨_,same⟩ := List.append_inj' split rfl
    obtain rfl := (List.cons.inj same).1
    rcases fits with ⟨untold,_⟩ | ⟨_,own⟩
    · rw [is] at untold
      cases untold
    · exact own target is
  · have parts : RingBuffer.evict ring.capacity ring.records ++ [record] =
        (before ++ found :: front) ++ [newest] := by
      rw [List.append_assoc]
      exact split
    obtain ⟨old,same⟩ := List.append_inj' parts rfl
    obtain rfl := (List.cons.inj same).1
    have untold := silent record (by simp)
    rcases fits with ⟨_,rfl⟩ | ⟨told,_⟩
    · refine shows_.last (dropped ++ before) found front ?_
        (fun other mem => silent other (by simp [mem])) target is
      rw [← kept,old,List.append_assoc]
    · exact absurd untold told

theorem noteShows {s : Surface} {stamp : Nat → Nat × Nat} {events : List Published}
    (shows_ : Shows tag s.ring)
    (own : ∀ event ∈ events, ∀ target, event = .stateTransition target → target = after)
    (leads : after = tag ∨ ∃ event ∈ events, snapshotOf event ≠ none) :
    Shows after (s.note stamp events).ring := by
  unfold Surface.note
  dsimp only
  generalize s.ring = ring at shows_
  generalize 0 = place
  induction events generalizing ring tag place with
  | nil =>
    rcases leads with rfl | ⟨_,mem,_⟩
    · exact shows_
    · cases mem
  | cons event rest ih =>
    rw [List.zipIdx_cons,List.foldl_cons]
    have others := fun other mem => own other (List.mem_cons_of_mem _ mem)
    by_cases told : snapshotOf event = none
    · refine ih others (leads.imp_right ?_) _ (pushShows shows_ (.inl ⟨told,rfl⟩)) _
      rintro ⟨other,mem,tells⟩
      rcases List.mem_cons.mp mem with rfl | later
      · exact absurd told tells
      · exact ⟨other,later,tells⟩
    · exact ih others (.inl rfl) _ (pushShows shows_ (.inr ⟨told,own event List.mem_cons_self⟩)) _

end Ring

section Published

theorem readDigits (state : State) (i : Input) :
    ∀ event ∈ (digitsPublished state i).map Published.read, event = .unread := by
  intro event mem
  obtain ⟨digit,inside,rfl⟩ := List.mem_map.mp mem
  obtain ⟨_,_,rfl⟩ := List.mem_map.mp inside
  rfl

theorem handledTold (state : State) (i : Input) :
    (∀ event ∈ (published state i).map Published.read, ∀ target,
      event = .stateTransition target → target = (coreStep state i).1.tag) ∧
    ∃ event ∈ (published state i).map Published.read, snapshotOf event ≠ none := by
  have digits := readDigits state i
  have mem (event : Published) : event ∈ (published state i).map Published.read ↔
      event = .stateTransition (coreStep state i).1.tag ∨
        event ∈ (digitsPublished state i).map Published.read := by
    unfold published
    dsimp only
    split
    · rw [List.map_cons,List.mem_cons]
      rfl
    · rw [List.map_append,List.mem_append,or_comm]
      exact or_congr_left (List.mem_singleton)
  refine ⟨fun event inside target is => ?_,_,(mem _).mpr (.inl rfl),fun none_ => (by cases none_)⟩
  rcases (mem event).mp inside with rfl | digit
  · cases is
    rfl
  · cases (digits event digit).symm.trans is

theorem handleShows {s : Surface} {stamp : Nat → Nat × Nat} {origin : Option Nat} {event : Event}
    (shows_ : Shows s.core.tag s.ring) :
    Shows (s.handleEvent stamp origin event).core.tag (s.handleEvent stamp origin event).ring :=
  have told := handledTold s.core (event,s.accepting)
  noteShows shows_ told.1 (.inr told.2)

theorem fallbackTold {ring : RingBuffer Published} {tag : String} (shows_ : Shows tag ring) :
    (fallback ring).lastError ≠ none ∨ fallback ring = ⟨operatorStateName tag,none⟩ ∨
      statusFromTelemetry ring = none ∧ fallback ring = ⟨"idle",none⟩ := by
  have all : ring.snapshotSince none = ring.records :=
    List.filter_eq_self.mpr fun _ _ => rfl
  cases found : statusFromTelemetry ring with
  | none => exact .inr (.inr ⟨rfl,by rw [fallback,found]; rfl⟩)
  | some snapshot =>
    have answer : fallback ring = snapshot := by rw [fallback,found]; rfl
    rw [statusFromTelemetry,all] at found
    obtain ⟨later,record,before,split,tells,silent⟩ := List.findSome?_eq_some_iff.mp found
    have parts : ring.records = before.reverse ++ record :: later.reverse := by
      rw [← List.reverse_reverse ring.records,split]
      simp
    rw [answer]
    cases told : record.event with
    | stateTransition target =>
      have same := shows_.last _ record _ parts
        (fun other mem => silent other (List.mem_reverse.mp mem)) target told
      rw [told] at tells
      cases tells
      exact .inr (.inl (by rw [same]))
    | error source message =>
      rw [told] at tells
      cases tells
      exact .inl fun none_ => (by cases none_)
    | unread =>
      rw [told] at tells
      cases tells

end Published

end TelephoneBooth.DebugControls
