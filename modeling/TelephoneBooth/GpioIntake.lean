import TelephoneBooth.EdgePolling
import TelephoneBooth.Handset
import TelephoneBooth.PowerButton
import TelephoneBooth.Transition

/-! `gpio_task`: the edges of an adapter that may be lost and rebuilt, the queue that keeps edge
intake from waiting for the core, and the levels passed to the power button's task. The core
and the button's task run beside it; other tasks send to the core what is not a hook event. -/
namespace TelephoneBooth.GpioIntake
open EdgePolling (PinRole GpioEdge)
open PowerButton (Button Signal)

def eventChannel : Nat := 256

def powerChannel : Nat := 16

/- Milliseconds. -/
def gpioRebuildBackoffBase : Nat := 200
def gpioRebuildBackoffMax : Nat := 30000

def eventFromGpio (edge : GpioEdge) : Option Event :=
  match edge.role with
  | .hook => some (if edge.level then .hookOn else .hookOff)
  | .rotaryPulse => if edge.level then none else some .rotaryPulse
  | .rotaryRead | .powerButton => none

structure Wiring where
  rebuild : Bool
  powerButton : Bool
  deriving DecidableEq, Repr

/- The forwarder waits for its queue or for room in the event channel; a send that fails is its
end, and the event goes with it. -/
inductive ForwardTask where
  | receiving
  | sending (event : Event)
  | failed (event : Event)
  deriving DecidableEq, Repr

def ForwardTask.held : ForwardTask → List Event
  | .receiving => []
  | .sending event | .failed event => [event]

/- Where the loop awaits. `live` is whether it keeps its adapter; `draining` is behind the loop. -/
inductive Stage where
  | reading
  | sleeping
  | hookSnapshot
  | powerSnapshot
  | sending (signal : Signal) (live : Bool)
  | draining
  | stopped
  deriving DecidableEq, Repr

inductive Fate where
  | queued | dropped | refused
  deriving DecidableEq, Repr

structure Item where
  role : PinRole
  event : Event
  fate : Fate
  deriving DecidableEq, Repr

/- `published` are the edges on the telemetry bus, `dropped` what the counter of dropped events
has counted. The rest are histories no step reads: events built, events that reached the event
channel, what the core was given, and since the last edge the delays slept and the errors
published. -/
structure Intake where
  stage : Stage
  backoff : Nat
  queue : List Event
  forwarder : ForwardTask
  channel : List Event
  closed : Bool
  core : State
  button : Button
  published : List GpioEdge
  dropped : List PinRole
  ledger : List Item
  delivered : List Event
  handled : List Input
  slept : List Nat
  errors : List String

inductive Label where
  | nextEdge (edge : Except String GpioEdge)
  | wake (rebuilt : Except String Unit)
  | hookLevel (level : Except String Bool)
  | powerLevel (level : Except String Bool) (now : Nat)
  | passSignal
  | forward
  | deliver
  | drained
  | other (event : Event)
  | handle (accepting : Bool)
  | direct (event : Event) (accepting : Bool)
  | closeCore
  | abort
  | expire
  | poll (deliver : Bool)

namespace Intake

def boot (initialHookOn accepting acceptingStill : Bool) (now : Nat) : Intake where
  stage := .reading
  backoff := gpioRebuildBackoffBase
  queue := []
  forwarder := .receiving
  channel := []
  closed := false
  core :=
    if accepting then
      if initialHookOn then .idle else (coreStep .idle (.hookOff,acceptingStill)).1
    else .callsPaused initialHookOn
  button := .fresh
  published := [⟨.hook,initialHookOn,now⟩]
  dropped := []
  ledger := []
  delivered := []
  handled := []
  slept := []
  errors := []

/- Never waits. A closed queue is reported before a full one. -/
def queueEvent (s : Intake) (event : Event) (role : PinRole) : Intake × Bool :=
  match s.forwarder with
  | .failed _ => ({ s with ledger := s.ledger ++ [⟨role,event,.refused⟩] },false)
  | _ =>
    if s.queue.length < eventChannel then
      ({ s with queue := s.queue ++ [event], ledger := s.ledger ++ [⟨role,event,.queued⟩] },true)
    else
      ({ s with
          dropped := s.dropped ++ [role]
          ledger := s.ledger ++ [⟨role,event,.dropped⟩] },true)

def publish (s : Intake) (edge : GpioEdge) : Intake := { s with published := s.published ++ [edge] }

def issue (s : Intake) (edge : GpioEdge) (next : Stage) : Intake :=
  match eventFromGpio edge with
  | none => { s with stage := next }
  | some event =>
    let (s,open_) := s.queueEvent event edge.role
    { s with stage := if open_ then next else .draining }

def withoutAdapter (w : Wiring) : Stage := if w.rebuild then .sleeping else .draining

/- An edge means that the adapter is alive. -/
def recovered (s : Intake) : Intake :=
  { s with backoff := gpioRebuildBackoffBase, slept := [], errors := [] }

def takeEdge (w : Wiring) (s : Intake) (edge : GpioEdge) : Intake :=
  let s := s.recovered.publish edge
  if edge.role = .powerButton then
    { s with stage := if w.powerButton then .sending (.level edge.level) true else .reading }
  else s.issue edge .reading

def loseStream (w : Wiring) (s : Intake) (err : String) : Intake :=
  { s with
    stage := if w.powerButton then .sending .interrupted false else withoutAdapter w
    errors := s.errors ++ [err] }

def wake (s : Intake) : Intake :=
  { s with
    slept := s.slept ++ [s.backoff]
    backoff := min (s.backoff * 2) gpioRebuildBackoffMax }

def afterHook (w : Wiring) : Stage := if w.powerButton then .powerSnapshot else .reading

def reconcileHook (w : Wiring) (s : Intake) : Except String Bool → Intake
  | .error _ => { s with stage := afterHook w }
  | .ok level => (s.publish ⟨.hook,level,0⟩).issue ⟨.hook,level,0⟩ (afterHook w)

def reconcilePowerButton (s : Intake) (now : Nat) : Except String Bool → Intake
  | .error _ => { s with stage := .reading }
  | .ok level =>
    { s.publish ⟨.powerButton,level,now⟩ with stage := .sending (.level level) true }

def give (s : Intake) (event : Event) (accepting : Bool) : Intake :=
  { s with
    core := (coreStep s.core (event,accepting)).1
    handled := s.handled ++ [(event,accepting)] }

def pass (w : Wiring) (s : Intake) (signal : Signal) (live : Bool) : Option Intake :=
  if s.button.phase = .returned then some { s with stage := .draining }
  else if s.button.queue.length < powerChannel then
    some { s with
      button := (s.button.step (.send signal)).1
      stage := if live then .reading else withoutAdapter w }
  else none

def step (w : Wiring) (s : Intake) : Label → Option Intake
  | .nextEdge edge =>
    if s.stage = .reading then
      match edge with
      | .ok edge => some (s.takeEdge w edge)
      | .error err => some (s.loseStream w err)
    else none
  | .wake rebuilt =>
    if s.stage = .sleeping then
      match rebuilt with
      | .ok _ => some { s.wake with stage := .hookSnapshot }
      | .error err => some { s.wake with errors := s.errors ++ [s!"gpio rebuild failed: {err}"] }
    else none
  | .hookLevel level => if s.stage = .hookSnapshot then some (s.reconcileHook w level) else none
  | .powerLevel level now =>
    if s.stage = .powerSnapshot then some (s.reconcilePowerButton now level) else none
  | .passSignal =>
    match s.stage with
    | .sending signal live => s.pass w signal live
    | _ => none
  | .forward =>
    match s.forwarder, s.queue with
    | .receiving, event :: rest => some { s with forwarder := .sending event, queue := rest }
    | _, _ => none
  | .deliver =>
    match s.forwarder with
    | .sending event =>
      if s.closed then some { s with forwarder := .failed event }
      else if s.channel.length < eventChannel then
        some { s with
          forwarder := .receiving
          channel := s.channel ++ [event]
          delivered := s.delivered ++ [event] }
      else none
    | _ => none
  | .drained =>
    if s.stage = .draining then
      match s.forwarder, s.queue with
      | .receiving, [] | .failed _, _ =>
        some { s with stage := .stopped, button := (s.button.step .close).1 }
      | _, _ => none
    else none
  | .other event =>
    if hookLevel event = none ∧ s.closed = false ∧ s.channel.length < eventChannel then
      some { s with channel := s.channel ++ [event] }
    else none
  | .handle accepting =>
    match s.closed, s.channel with
    | false, event :: rest => some ({ s with channel := rest }.give event accepting)
    | _, _ => none
  | .direct event accepting =>
    if hookLevel event = none ∧ s.closed = false then some (s.give event accepting) else none
  | .closeCore => some { s with closed := true }
  | .abort =>
    if s.closed then some { s with stage := .stopped, button := (s.button.step .close).1 }
    else none
  | .expire => if w.powerButton then some { s with button := (s.button.step .expire).1 } else none
  | .poll deliver =>
    if w.powerButton then some { s with button := (s.button.poll deliver).1 } else none

def refuse (s : Intake) (event : Event) (role : PinRole) : Intake :=
  { s with ledger := s.ledger ++ [⟨role,event,.refused⟩] }

def enqueue (s : Intake) (event : Event) (role : PinRole) : Intake :=
  { s with queue := s.queue ++ [event], ledger := s.ledger ++ [⟨role,event,.queued⟩] }

def drop (s : Intake) (event : Event) (role : PinRole) : Intake :=
  { s with dropped := s.dropped ++ [role], ledger := s.ledger ++ [⟨role,event,.dropped⟩] }

theorem queueEventCases (s : Intake) (event : Event) (role : PinRole) :
    s.queueEvent event role = (s.refuse event role,false) ∨
    s.queue.length < eventChannel ∧ s.queueEvent event role = (s.enqueue event role,true) ∨
    eventChannel ≤ s.queue.length ∧ s.queueEvent event role = (s.drop event role,true) := by
  unfold queueEvent
  split
  · exact .inl rfl
  · split
    · rename_i room
      exact .inr (.inl ⟨room,rfl⟩)
    · rename_i full
      exact .inr (.inr ⟨Nat.le_of_not_lt full,rfl⟩)

inductive Issues (s : Intake) (edge : GpioEdge) (next : Stage) : Intake → Prop where
  | nothing (none_ : eventFromGpio edge = none) : Issues s edge next { s with stage := next }
  | queued (event) (some_ : eventFromGpio edge = some event) (room : s.queue.length < eventChannel) :
      Issues s edge next { s.enqueue event edge.role with stage := next }
  | dropped (event) (some_ : eventFromGpio edge = some event) (full : eventChannel ≤ s.queue.length) :
      Issues s edge next { s.drop event edge.role with stage := next }
  | refused (event) (some_ : eventFromGpio edge = some event) :
      Issues s edge next { s.refuse event edge.role with stage := .draining }

theorem issueCases (s : Intake) (edge : GpioEdge) (next : Stage) :
    Issues s edge next (s.issue edge next) := by
  unfold issue
  cases some_ : eventFromGpio edge with
  | none => exact .nothing some_
  | some event =>
    rcases s.queueEventCases event edge.role with same | ⟨room,same⟩ | ⟨full,same⟩
    · simp only [same]
      exact .refused event some_
    · simp only [same]
      exact .queued event some_ room
    · simp only [same]
      exact .dropped event some_ full

theorem reconcileIssues (w : Wiring) (s : Intake) (level : Bool) :
    Issues (s.publish ⟨.hook,level,0⟩) ⟨.hook,level,0⟩ (afterHook w) (s.reconcileHook w (.ok level)) :=
  issueCases _ _ _

inductive Steps (w : Wiring) (s : Intake) : Intake → Prop where
  | took (edge) (reading : s.stage = .reading) : Steps w s (s.takeEdge w edge)
  | lost (err) (reading : s.stage = .reading) : Steps w s (s.loseStream w err)
  | rebuilt (sleeping : s.stage = .sleeping) : Steps w s { s.wake with stage := .hookSnapshot }
  | notRebuilt (err) (sleeping : s.stage = .sleeping) :
      Steps w s { s.wake with errors := s.errors ++ [err] }
  | hook (level) (snapshot : s.stage = .hookSnapshot) : Steps w s (s.reconcileHook w level)
  | power (level now) (snapshot : s.stage = .powerSnapshot) :
      Steps w s (s.reconcilePowerButton now level)
  | gone (signal live) (sending : s.stage = .sending signal live)
      (returned : s.button.phase = .returned) : Steps w s { s with stage := .draining }
  | passed (signal live) (sending : s.stage = .sending signal live)
      (room : s.button.queue.length < powerChannel) : Steps w s
      { s with
        button := (s.button.step (.send signal)).1
        stage := if live then .reading else withoutAdapter w }
  | forwarded (event rest) (receiving : s.forwarder = .receiving) (queue : s.queue = event :: rest) :
      Steps w s { s with forwarder := .sending event, queue := rest }
  | sendFailed (event) (sending : s.forwarder = .sending event) (closed : s.closed = true) :
      Steps w s { s with forwarder := .failed event }
  | delivered (event) (sending : s.forwarder = .sending event) (open_ : s.closed = false)
      (free : s.channel.length < eventChannel) : Steps w s
      { s with
        forwarder := .receiving
        channel := s.channel ++ [event]
        delivered := s.delivered ++ [event] }
  | stopped (draining : s.stage = .draining)
      (done : s.forwarder = .receiving ∧ s.queue = [] ∨ ∃ event, s.forwarder = .failed event) :
      Steps w s { s with stage := .stopped, button := (s.button.step .close).1 }
  | other (event) (quiet : hookLevel event = none) (open_ : s.closed = false)
      (free : s.channel.length < eventChannel) : Steps w s { s with channel := s.channel ++ [event] }
  | handled (event rest accepting) (open_ : s.closed = false) (waits : s.channel = event :: rest) :
      Steps w s ({ s with channel := rest }.give event accepting)
  | direct (event accepting) (quiet : hookLevel event = none) : Steps w s (s.give event accepting)
  | coreClosed : Steps w s { s with closed := true }
  | aborted (closed : s.closed = true) :
      Steps w s { s with stage := .stopped, button := (s.button.step .close).1 }
  | expired : Steps w s { s with button := (s.button.step .expire).1 }
  | polled (deliver) : Steps w s { s with button := (s.button.poll deliver).1 }

theorem passCases {w : Wiring} {s t : Intake} {signal : Signal} {live : Bool}
    (sending : s.stage = .sending signal live) (passed : s.pass w signal live = some t) :
    Steps w s t := by
  unfold pass at passed
  split at passed
  · rename_i returned
    cases passed
    exact .gone signal live sending returned
  · split at passed <;> cases passed
    exact .passed signal live sending (by assumption)

theorem stepCases {w : Wiring} {s t : Intake} {label : Label} (stepped : s.step w label = some t) :
    Steps w s t := by
  cases label <;> simp only [step] at stepped
  case nextEdge edge =>
    split at stepped
    · rename_i reading
      cases edge <;> cases stepped
      · exact .lost _ reading
      · exact .took _ reading
    · cases stepped
  case wake rebuilt =>
    split at stepped
    · rename_i sleeping
      cases rebuilt <;> cases stepped
      · exact .notRebuilt _ sleeping
      · exact .rebuilt sleeping
    · cases stepped
  case hookLevel level =>
    split at stepped <;> cases stepped
    exact .hook level (by assumption)
  case powerLevel level now =>
    split at stepped <;> cases stepped
    exact .power level now (by assumption)
  case passSignal =>
    split at stepped
    · exact passCases (by assumption) stepped
    · cases stepped
  case forward =>
    split at stepped <;> cases stepped
    exact .forwarded _ _ (by assumption) (by assumption)
  case deliver =>
    split at stepped
    · rename_i event sending
      split at stepped
      · rename_i closed
        cases stepped
        exact .sendFailed event sending closed
      · rename_i open_
        split at stepped <;> cases stepped
        exact .delivered event sending (Bool.eq_false_iff.mpr open_) (by assumption)
    · cases stepped
  case drained =>
    split at stepped
    · rename_i draining
      split at stepped <;> cases stepped
      · exact .stopped draining (.inl ⟨(by assumption),(by assumption)⟩)
      · exact .stopped draining (.inr ⟨_,(by assumption)⟩)
    · cases stepped
  case other event =>
    split at stepped <;> cases stepped
    rename_i allowed
    exact .other event allowed.1 allowed.2.1 allowed.2.2
  case handle accepting =>
    split at stepped <;> cases stepped
    exact .handled _ _ accepting (by assumption) (by assumption)
  case direct event accepting =>
    split at stepped <;> cases stepped
    rename_i allowed
    exact .direct event accepting allowed.1
  case closeCore => cases stepped; exact .coreClosed
  case abort =>
    split at stepped <;> cases stepped
    exact .aborted (by assumption)
  case expire =>
    split at stepped <;> cases stepped
    exact .expired
  case poll deliver =>
    split at stepped <;> cases stepped
    exact .polled deliver

def told (edge : GpioEdge) : Option (PinRole × Event) := (eventFromGpio edge).map (edge.role,·)

def Item.told (item : Item) : PinRole × Event := (item.role,item.event)

def hookEvent (on : Bool) : Event := if on then .hookOn else .hookOff

def fated (ledger : List Item) (fate : Fate) : List Item := ledger.filter (·.fate == fate)

theorem fatedSnoc (ledger : List Item) (item : Item) (fate : Fate) :
    fated (ledger ++ [item]) fate = fated ledger fate ++ if item.fate = fate then [item] else [] := by
  unfold fated
  rw [List.filter_append]
  cases item with
  | mk role event known => cases known <;> cases fate <;> rfl

structure Accounted (initialHookOn : Bool) (s : Intake) : Prop where
  issued : s.published.filterMap told = (.hook,hookEvent initialHookOn) :: s.ledger.map Item.told
  kept : (fated s.ledger .queued).map Item.event = s.delivered ++ s.forwarder.held ++ s.queue
  counted : (fated s.ledger .dropped).map Item.role = s.dropped
  room : s.queue.length ≤ eventChannel
  channelRoom : s.channel.length ≤ eventChannel

def Emptied (s : Intake) : Prop :=
  s.closed = false → (∀ event, s.forwarder ≠ .failed event) ∧
    (s.stage = .stopped → s.forwarder = .receiving ∧ s.queue = [])

theorem publishTold (s : Intake) (edge : GpioEdge) :
    (s.publish edge).published.filterMap told = s.published.filterMap told ++ (told edge).toList := by
  unfold publish
  rw [List.filterMap_append]
  cases known : told edge <;> simp [known]

theorem publishedIssued {initialHookOn : Bool} {s t : Intake} {edge : GpioEdge} {next : Stage}
    (before : Accounted initialHookOn s) (issues : Issues (s.publish edge) edge next t) :
    Accounted initialHookOn t := by
  obtain ⟨issued,kept,counted,room,channelRoom⟩ := before
  have next_ := s.publishTold edge
  rw [issued] at next_
  cases issues with
  | nothing none_ =>
    refine ⟨?_,kept,counted,room,channelRoom⟩
    simpa [told,none_,publish] using next_
  | queued event some_ free =>
    refine ⟨?_,?_,?_,?_,channelRoom⟩
    · simpa [told,some_,enqueue,publish,Item.told] using next_
    · simpa [enqueue,publish,fatedSnoc] using congrArg (· ++ [event]) kept
    · simpa [enqueue,publish,fatedSnoc] using counted
    · rw [enqueue,List.length_append]
      exact Nat.succ_le_of_lt free
  | dropped event some_ full =>
    refine ⟨?_,?_,?_,room,channelRoom⟩
    · simpa [told,some_,drop,publish,Item.told] using next_
    · simpa [drop,publish,fatedSnoc] using kept
    · simpa [drop,publish,fatedSnoc] using congrArg (· ++ [edge.role]) counted
  | refused event some_ =>
    refine ⟨?_,?_,?_,room,channelRoom⟩
    · simpa [told,some_,refuse,publish,Item.told] using next_
    · simpa [refuse,publish,fatedSnoc] using kept
    · simpa [refuse,publish,fatedSnoc] using counted

theorem powerTold (level : Bool) (now : Nat) : told ⟨.powerButton,level,now⟩ = none := rfl

theorem publishedSilent {initialHookOn : Bool} {s : Intake} {edge : GpioEdge}
    (before : Accounted initialHookOn s) (silent : told edge = none) :
    Accounted initialHookOn (s.publish edge) := by
  refine ⟨?_,before.kept,before.counted,before.room,before.channelRoom⟩
  rw [publishTold,silent,before.issued]
  exact List.append_nil _

theorem takeEdgeAccounted {w : Wiring} {initialHookOn : Bool} {s : Intake} {edge : GpioEdge}
    (before : Accounted initialHookOn s) : Accounted initialHookOn (s.takeEdge w edge) := by
  have reset : Accounted initialHookOn s.recovered :=
    ⟨before.issued,before.kept,before.counted,before.room,before.channelRoom⟩
  unfold takeEdge
  split
  · rename_i power
    have silent : told edge = none := by simp [told,eventFromGpio,power]
    have published := publishedSilent reset silent
    exact ⟨published.issued,published.kept,published.counted,published.room,published.channelRoom⟩
  · exact publishedIssued reset (issueCases _ edge .reading)

theorem reconcileHookAccounted {w : Wiring} {initialHookOn : Bool} {s : Intake}
    (level : Except String Bool) (before : Accounted initialHookOn s) :
    Accounted initialHookOn (s.reconcileHook w level) := by
  cases level with
  | error _ => exact ⟨before.issued,before.kept,before.counted,before.room,before.channelRoom⟩
  | ok level =>
    exact publishedIssued before (reconcileIssues w s level)

theorem reconcilePowerButtonAccounted {initialHookOn : Bool} {s : Intake} (now : Nat)
    (level : Except String Bool) (before : Accounted initialHookOn s) :
    Accounted initialHookOn (s.reconcilePowerButton now level) := by
  cases level with
  | error _ => exact ⟨before.issued,before.kept,before.counted,before.room,before.channelRoom⟩
  | ok level =>
    have published := publishedSilent before (powerTold level now)
    exact ⟨published.issued,published.kept,published.counted,published.room,published.channelRoom⟩

theorem stepAccounted {w : Wiring} {initialHookOn : Bool} {s t : Intake} {label : Label}
    (stepped : s.step w label = some t) (before : Accounted initialHookOn s) :
    Accounted initialHookOn t := by
  have ⟨issued,kept,counted,room,channelRoom⟩ := before
  cases stepCases stepped with
  | took edge reading => exact takeEdgeAccounted before
  | hook level snapshot => exact reconcileHookAccounted level before
  | power level now snapshot => exact reconcilePowerButtonAccounted now level before
  | forwarded event rest receiving queue =>
    refine ⟨issued,?_,counted,?_,channelRoom⟩
    · simpa [ForwardTask.held,receiving,queue] using kept
    · rw [queue] at room
      exact Nat.le_of_succ_le room
  | sendFailed event sending closed =>
    exact ⟨issued,by simpa [ForwardTask.held,sending] using kept,counted,room,channelRoom⟩
  | delivered event sending open_ free =>
    refine ⟨issued,by simpa [ForwardTask.held,sending] using kept,counted,room,?_⟩
    rw [List.length_append]
    exact Nat.succ_le_of_lt free
  | other event quiet open_ free =>
    refine ⟨issued,kept,counted,room,?_⟩
    rw [List.length_append]
    exact Nat.succ_le_of_lt free
  | handled event rest accepting open_ waits =>
    rw [waits] at channelRoom
    exact ⟨issued,kept,counted,room,Nat.le_of_succ_le channelRoom⟩
  | _ => exact ⟨issued,kept,counted,room,channelRoom⟩

structure Beyond (s t : Intake) : Prop where
  forwarder : t.forwarder = s.forwarder
  channel : t.channel = s.channel
  closed : t.closed = s.closed
  core : t.core = s.core
  button : t.button = s.button
  delivered : t.delivered = s.delivered
  handled : t.handled = s.handled

def SamePace (s t : Intake) : Prop :=
  t.backoff = s.backoff ∧ t.slept = s.slept ∧ t.errors = s.errors

theorem issuesBeyond {s t : Intake} {edge : GpioEdge} {next : Stage} (issues : Issues s edge next t) :
    Beyond s t ∧ SamePace s t ∧ (t.stage = next ∨ t.stage = .draining) := by
  cases issues with
  | nothing _ | queued _ _ _ | dropped _ _ _ =>
    exact ⟨⟨rfl,rfl,rfl,rfl,rfl,rfl,rfl⟩,⟨rfl,rfl,rfl⟩,.inl rfl⟩
  | refused _ _ => exact ⟨⟨rfl,rfl,rfl,rfl,rfl,rfl,rfl⟩,⟨rfl,rfl,rfl⟩,.inr rfl⟩

inductive Goes : Stage → Prop where
  | reading : Goes .reading
  | draining : Goes .draining
  | powerSnapshot : Goes .powerSnapshot
  | sending (pressed) : Goes (.sending (.level pressed) true)

structure Takes (s t : Intake) : Prop where
  beyond : Beyond s t
  goes : Goes t.stage
  hooked : t.stage = .powerSnapshot → s.stage = .hookSnapshot

theorem takeEdgeTakes (w : Wiring) (s : Intake) (edge : GpioEdge) :
    Takes s (s.takeEdge w edge) ∧ SamePace s.recovered (s.takeEdge w edge) := by
  unfold takeEdge
  split
  · refine ⟨⟨⟨rfl,rfl,rfl,rfl,rfl,rfl,rfl⟩,?_,?_⟩,⟨rfl,rfl,rfl⟩⟩
    · cases w.powerButton
      · exact .reading
      · exact .sending edge.level
    · cases w.powerButton <;> simp
  · obtain ⟨same,pace,stage⟩ := issuesBeyond (issueCases (s.recovered.publish edge) edge .reading)
    refine ⟨⟨⟨same.1,same.2,same.3,same.4,same.5,same.6,same.7⟩,?_,?_⟩,pace⟩ <;>
      rcases stage with at_ | at_ <;> rw [at_]
    · exact .reading
    · exact .draining
    · simp
    · simp

theorem reconcileHookTakes {w : Wiring} {s : Intake} (level : Except String Bool)
    (snapshot : s.stage = .hookSnapshot) :
    Takes s (s.reconcileHook w level) ∧ SamePace s (s.reconcileHook w level) := by
  have after : Goes (afterHook w) := by
    unfold afterHook
    cases w.powerButton
    · exact .reading
    · exact .powerSnapshot
  cases level with
  | error _ => exact ⟨⟨⟨rfl,rfl,rfl,rfl,rfl,rfl,rfl⟩,after,fun _ => snapshot⟩,⟨rfl,rfl,rfl⟩⟩
  | ok level =>
    obtain ⟨same,pace,stage⟩ := issuesBeyond (reconcileIssues w s level)
    refine ⟨⟨⟨same.1,same.2,same.3,same.4,same.5,same.6,same.7⟩,?_,fun _ => snapshot⟩,pace⟩
    rcases stage with at_ | at_ <;> rw [at_]
    · exact after
    · exact .draining

theorem reconcilePowerButtonTakes (s : Intake) (now : Nat) (level : Except String Bool) :
    Takes s (s.reconcilePowerButton now level) ∧ SamePace s (s.reconcilePowerButton now level) := by
  cases level with
  | error _ => exact ⟨⟨⟨rfl,rfl,rfl,rfl,rfl,rfl,rfl⟩,.reading,nofun⟩,⟨rfl,rfl,rfl⟩⟩
  | ok pressed => exact ⟨⟨⟨rfl,rfl,rfl,rfl,rfl,rfl,rfl⟩,.sending pressed,nofun⟩,⟨rfl,rfl,rfl⟩⟩

theorem Takes.emptied {s t : Intake} (takes : Takes s t) (before : Emptied s) : Emptied t := by
  intro open_
  rw [takes.beyond.closed] at open_
  rw [takes.beyond.forwarder]
  refine ⟨(before open_).1,fun stopped => ?_⟩
  have goes := takes.goes
  rw [stopped] at goes
  cases goes

theorem emptiedElsewhere {s t : Intake} (before : Emptied s) (closed : t.closed = s.closed)
    (forwarder : t.forwarder = s.forwarder) (runs : t.stage ≠ .stopped) : Emptied t := by
  intro open_
  rw [closed] at open_
  rw [forwarder]
  exact ⟨(before open_).1,fun stopped => absurd stopped runs⟩

theorem stepEmptied {w : Wiring} {s t : Intake} {label : Label} (stepped : s.step w label = some t)
    (before : Emptied s) : Emptied t := by
  cases stepCases stepped with
  | took edge reading => exact (takeEdgeTakes w s edge).1.emptied before
  | hook level snapshot => exact (reconcileHookTakes level snapshot).1.emptied before
  | power level now snapshot => exact (reconcilePowerButtonTakes s now level).1.emptied before
  | lost err reading =>
    refine emptiedElsewhere before rfl rfl ?_
    simp only [loseStream,withoutAdapter]
    cases w.powerButton <;> cases w.rebuild <;> simp
  | rebuilt sleeping => exact emptiedElsewhere before rfl rfl (by simp)
  | notRebuilt err sleeping => exact emptiedElsewhere before rfl rfl (by simp [wake,sleeping])
  | gone signal live sending returned => exact emptiedElsewhere before rfl rfl (by simp)
  | passed signal live sending room =>
    refine emptiedElsewhere before rfl rfl ?_
    simp only [withoutAdapter]
    cases live <;> cases w.rebuild <;> simp
  | forwarded event rest receiving queue =>
    intro open_
    refine ⟨by simp,fun stopped => ?_⟩
    have empty := ((before open_).2 stopped).2
    rw [queue] at empty
    cases empty
  | sendFailed event sending closed =>
    intro open_
    exact absurd (closed.symm.trans open_) (by simp)
  | delivered event sending open_ free =>
    intro _
    refine ⟨by simp,fun stopped => ?_⟩
    have idle := ((before open_).2 stopped).1
    rw [sending] at idle
    cases idle
  | stopped draining done =>
    intro open_
    rcases done with idle | ⟨event,failed⟩
    · exact ⟨(before open_).1,fun _ => idle⟩
    · exact absurd failed ((before open_).1 event)
  | coreClosed => exact fun open_ => absurd open_ (by simp)
  | aborted closed => exact fun open_ => absurd (closed.symm.trans open_) (by simp)
  | _ => exact before

structure Followed (start : State) (s : Intake) : Prop where
  core : s.core = coreRun start s.handled
  hooks : s.handled.filterMap (fun i => hookLevel i.1) ++ s.channel.filterMap hookLevel =
    s.delivered.filterMap hookLevel

theorem Beyond.followed {start : State} {s t : Intake} (same : Beyond s t)
    (before : Followed start s) : Followed start t := by
  refine ⟨?_,?_⟩
  · rw [same.core,same.handled]
    exact before.core
  · rw [same.handled,same.channel,same.delivered]
    exact before.hooks

theorem gaveCore {start : State} {s : Intake} (before : s.core = coreRun start s.handled)
    (event : Event) (accepting : Bool) :
    (s.give event accepting).core = coreRun start (s.give event accepting).handled := by
  rw [give,coreRun,Machine.runSnoc,before]
  rfl

theorem stepFollowed {w : Wiring} {start : State} {s t : Intake} {label : Label}
    (stepped : s.step w label = some t) (before : Followed start s) : Followed start t := by
  have ⟨core,hooks⟩ := before
  cases stepCases stepped with
  | took edge reading => exact (takeEdgeTakes w s edge).1.beyond.followed before
  | hook level snapshot => exact (reconcileHookTakes level snapshot).1.beyond.followed before
  | power level now snapshot => exact (reconcilePowerButtonTakes s now level).1.beyond.followed before
  | delivered event sending open_ free =>
    refine ⟨core,?_⟩
    rw [List.filterMap_append,List.filterMap_append,← List.append_assoc,hooks]
  | other event quiet open_ free =>
    refine ⟨core,?_⟩
    rw [List.filterMap_append,← hooks]
    simp [quiet]
  | handled event rest accepting open_ waits =>
    have shorter : ({ s with channel := rest } : Intake).core = coreRun start s.handled := core
    refine ⟨gaveCore shorter event accepting,?_⟩
    rw [waits] at hooks
    show (s.handled ++ [(event,accepting)]).filterMap _ ++ rest.filterMap hookLevel =
      s.delivered.filterMap hookLevel
    rw [← hooks,List.filterMap_append,List.append_assoc]
    cases known : hookLevel event <;> simp [known]
  | direct event accepting quiet =>
    refine ⟨gaveCore core event accepting,?_⟩
    show (s.handled ++ [(event,accepting)]).filterMap _ ++ s.channel.filterMap hookLevel =
      s.delivered.filterMap hookLevel
    rw [← hooks,List.filterMap_append]
    simp [quiet]
  | _ => exact ⟨core,hooks⟩

section Runs
variable {w : Wiring} {initialHookOn accepting still : Bool} {now : Nat} {labels : List Label}
  {s : Intake}

theorem runAccounted
    (ends_ : Transition.final (step w) (boot initialHookOn accepting still now) labels = some s) :
    Accounted initialHookOn s :=
  Transition.finalInvariant (step w) (Accounted initialHookOn)
    (fun _ _ _ stepped before => stepAccounted stepped before)
    ⟨by cases initialHookOn <;> rfl,rfl,rfl,Nat.zero_le _,Nat.zero_le _⟩ ends_

theorem runEmptied
    (ends_ : Transition.final (step w) (boot initialHookOn accepting still now) labels = some s) :
    Emptied s :=
  Transition.finalInvariant (step w) Emptied (fun _ _ _ stepped before => stepEmptied stepped before)
    (fun _ => ⟨fun _ failed => (by cases failed),fun stopped => (by cases stopped)⟩) ends_

theorem runFollowed
    (ends_ : Transition.final (step w) (boot initialHookOn accepting still now) labels = some s) :
    Followed (boot initialHookOn accepting still now).core s :=
  Transition.finalInvariant (step w) (Followed _)
    (fun _ _ _ stepped before => stepFollowed stepped before) ⟨rfl,rfl⟩ ends_

end Runs

theorem dropsWhenFull {w : Wiring} {s t : Intake} {label : Label} (stepped : s.step w label = some t) :
    t.dropped = s.dropped ∨ eventChannel ≤ s.queue.length := by
  have issued {r u : Intake} {edge : GpioEdge} {next : Stage} (issues : Issues r edge next u)
      (dropped : r.dropped = s.dropped) (queue : r.queue = s.queue) :
      u.dropped = s.dropped ∨ eventChannel ≤ s.queue.length := by
    cases issues with
    | dropped event some_ full => exact .inr (queue ▸ full)
    | nothing | queued | refused => exact .inl dropped
  cases stepCases stepped with
  | took edge reading =>
    unfold takeEdge
    split
    · exact .inl rfl
    · exact issued (issueCases (s.recovered.publish edge) edge .reading) rfl rfl
  | hook level snapshot =>
    cases level with
    | error _ => exact .inl rfl
    | ok level => exact issued (reconcileIssues w s level) rfl rfl
  | power level now snapshot => cases level <;> exact .inl rfl
  | _ => exact .inl rfl

/- Whatever the adapter, the core and the other tasks do: what telemetry shows of the hook and the
dial is, in order, what was queued for the core, counted as dropped or refused by a closed
queue; an event is dropped only where 256 wait; the queued ones reach the event channel in order,
and a task that ends while the core listens leaves none behind. -/
theorem edgesAccounted (w : Wiring) (initialHookOn accepting still : Bool) (now : Nat)
    (labels : List Label) (s : Intake)
    (ends_ : Transition.final (step w) (boot initialHookOn accepting still now) labels = some s) :
    Accounted initialHookOn s ∧
    (∀ label t, s.step w label = some t → t.dropped = s.dropped ∨ s.queue.length = eventChannel) ∧
    (s.stage = .stopped → s.closed = false →
      (fated s.ledger .queued).map Item.event = s.delivered) := by
  have accounted := runAccounted ends_
  refine ⟨accounted,fun label t stepped => ?_,fun stopped open_ => ?_⟩
  · exact (dropsWhenFull stepped).imp_right fun full => Nat.le_antisymm accounted.room full
  · obtain ⟨receiving,empty⟩ := (runEmptied ends_ open_).2 stopped
    have kept := accounted.kept
    rw [receiving,empty] at kept
    simpa [ForwardTask.held] using kept

def hookRead (edge : GpioEdge) : Option Bool := if edge.role = .hook then some edge.level else none

theorem hookTold (edge : GpioEdge) :
    (told edge).bind (fun pair => hookLevel pair.2) = hookRead edge := by
  obtain ⟨role,level,now⟩ := edge
  cases role <;> cases level <;> rfl

theorem lastKept {α β : Type*} (yields : α → Option β) (keep : α → Bool) {items : List α}
    (last : ∀ item ∈ (items.filter (fun i => (yields i).isSome)).getLast?, keep item = true) :
    ((items.filter keep).filterMap yields).getLast? = (items.filterMap yields).getLast? := by
  induction items using List.reverseRecOn with
  | nil => rfl
  | append_singleton front item ih =>
    cases known : yields item with
    | some value =>
      have kept : keep item = true := last item (by simp [known])
      simp [known,kept]
    | none =>
      have before : (front ++ [item]).filter (fun i => (yields i).isSome) =
          front.filter (fun i => (yields i).isSome) := by simp [known]
      rw [before] at last
      have ended := ih last
      cases kept : keep item <;> simpa [kept,known] using ended

def hooks (s : Intake) : List Item := s.ledger.filter fun item => (hookLevel item.event).isSome

def Settled (s : Intake) : Prop :=
  ∀ event ∈ s.forwarder.held ++ s.queue ++ s.channel, hookLevel event = none

theorem bootOnHook (initialHookOn accepting still : Bool) (now : Nat) :
    (boot initialHookOn accepting still now).core.onHook = initialHookOn := by
  cases accepting with
  | false => rfl
  | true =>
    cases initialHookOn with
    | true => rfl
    | false => exact stepOnHook .idle (.hookOff,still)

theorem publishedHooks {initialHookOn : Bool} {s : Intake} (accounted : Accounted initialHookOn s) :
    s.published.filterMap hookRead =
      initialHookOn :: s.ledger.filterMap (fun item => hookLevel item.event) := by
  have reads : hookRead = fun edge => (told edge).bind fun pair => hookLevel pair.2 :=
    funext fun edge => (hookTold edge).symm
  rw [reads,← List.filterMap_filterMap,accounted.issued]
  cases initialHookOn <;> simp [hookEvent,hookLevel,List.filterMap_map,Function.comp_def,Item.told]

theorem settledHooks {initialHookOn : Bool} {start : State} {s : Intake}
    (accounted : Accounted initialHookOn s) (followed : Followed start s) (settled : Settled s) :
    s.handled.filterMap (fun i => hookLevel i.1) =
      (fated s.ledger .queued).filterMap fun item => hookLevel item.event := by
  have none_ : ∀ events : List Event, (∀ event ∈ events, hookLevel event = none) →
      events.filterMap hookLevel = [] := fun events all => by simpa using all
  have channel := none_ s.channel fun event mem => settled event (by simp [mem])
  have held := none_ s.forwarder.held fun event mem => settled event (by simp [mem])
  have queue := none_ s.queue fun event mem => settled event (by simp [mem])
  have followed := followed.hooks
  have kept := congrArg (List.filterMap hookLevel) accounted.kept
  rw [List.filterMap_append,List.filterMap_append,held,queue,List.append_nil,List.append_nil,
    List.filterMap_map] at kept
  rw [channel,List.append_nil,← kept] at followed
  exact followed

def pressLost : List Label :=
  [.nextEdge (.ok ⟨.hook,false,1⟩),.forward,.deliver,.handle true,.nextEdge (.ok ⟨.powerButton,true,2⟩),
    .passSignal,.poll true,.nextEdge (.error "closed"),.passSignal,.wake (.error "busy"),.expire]

def hungUpMeanwhile : List Label :=
  pressLost ++ [.wake (.ok ()),.hookLevel (.ok true),.forward,.deliver,.handle true,
    .powerLevel (.ok false) 3,.passSignal]

theorem hungUpAccounted : ∃ s, Transition.final (step ⟨true,true⟩) (boot true true true 0)
      hungUpMeanwhile = some s ∧ Accounted true s ∧
      (fated s.ledger .queued).map Item.event = [.hookOff,.hookOn] :=
  ⟨_,rfl,(edgesAccounted ⟨true,true⟩ true true true 0 hungUpMeanwhile _ rfl).1,rfl⟩

/- Once no hook event is on its way, the core stands where the hook was last read, by an edge or
by the snapshot after a rebuild, unless that very reading was dropped or refused. -/
theorem hookResynced (w : Wiring) (initialHookOn accepting still : Bool) (now : Nat)
    (labels : List Label) (s : Intake)
    (ends_ : Transition.final (step w) (boot initialHookOn accepting still now) labels = some s)
    (settled : Settled s) (kept : ∀ item ∈ s.hooks.getLast?, item.fate = .queued) :
    (s.published.filterMap hookRead).getLast? = some s.core.onHook := by
  have accounted := runAccounted ends_
  have followed := runFollowed ends_
  have last : ∀ item ∈ s.hooks.getLast?, (item.fate == .queued) = true := fun item mem =>
    beq_iff_eq.mpr (kept item mem)
  have same := lastKept (fun item : Item => hookLevel item.event) (·.fate == .queued) last
  rw [publishedHooks accounted,followed.core,runOnHook,bootOnHook,lastHook,
    settledHooks accounted followed settled,
    fated,same]
  cases s.ledger.filterMap (fun item => hookLevel item.event) <;> simp [List.getLast?_cons]

theorem hungUpResynced : ∃ s, Transition.final (step ⟨true,true⟩) (boot true true true 0)
      hungUpMeanwhile = some s ∧ (s.published.filterMap hookRead).getLast? = some s.core.onHook ∧
      s.core.onHook = true :=
  ⟨_,rfl,hookResynced ⟨true,true⟩ true true true 0 hungUpMeanwhile _ rfl
    (fun _ mem => (List.not_mem_nil mem).elim) (fun _ last => by cases last; rfl),rfl⟩

end Intake
end TelephoneBooth.GpioIntake
