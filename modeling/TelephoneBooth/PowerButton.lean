import Mathlib.Data.List.Infix
import TelephoneBooth.CoreStep

/-! `power_button_task`: levels of the button come through a channel, the hold timer elapses
beside it, and the task is run now and then. What the task is for is said of press windows,
which are cut out of the levels it takes and do not look at its own variables. -/
namespace TelephoneBooth.PowerButton

inductive Signal where
  | level (pressed : Bool)
  | interrupted
  deriving DecidableEq, Repr

inductive Phase where
  | waiting
  | pressed (elapsed held : Bool)
  | returned
  deriving DecidableEq, Repr

structure Button where
  queue : List Signal
  closed : Bool
  phase : Phase
  deriving DecidableEq, Repr

def Button.fresh : Button := ⟨[],false,.waiting⟩

/- What can be seen of the task: the levels it takes, the timer and the close it notices, and
the events it sends. -/
inductive Note where
  | took (signal : Signal)
  | expired
  | hungUp
  | sent (event : Event)
  deriving DecidableEq, Repr

inductive Label where
  | send (signal : Signal)
  | close
  | expire
  | poll (deliver : Bool)
  deriving DecidableEq, Repr

/- A level that is queued while the loop runs is one that was queued before. -/
def drainRelease (closed : Bool) : List Signal → Option Bool × List Note × List Signal
  | .level true :: rest =>
    let (released,notes,rest) := drainRelease closed rest
    (released,.took (.level true) :: notes,rest)
  | .level false :: rest => (some true,[.took (.level false)],rest)
  | .interrupted :: rest => (some false,[.took .interrupted],rest)
  | [] => if closed then (some false,[.hungUp],[]) else (none,[],[])

def sending (deliver : Bool) (phase : Phase) : Phase := if deliver then phase else .returned

/- The timer's branch: a release that waits in the queue goes before the hold. -/
def Button.deadline (b : Button) (deliver : Bool) : Button × List Note :=
  match drainRelease b.closed b.queue with
  | (some true,notes,rest) => ({ b with queue := rest, phase := sending deliver .waiting },
      notes ++ [.sent .powerButtonPressed])
  | (some false,notes,rest) => ({ b with queue := rest, phase := .waiting },notes)
  | (none,notes,rest) => ({ b with queue := rest, phase := sending deliver (.pressed true true) },
      notes ++ [.sent .powerButtonHeld])

def Button.receive (b : Button) (deliver elapsed held : Bool) : Button × List Note :=
  match b.queue with
  | .level false :: rest =>
    if held then ({ b with queue := rest, phase := .waiting },[.took (.level false)])
    else ({ b with queue := rest, phase := sending deliver .waiting },
      [.took (.level false),.sent .powerButtonPressed])
  | .level true :: rest =>
    ({ b with queue := rest, phase := .pressed elapsed held },[.took (.level true)])
  | .interrupted :: rest => ({ b with queue := rest, phase := .waiting },[.took .interrupted])
  | [] => if b.closed then ({ b with phase := .returned },[.hungUp]) else (b,[])

def Button.poll (b : Button) (deliver : Bool) : Button × List Note :=
  match b.phase with
  | .returned => (b,[])
  | .waiting =>
    match b.queue with
    | .level true :: rest =>
      ({ b with queue := rest, phase := .pressed false false },[.took (.level true)])
    | signal :: rest => ({ b with queue := rest },[.took signal])
    | [] => if b.closed then ({ b with phase := .returned },[.hungUp]) else (b,[])
  | .pressed elapsed held =>
    if elapsed && !held then b.deadline deliver else b.receive deliver elapsed held

def Button.step (b : Button) : Label → Button × List Note
  | .send signal => (if b.closed then b else { b with queue := b.queue ++ [signal] },[])
  | .close => ({ b with closed := true },[])
  | .expire =>
    match b.phase with
    | .pressed false held => ({ b with phase := .pressed true held },[.expired])
    | _ => (b,[])
  | .poll deliver => b.poll deliver

inductive End where
  | released | interrupted | closed
  deriving DecidableEq, Repr

/- A press window. `held` is set by a hold that is sent while the window is open. -/
structure Window where
  signals : List Signal
  expired : Bool
  held : Bool
  events : List Event
  ended : Option End
  deriving DecidableEq, Repr

def Window.opened : Window := ⟨[.level true],false,false,[],none⟩

def Window.take (w : Window) : Signal → Window
  | .level true => { w with signals := w.signals ++ [.level true] }
  | .level false => { w with signals := w.signals ++ [.level false], ended := some .released }
  | .interrupted => { w with signals := w.signals ++ [.interrupted], ended := some .interrupted }

def opening : Signal → List Window
  | .level true => [.opened]
  | _ => []

/- The windows after one more note, latest first. A level outside a window opens one or is
stray; an event belongs to the latest window. -/
def record (windows : List Window) (note : Note) : List Window :=
  match windows, note with
  | w :: rest, .took signal =>
    if w.ended = none then w.take signal :: rest else opening signal ++ w :: rest
  | [], .took signal => opening signal
  | w :: rest, .expired => { w with expired := true } :: rest
  | w :: rest, .hungUp =>
    if w.ended = none then { w with ended := some .closed } :: rest else w :: rest
  | w :: rest, .sent event =>
    { w with
      events := w.events ++ [event]
      held := w.held || decide (event = .powerButtonHeld ∧ w.ended = none) } :: rest
  | [], _ => []

def Lawful (w : Window) : Prop :=
  (w.held = true → w.expired = true) ∧
  w.events = if w.held then [.powerButtonHeld]
    else if w.ended = some .released then [.powerButtonPressed] else []

def presses (n : Nat) : List Signal := List.replicate n (.level true)

def tookPresses (n : Nat) : List Note := List.replicate n (.took (.level true))

inductive Drains (closed : Bool) : List Signal → Option Bool × List Note × List Signal → Prop where
  | released (n rest) : Drains closed (presses n ++ .level false :: rest)
      (some true,tookPresses n ++ [.took (.level false)],rest)
  | lost (n rest) : Drains closed (presses n ++ .interrupted :: rest)
      (some false,tookPresses n ++ [.took .interrupted],rest)
  | cut (n) (shut : closed = true) : Drains closed (presses n) (some false,tookPresses n ++ [.hungUp],[])
  | pressed (n) (open_ : closed = false) : Drains closed (presses n) (none,tookPresses n,[])

theorem drainCases (closed : Bool) (queue : List Signal) :
    Drains closed queue (drainRelease closed queue) := by
  induction queue with
  | nil =>
    cases closed with
    | true => exact .cut 0 rfl
    | false => exact .pressed 0 rfl
  | cons signal rest ih =>
    cases signal with
    | interrupted => exact .lost 0 rest
    | level pressed =>
      cases pressed with
      | false => exact .released 0 rest
      | true =>
        rw [drainRelease]
        generalize drainRelease closed rest = found at ih ⊢
        cases ih with
        | released n rest => exact .released (n + 1) rest
        | lost n rest => exact .lost (n + 1) rest
        | cut n shut => exact .cut (n + 1) shut
        | pressed n open_ => exact .pressed (n + 1) open_

inductive Polls (closed deliver : Bool) :
    List Signal → Phase → List Signal → Phase → List Note → Prop where
  | pending (phase) : Polls closed deliver [] phase [] phase []
  | over_ (queue) : Polls closed deliver queue .returned queue .returned []
  | ends (phase) (shut : closed = true) (running : phase ≠ .returned) :
      Polls closed deliver [] phase [] .returned [.hungUp]
  | opens (rest) : Polls closed deliver (.level true :: rest) .waiting rest (.pressed false false)
      [.took (.level true)]
  | stray (signal rest) (other : signal ≠ .level true) :
      Polls closed deliver (signal :: rest) .waiting rest .waiting [.took signal]
  | defers (n rest) : Polls closed deliver (presses n ++ .level false :: rest) (.pressed true false)
      rest (sending deliver .waiting)
      (tookPresses n ++ [.took (.level false),.sent .powerButtonPressed])
  | loses (n rest) : Polls closed deliver (presses n ++ .interrupted :: rest) (.pressed true false)
      rest .waiting (tookPresses n ++ [.took .interrupted])
  | cuts (n) (shut : closed = true) : Polls closed deliver (presses n) (.pressed true false)
      [] .waiting (tookPresses n ++ [.hungUp])
  | holds (n) (open_ : closed = false) : Polls closed deliver (presses n) (.pressed true false)
      [] (sending deliver (.pressed true true)) (tookPresses n ++ [.sent .powerButtonHeld])
  | releases (elapsed rest) : Polls closed deliver (.level false :: rest) (.pressed elapsed false)
      rest (sending deliver .waiting) [.took (.level false),.sent .powerButtonPressed]
  | letsGo (elapsed rest) : Polls closed deliver (.level false :: rest) (.pressed elapsed true)
      rest .waiting [.took (.level false)]
  | repeats (elapsed held rest) : Polls closed deliver (.level true :: rest) (.pressed elapsed held)
      rest (.pressed elapsed held) [.took (.level true)]
  | drops (elapsed held rest) : Polls closed deliver (.interrupted :: rest) (.pressed elapsed held)
      rest .waiting [.took .interrupted]

theorem pollCases (b : Button) (deliver : Bool) :
    Polls b.closed deliver b.queue b.phase (b.poll deliver).1.queue (b.poll deliver).1.phase
        (b.poll deliver).2 ∧ (b.poll deliver).1.closed = b.closed := by
  obtain ⟨queue,closed,phase⟩ := b
  cases phase with
  | returned => exact ⟨.over_ queue,rfl⟩
  | waiting =>
    match queue with
    | [] =>
      cases closed with
      | true => exact ⟨.ends .waiting rfl (by simp),rfl⟩
      | false => exact ⟨.pending .waiting,rfl⟩
    | .level true :: rest => exact ⟨.opens rest,rfl⟩
    | .level false :: rest => exact ⟨.stray _ rest (by simp),rfl⟩
    | .interrupted :: rest => exact ⟨.stray _ rest (by simp),rfl⟩
  | pressed elapsed held =>
    cases timely : elapsed && !held with
    | true =>
      rw [Bool.and_eq_true,Bool.not_eq_true'] at timely
      obtain ⟨rfl,rfl⟩ := timely
      have drained := drainCases closed queue
      simp only [Button.poll,Button.deadline,Bool.not_false,Bool.and_true,if_true]
      generalize drainRelease closed queue = found at drained ⊢
      cases drained with
      | released n rest =>
        refine ⟨?_,rfl⟩
        simpa using Polls.defers n rest
      | lost n rest => exact ⟨.loses n rest,rfl⟩
      | cut n shut => exact ⟨.cuts n shut,rfl⟩
      | pressed n open_ => exact ⟨.holds n open_,rfl⟩
    | false =>
      simp only [Button.poll,timely,Bool.false_eq_true,if_false]
      match queue with
      | [] =>
        cases closed with
        | true => exact ⟨.ends _ rfl (by simp),rfl⟩
        | false => exact ⟨.pending _,rfl⟩
      | .level true :: rest => exact ⟨.repeats elapsed held rest,rfl⟩
      | .interrupted :: rest => exact ⟨.drops elapsed held rest,rfl⟩
      | .level false :: rest =>
        cases held with
        | true => exact ⟨.letsGo elapsed rest,rfl⟩
        | false => exact ⟨.releases elapsed rest,rfl⟩

def Beside : Phase → List Window → Prop
  | .waiting, windows => ∀ w ∈ windows.head?, w.ended ≠ none
  | .pressed elapsed held, w :: _ => w.ended = none ∧ w.held = held ∧ w.expired = elapsed ∧
      ∀ signal ∈ w.signals, signal = .level true
  | .pressed _ _, [] => False
  | .returned, _ => True

def AllLawful (windows : List Window) : Prop := ∀ w ∈ windows, Lawful w

theorem recordPresses (n : Nat) {w : Window} (open_ : w.ended = none) (rest : List Window) :
    (tookPresses n).foldl record (w :: rest) =
      { w with signals := w.signals ++ presses n } :: rest := by
  induction n generalizing w with
  | zero => simp [tookPresses,presses]
  | succ n ih =>
    have first : record (w :: rest) (.took (.level true)) =
        { w with signals := w.signals ++ [.level true] } :: rest := if_pos open_
    show (tookPresses n).foldl record (record (w :: rest) (.took (.level true))) = _
    rw [first,@ih { w with signals := w.signals ++ [.level true] } open_,List.append_assoc]
    rfl

theorem pressesOnly {n : Nat} {signals : List Signal}
    (only : ∀ signal ∈ signals, signal = .level true) :
    ∀ signal ∈ signals ++ presses n, signal = .level true := by
  intro signal mem
  rcases List.mem_append.mp mem with mem | mem
  · exact only signal mem
  · exact List.eq_of_mem_replicate mem

theorem consLawful {w : Window} {rest : List Window} (first : Lawful w) (others : AllLawful rest) :
    AllLawful (w :: rest) := by
  intro v mem
  rcases List.mem_cons.mp mem with rfl | mem
  · exact first
  · exact others v mem

theorem besidePressed {elapsed held : Bool} {windows : List Window}
    (beside : Beside (.pressed elapsed held) windows) : ∃ w rest, windows = w :: rest ∧
      w.ended = none ∧ w.held = held ∧ w.expired = elapsed ∧
      ∀ signal ∈ w.signals, signal = .level true := by
  cases windows with
  | nil => cases beside
  | cons w rest => exact ⟨w,rest,rfl,beside⟩

structure Closes (w v : Window) : Prop where
  ended : v.ended ≠ none
  held : v.held = w.held
  expired : v.expired = w.expired
  events : v.events =
    w.events ++ if v.ended = some .released ∧ w.held = false then [.powerButtonPressed] else []

theorem closedLawful {w v : Window} {rest : List Window} {deliver : Bool} (open_ : w.ended = none)
    (lawful : AllLawful (w :: rest)) (closes : Closes w v) :
    Beside (sending deliver .waiting) (v :: rest) ∧ AllLawful (v :: rest) := by
  obtain ⟨timely,told⟩ := lawful w List.mem_cons_self
  refine ⟨?_,consLawful ⟨?_,?_⟩ fun u mem => lawful u (List.mem_cons_of_mem _ mem)⟩
  · cases deliver with
    | false => trivial
    | true =>
      intro u mem
      cases mem
      exact closes.ended
  · rw [closes.held,closes.expired]
    exact timely
  · rw [closes.events,told,closes.held,open_]
    cases w.held <;> simp

inductive Closing (held : Bool) : List Note → Prop where
  | short (pressed : held = false) : Closing held [.took (.level false),.sent .powerButtonPressed]
  | long (pressed : held = true) : Closing held [.took (.level false)]
  | lost : Closing held [.took .interrupted]
  | cut : Closing held [.hungUp]

theorem closingRecorded {w : Window} {rest : List Window} {notes : List Note} (open_ : w.ended = none)
    (closing : Closing w.held notes) : ∃ v, notes.foldl record (w :: rest) = v :: rest ∧ Closes w v := by
  obtain ⟨signals,expired,held,events,ended⟩ := w
  obtain rfl : ended = none := open_
  cases closing with
  | short pressed =>
    obtain rfl : held = false := pressed
    exact ⟨_,rfl,by simp [Window.take],rfl,rfl,rfl⟩
  | long pressed =>
    obtain rfl : held = true := pressed
    exact ⟨_,rfl,by simp [Window.take],rfl,rfl,(List.append_nil _).symm⟩
  | lost => exact ⟨_,rfl,by simp [Window.take],rfl,rfl,(List.append_nil _).symm⟩
  | cut => exact ⟨_,rfl,by simp,rfl,rfl,(List.append_nil _).symm⟩

theorem closingLawful {elapsed held : Bool} {windows : List Window} {notes : List Note} (n : Nat)
    (beside : Beside (.pressed elapsed held) windows) (lawful : AllLawful windows)
    (closing : Closing held notes) (deliver : Bool) :
    Beside (sending deliver .waiting) ((tookPresses n ++ notes).foldl record windows) ∧
      AllLawful ((tookPresses n ++ notes).foldl record windows) := by
  obtain ⟨w,rest,rfl,open_,rfl,_,_⟩ := besidePressed beside
  obtain ⟨v,recorded,closes⟩ :=
    @closingRecorded { w with signals := w.signals ++ presses n } rest notes open_ closing
  rw [List.foldl_append,recordPresses n open_,recorded]
  refine @closedLawful { w with signals := w.signals ++ presses n } v rest deliver open_ ?_ closes
  exact consLawful (lawful w List.mem_cons_self) fun u mem => lawful u (List.mem_cons_of_mem _ mem)

theorem waitingTakes {windows : List Window} (beside : Beside .waiting windows) (signal : Signal) :
    record windows (.took signal) = opening signal ++ windows := by
  cases windows with
  | nil => simp [record]
  | cons w rest => exact if_neg (beside w rfl)

theorem pollLawful {closed deliver : Bool} {queue queue' : List Signal} {phase phase' : Phase}
    {notes : List Note} (polls : Polls closed deliver queue phase queue' phase' notes)
    {windows : List Window} (beside : Beside phase windows) (lawful : AllLawful windows) :
    Beside phase' (notes.foldl record windows) ∧ AllLawful (notes.foldl record windows) := by
  cases polls with
  | pending => exact ⟨beside,lawful⟩
  | over_ => exact ⟨beside,lawful⟩
  | ends _ shut running =>
    cases phase with
    | returned => exact absurd rfl running
    | pressed elapsed held => exact ⟨trivial,(closingLawful 0 beside lawful .cut true).2⟩
    | waiting =>
      have same : [Note.hungUp].foldl record windows = windows := by
        cases windows with
        | nil => rfl
        | cons w rest => exact if_neg (beside w rfl)
      rw [same]
      exact ⟨trivial,lawful⟩
  | opens =>
    have opened : [Note.took (.level true)].foldl record windows = .opened :: windows :=
      waitingTakes beside _
    rw [opened]
    exact ⟨⟨rfl,rfl,rfl,by simp [Window.opened]⟩,consLawful ⟨nofun,rfl⟩ lawful⟩
  | stray signal rest other =>
    have same : [Note.took signal].foldl record windows = windows := by
      refine (waitingTakes beside signal).trans ?_
      match signal with
      | .level true => exact absurd rfl other
      | .level false | .interrupted => rfl
    rw [same]
    exact ⟨beside,lawful⟩
  | defers n => exact closingLawful n beside lawful (.short rfl) deliver
  | loses n => exact closingLawful n beside lawful .lost true
  | cuts n shut => exact closingLawful n beside lawful .cut true
  | holds n =>
    obtain ⟨w,rest,rfl,open_,isHeld,isExpired,only⟩ := besidePressed beside
    obtain ⟨_,told⟩ := lawful w List.mem_cons_self
    rw [List.foldl_append,recordPresses n open_]
    have heldOpen : [Note.sent .powerButtonHeld].foldl record
        ({ w with signals := w.signals ++ presses n } :: rest) =
          { w with
            signals := w.signals ++ presses n
            events := [.powerButtonHeld]
            held := true } :: rest := by
      simp [record,open_,told,isHeld]
    rw [heldOpen]
    refine ⟨?_,consLawful ⟨fun _ => isExpired,rfl⟩ fun u mem => lawful u (List.mem_cons_of_mem _ mem)⟩
    cases deliver with
    | false => trivial
    | true => exact ⟨open_,rfl,isExpired,pressesOnly only⟩
  | releases elapsed => exact closingLawful 0 beside lawful (.short rfl) deliver
  | letsGo elapsed => exact closingLawful 0 beside lawful (.long rfl) true
  | repeats elapsed held =>
    obtain ⟨w,rest,rfl,open_,isHeld,isExpired,only⟩ := besidePressed beside
    have taken : [Note.took (.level true)].foldl record (w :: rest) = _ := recordPresses 1 open_ rest
    rw [taken]
    exact ⟨⟨open_,isHeld,isExpired,pressesOnly only⟩,
      consLawful (lawful w List.mem_cons_self) fun u mem => lawful u (List.mem_cons_of_mem _ mem)⟩
  | drops elapsed held => exact closingLawful 0 beside lawful .lost true

def noteWindows (windows : List Window) (b : Button) (label : Label) : List Window :=
  (b.step label).2.foldl record windows

def watched : Button × List Window → Label → (Button × List Window) × List Note :=
  Machine.observed Button.step noteWindows

theorem stepLawful {b : Button} {windows : List Window} (label : Label)
    (beside : Beside b.phase windows) (lawful : AllLawful windows) :
    Beside (b.step label).1.phase (noteWindows windows b label) ∧
      AllLawful (noteWindows windows b label) := by
  cases label with
  | send signal =>
    simp only [noteWindows,Button.step]
    split <;> exact ⟨beside,lawful⟩
  | close => exact ⟨beside,lawful⟩
  | poll deliver => exact pollLawful (pollCases b deliver).1 beside lawful
  | expire =>
    obtain ⟨queue,closed,phase⟩ := b
    match phase with
    | .waiting | .returned | .pressed true held => exact ⟨beside,lawful⟩
    | .pressed false held =>
      obtain ⟨w,rest,rfl,open_,isHeld,_,only⟩ := besidePressed beside
      obtain ⟨_,told⟩ := lawful w List.mem_cons_self
      exact ⟨⟨open_,isHeld,rfl,only⟩,
        consLawful ⟨fun _ => rfl,told⟩ fun u mem => lawful u (List.mem_cons_of_mem _ mem)⟩

theorem runLawful {b : Button} {windows : List Window} (labels : List Label)
    (beside : Beside b.phase windows) (lawful : AllLawful windows) :
    Beside (Machine.run watched (b,windows) labels).1.phase
        (Machine.run watched (b,windows) labels).2 ∧
      AllLawful (Machine.run watched (b,windows) labels).2 := by
  induction labels generalizing b windows with
  | nil => exact ⟨beside,lawful⟩
  | cons label rest ih =>
    obtain ⟨beside',lawful'⟩ := stepLawful label beside lawful
    exact ih beside' lawful'

def HeldAlone (s : Button × List Window) (label : Label) : Prop :=
  .sent .powerButtonHeld ∈ (s.1.step label).2 → s.1.closed = false ∧
    ∃ w rest, s.2 = w :: rest ∧ w.ended = none ∧
      ∀ signal ∈ w.signals ++ s.1.queue, signal = .level true

theorem pollHolds {closed deliver : Bool} {queue queue' : List Signal} {phase phase' : Phase}
    {notes : List Note} (polls : Polls closed deliver queue phase queue' phase' notes)
    (held : .sent .powerButtonHeld ∈ notes) :
    closed = false ∧ phase = .pressed true false ∧ ∃ n, queue = presses n := by
  cases polls <;> simp [tookPresses] at held
  case holds n open_ => exact ⟨open_,rfl,n,rfl⟩

theorem holdsAlone {b : Button} {windows : List Window} (beside : Beside b.phase windows)
    (label : Label) : HeldAlone (b,windows) label := by
  intro held
  cases label with
  | send | close => cases held
  | expire =>
    simp only [Button.step] at held
    split at held <;> simp at held
  | poll deliver =>
    obtain ⟨open_,deadline,n,queued⟩ := pollHolds (pollCases b deliver).1 held
    rw [deadline] at beside
    obtain ⟨w,rest,same,live,_,_,only⟩ := besidePressed beside
    refine ⟨open_,w,rest,same,live,?_⟩
    rw [queued]
    exact pressesOnly only

theorem runHolds {b : Button} {windows : List Window} (labels : List Label)
    (beside : Beside b.phase windows) (lawful : AllLawful windows) :
    Machine.EachStep watched HeldAlone (b,windows) labels := by
  induction labels generalizing b windows with
  | nil => trivial
  | cons label rest ih =>
    obtain ⟨beside',lawful'⟩ := stepLawful label beside lawful
    exact ⟨holdsAlone beside label,ih beside' lawful'⟩

def tookSignal : Note → Option Signal
  | .took signal => some signal
  | _ => none

def accepted : Button → List Label → List Signal
  | _, [] => []
  | b, label :: rest =>
    (match label with
      | .send signal => if b.closed then [] else [signal]
      | _ => []) ++ accepted (b.step label).1 rest

def taken : Button → List Label → List Signal
  | _, [] => []
  | b, label :: rest => (b.step label).2.filterMap tookSignal ++ taken (b.step label).1 rest

theorem tookAll (n : Nat) : (tookPresses n).filterMap tookSignal = presses n := by
  induction n with
  | zero => rfl
  | succ n ih => exact congrArg (.level true :: ·) ih

theorem pollTakes {closed deliver : Bool} {queue queue' : List Signal} {phase phase' : Phase}
    {notes : List Note} (polls : Polls closed deliver queue phase queue' phase' notes) :
    queue = notes.filterMap tookSignal ++ queue' := by
  cases polls <;> first
    | rfl
    | simp [List.filterMap_append,tookAll,tookSignal,List.filterMap_cons]

theorem stepTakes (b : Button) (label : Label) :
    b.queue ++ accepted b [label] = (b.step label).2.filterMap tookSignal ++ (b.step label).1.queue := by
  cases label with
  | send signal => cases closed : b.closed <;> simp [accepted,Button.step,closed]
  | close => simp [accepted,Button.step]
  | expire =>
    obtain ⟨queue,closed,phase⟩ := b
    match phase with
    | .waiting | .returned | .pressed true held => simp [accepted,Button.step]
    | .pressed false held => simp [accepted,Button.step,tookSignal]
  | poll deliver =>
    rw [pollTakes (pollCases b deliver).1]
    simp [accepted,Button.step]

theorem runTakes (b : Button) (labels : List Label) : b.queue ++ accepted b labels =
    taken b labels ++ (Machine.run Button.step b labels).queue := by
  induction labels generalizing b with
  | nil => simp [accepted,taken,Machine.run]
  | cons label rest ih =>
    have here := stepTakes b label
    rw [show accepted b (label :: rest) = accepted b [label] ++ accepted (b.step label).1 rest by
      simp [accepted],← List.append_assoc,here,List.append_assoc,ih]
    simp [taken,Machine.run]

theorem recordFrame (w : Window) (rest old : List Window) (note : Note) :
    record (w :: rest ++ old) note = record (w :: rest) note ++ old ∧ record (w :: rest) note ≠ [] := by
  cases note with
  | took signal =>
    simp only [record,List.cons_append]
    split
    · exact ⟨rfl,List.cons_ne_nil _ _⟩
    · simp
  | hungUp =>
    simp only [record,List.cons_append]
    split <;> exact ⟨rfl,List.cons_ne_nil _ _⟩
  | expired | sent => exact ⟨rfl,List.cons_ne_nil _ _⟩

theorem foldFrame {windows : List Window} (some_ : windows ≠ []) (old : List Window)
    (notes : List Note) : notes.foldl record (windows ++ old) = notes.foldl record windows ++ old := by
  induction notes generalizing windows with
  | nil => rfl
  | cons note notes ih =>
    cases windows with
    | nil => exact absurd rfl some_
    | cons w rest =>
      obtain ⟨framed,left⟩ := recordFrame w rest old note
      rw [List.foldl_cons,List.foldl_cons,framed]
      exact ih left

theorem pollOutside {closed deliver : Bool} {queue queue' : List Signal} {phase phase' : Phase}
    {notes : List Note} (polls : Polls closed deliver queue phase queue' phase' notes)
    (outside : Beside phase []) : notes = [] ∨ notes = [.hungUp] ∨ ∃ signal, notes = [.took signal] := by
  cases polls with
  | pending | over_ => exact .inl rfl
  | ends => exact .inr (.inl rfl)
  | opens | stray => exact .inr (.inr ⟨_,rfl⟩)
  | _ => cases outside

theorem stepFrame {b : Button} {windows old : List Window} (label : Label)
    (beside : Beside b.phase windows) (shut : ∀ w ∈ old.head?, w.ended ≠ none) :
    noteWindows (windows ++ old) b label = noteWindows windows b label ++ old := by
  cases windows with
  | cons w rest => exact foldFrame (List.cons_ne_nil _ _) old _
  | nil =>
    have quiet : (b.step label).2 = [] ∨ (b.step label).2 = [.hungUp] ∨
        ∃ signal, (b.step label).2 = [.took signal] := by
      cases label with
      | send | close => exact .inl rfl
      | poll deliver => exact pollOutside (pollCases b deliver).1 beside
      | expire =>
        obtain ⟨queue,closed,phase⟩ := b
        match phase with
        | .waiting | .returned => exact .inl rfl
        | .pressed elapsed held => cases beside
    have stays : Beside .waiting old := shut
    rw [noteWindows,noteWindows,List.nil_append]
    rcases quiet with same | same | ⟨signal,same⟩ <;> rw [same]
    · rfl
    · cases old with
      | nil => rfl
      | cons w rest => exact if_neg (shut w rfl)
    · exact waitingTakes stays signal

theorem runFrame {b : Button} {windows old : List Window} (labels : List Label)
    (beside : Beside b.phase windows) (lawful : AllLawful windows)
    (shut : ∀ w ∈ old.head?, w.ended ≠ none) :
    Machine.run watched (b,windows ++ old) labels =
      ((Machine.run watched (b,windows) labels).1,(Machine.run watched (b,windows) labels).2 ++ old) := by
  induction labels generalizing b windows with
  | nil => rfl
  | cons label rest ih =>
    obtain ⟨beside',lawful'⟩ := stepLawful label beside lawful
    have framed : (watched (b,windows ++ old) label).1 =
        ((b.step label).1,noteWindows windows b label ++ old) :=
      congrArg (Prod.mk _) (stepFrame label beside shut)
    rw [Machine.run,framed]
    exact ih beside' lawful'

structure Yields (w : Window) : Prop where
  once : w.events.length ≤ 1
  timely : .powerButtonHeld ∈ w.events → w.expired = true
  released : w.ended = some .released →
    w.events = [if w.held then .powerButtonHeld else .powerButtonPressed]
  interrupted : w.ended = some .interrupted → w.expired = false → w.events = []
  silent : w.ended ≠ some .released → w.held = false → w.events = []

theorem Lawful.yields {w : Window} (lawful : Lawful w) : Yields w := by
  obtain ⟨timely,told⟩ := lawful
  cases held : w.held with
  | true =>
    rw [held,if_pos rfl] at told
    have expired := timely held
    refine ⟨by simp [told],fun _ => expired,fun _ => ?_,fun _ early => ?_,fun _ short => ?_⟩
    · rw [told,held,if_pos rfl]
    · rw [expired] at early
      cases early
    · rw [held] at short
      cases short
  | false =>
    rw [held,if_neg Bool.false_ne_true] at told
    have silent (other : w.ended ≠ some .released) : w.events = [] := by rw [told,if_neg other]
    refine ⟨?_,?_,?_,?_,fun other _ => silent other⟩
    · rw [told]
      split <;> decide
    · intro mem
      rw [told] at mem
      split at mem <;> simp at mem
    · intro ended
      rw [told,if_pos ended,held]
      rfl
    · intro ended _
      exact silent (by simp [ended])

/- Over every stream of levels, with the timer, the close and the turns of the task anywhere in
it: windows yield what they should, a hold is sent only where nothing but redundant levels has
come since the press, levels are taken in order, and what follows a window does not depend on it. -/
theorem shortPressesStayShort (labels : List Label) :
    let after := Machine.run watched (.fresh,[]) labels
    (∀ w ∈ after.2, Yields w) ∧ Machine.EachStep watched HeldAlone (.fresh,[]) labels ∧
    accepted .fresh labels = taken .fresh labels ++ after.1.queue ∧
    (after.1.phase = .waiting → ∀ more, Machine.run watched after more =
      ((Machine.run watched (after.1,[]) more).1,(Machine.run watched (after.1,[]) more).2 ++ after.2)) := by
  have start : Beside Button.fresh.phase [] := nofun
  have none_ : AllLawful [] := nofun
  obtain ⟨beside,lawful⟩ := runLawful labels start none_
  refine ⟨fun w mem => (lawful w mem).yields,runHolds labels start none_,?_,?_⟩
  · have order := runTakes .fresh labels
    rw [watched,Machine.observedRun]
    exact order
  · intro waits more
    rw [waits] at beside
    have fresh : Beside (Machine.run watched (.fresh,[]) labels).1.phase [] := by
      rw [waits]
      exact nofun
    exact runFrame more fresh none_ beside

def shortPress : List Label :=
  [.send (.level true),.poll true,.send (.level false),.expire,.poll true]

theorem shortPressThenHold : (Machine.run watched (Machine.run watched (.fresh,[]) shortPress)
      [.send (.level true),.poll true,.expire,.poll true]).2 =
    [⟨[.level true],true,true,[.powerButtonHeld],none⟩,
      ⟨[.level true,.level false],true,false,[.powerButtonPressed],some .released⟩] := by
  have apart := (shortPressesStayShort shortPress).2.2.2 (by decide)
    [.send (.level true),.poll true,.expire,.poll true]
  rw [apart]
  decide

end TelephoneBooth.PowerButton
