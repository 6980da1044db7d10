import TelephoneBooth.DebugControls

/-! What the debug surface's requests queue and what they are answered. A simulation injects the
beginning of what it was asked to, each event once and in order; a state query reads a state the core
was in after the query was made. -/
namespace TelephoneBooth.DebugControls
open State Event

section Turns
variable {config : Controls} {s t : Surface}

inductive Turn (config : Controls) (s : Surface) : Label → Surface → Prop
  | begins {asked} (other : asked ≠ .state)
      (allowed : asked.events ≠ [] → ensureControls config = none) :
      Turn config s (.ask asked)
        { s with requests := s.requests ++ [⟨asked,.sending asked.commands 0 false⟩] }
  | denies {asked why} (other : asked ≠ .state) (denied : ensureControls config = some why) :
      Turn config s (.ask asked)
        { s with requests := s.requests ++ [⟨asked,.answered (.denied why)⟩] }
  | queries (room : ¬(s.phase = .closed ∨ s.full)) :
      Turn config s (.ask .state) { s with
        requests := s.requests ++ [⟨.state,.awaiting⟩]
        commands := s.commands.send [⟨s.requests.length,.snapshot⟩] }
  | unqueued (noRoom : s.phase = .closed ∨ s.full) :
      Turn config s (.ask .state)
        { s with requests := s.requests ++ [⟨.state,.answered (.status (fallback s.ring))⟩] }
  | grants {number asked rest injected}
      (here : s.requests[number]? = some ⟨asked,.sending rest injected false⟩)
      (room : ¬(s.phase = .closed ∨ s.full)) :
      Turn config s (.grant number) (s.tell number ⟨asked,.sending rest injected true⟩)
  | sends {number asked command rest injected}
      (here : s.requests[number]? = some ⟨asked,.sending (command :: rest) injected true⟩) :
      Turn config s (.send number) { s.tell number ⟨asked,nextStage asked rest injected⟩ with
        commands := s.commands.send [⟨number,command⟩] }
  | refuses {number asked rest injected}
      (here : s.requests[number]? = some ⟨asked,.sending rest injected false⟩) :
      Turn config s (.refuse number) (s.tell number ⟨asked,.answered asked.refused⟩)
  | falls {label number} (here : s.requests[number]? = some ⟨.state,.awaiting⟩)
      (why : s.phase = .closed ∨ label = .time number) :
      Turn config s label (s.tell number ⟨.state,.answered (.status (fallback s.ring))⟩)
  | drops {number request} (here : s.requests[number]? = some request)
      (under : request.stage.over = false) :
      Turn config s (.drop number) (s.tell number ⟨request.asked,.dropped⟩)
  | injects {stamp place owner event commands}
      (received : s.commands.receive = some ((place,⟨owner,.injectEvent event⟩),commands))
      (on : config.allowControls = true) :
      Turn config s (.serve stamp)
        (Surface.handleEvent { s with commands } stamp (some owner) event)
  | objects {stamp place owner event commands}
      (received : s.commands.receive = some ((place,⟨owner,.injectEvent event⟩),commands))
      (off : ¬config.allowControls = true) :
      Turn config s (.serve stamp) (Surface.note { s with commands } stamp
        [.error "booth_bin::debug" "debug controls are disabled"])
  | replies {stamp place owner commands}
      (received : s.commands.receive = some ((place,⟨owner,.snapshot⟩),commands))
      (here : s.requests[owner]? = some ⟨.state,.awaiting⟩) :
      Turn config s (.serve stamp) (Surface.tell { s with commands } owner
        ⟨.state,.answered (.status (statusFromCore s.core))⟩)
  | unheard {stamp place owner commands}
      (received : s.commands.receive = some ((place,⟨owner,.snapshot⟩),commands))
      (gone : s.requests[owner]? ≠ some ⟨.state,.awaiting⟩) :
      Turn config s (.serve stamp) { s with commands }
  | quits {stamp place owner commands}
      (received : s.commands.receive = some ((place,⟨owner,.shutdown⟩),commands)) :
      Turn config s (.serve stamp) { s with commands, phase := .leaving }
  | handles {event stamp} : Turn config s (.handle event stamp) (s.handleEvent stamp none event)
  | publishes {record} (apart : record.event.isTransition = false) :
      Turn config s (.publish record) { s with ring := s.ring.push record }
  | gates {accepting} : Turn config s (.gate accepting) { s with accepting }
  | leaves (running : s.phase = .running) : Turn config s .leave { s with phase := .leaving }
  | closes (leaving : s.phase = .leaving) : Turn config s .close { s with phase := .closed }

theorem askTurn (asked : Asked) : Turn config s (.ask asked) (s.ask config asked) := by
  unfold Surface.ask
  cases asked with
  | state =>
    dsimp only
    split
    · exact .unqueued ‹_›
    · exact .queries ‹_›
  | quit => exact .begins (by simp) fun some_ => absurd rfl some_
  | simulateEvent | simulatePulse =>
    dsimp only
    cases gate : ensureControls config with
    | some why => exact .denies (by simp) gate
    | none => exact .begins (by simp) fun _ => gate

theorem serveTurn {stamp : Nat → Nat × Nat} {place : Nat} {queued : Queued}
    {commands : Channel Queued} (received : s.commands.receive = some ((place,queued),commands)) :
    Turn config s (.serve stamp) (Surface.obey config { s with commands } stamp queued) := by
  obtain ⟨owner,command⟩ := queued
  unfold Surface.obey
  cases command with
  | injectEvent event =>
    dsimp only
    split
    · exact .injects received ‹_›
    · exact .objects received ‹_›
  | snapshot =>
    dsimp only
    split
    · exact .replies received ‹_›
    · exact .unheard received ‹_›
  | shutdown => exact .quits received

theorem stepTurn {label : Label} (enabled : s.step config label = some t) :
    Turn config s label t := by
  unfold Surface.step at enabled
  cases label with
  | ask asked =>
    obtain rfl := Option.some.inj enabled
    exact askTurn asked
  | grant number =>
    dsimp only at enabled
    split at enabled
    · rename_i here
      split at enabled
      · cases enabled
      · obtain rfl := Option.some.inj enabled
        exact .grants here ‹_›
    · cases enabled
  | send number =>
    dsimp only at enabled
    split at enabled
    · rename_i here
      obtain rfl := Option.some.inj enabled
      exact .sends here
    · cases enabled
  | refuse number =>
    dsimp only at enabled
    split at enabled
    · rename_i here
      split at enabled
      · obtain rfl := Option.some.inj enabled
        exact .refuses here
      · cases enabled
    · cases enabled
  | time number =>
    dsimp only at enabled
    split at enabled
    · obtain rfl := Option.some.inj enabled
      exact .falls ‹_› (.inr rfl)
    · cases enabled
  | hangUp number =>
    dsimp only at enabled
    split at enabled
    · rename_i closed
      obtain rfl := Option.some.inj enabled
      exact .falls closed.2 (.inl closed.1)
    · cases enabled
  | drop number =>
    obtain ⟨request,here,next⟩ := Option.bind_eq_some_iff.mp enabled
    split at next
    · cases next
    · rename_i under
      obtain rfl := Option.some.inj next
      exact .drops here (Bool.eq_false_iff.mpr under)
  | serve stamp =>
    dsimp only at enabled
    split at enabled
    · obtain ⟨received,got,rfl⟩ := Option.map_eq_some_iff.mp enabled
      exact serveTurn got
    · cases enabled
  | handle event stamp =>
    dsimp only at enabled
    split at enabled
    · obtain rfl := Option.some.inj enabled
      exact .handles
    · cases enabled
  | gate accepting =>
    obtain rfl := Option.some.inj enabled
    exact .gates
  | publish record =>
    dsimp only at enabled
    split at enabled
    · cases enabled
    · rename_i apart
      obtain rfl := Option.some.inj enabled
      exact .publishes (Bool.eq_false_iff.mpr apart)
  | leave =>
    dsimp only at enabled
    split at enabled
    · obtain rfl := Option.some.inj enabled
      exact .leaves ‹_›
    · cases enabled
  | close =>
    dsimp only at enabled
    split at enabled
    · obtain rfl := Option.some.inj enabled
      exact .closes ‹_›
    · cases enabled

end Turns

section Requests
variable {config : Controls} {s t : Surface} {number : Nat}

def Surface.sentBy (s : Surface) (number : Nat) : List Command :=
  (s.commands.log.filter fun queued => queued.owner == number).map Queued.command

def Stage.Sent (config : Controls) (asked : Asked) (sent : List Command) : Stage → Prop
  | sending rest injected _ => sent ++ rest = asked.commands ∧ rest ≠ [] ∧ injected = sent.length ∧
      asked ≠ .state
  | awaiting => asked = .state
  | answered (.accepted injected) => sent = asked.commands ∧ injected = asked.commands.length
  | answered (.denied why) => ensureControls config = some why ∧ asked ≠ .state
  | answered (.status _) => asked = .state
  | answered _ | dropped => True

structure Sent (config : Controls) (request : Request) (sent : List Command) : Prop where
  part : sent <+: request.asked.commands
  stage : request.stage.Sent config request.asked sent
  allowed : request.asked.events ≠ [] → ∀ why, ensureControls config = some why →
    request.stage = .answered (.denied why) ∧ sent = []

structure Asks (config : Controls) (s : Surface) : Prop where
  sent : ∀ (number : Nat) request, s.requests[number]? = some request →
    Sent config request (s.sentBy number)
  owners : ∀ queued ∈ s.commands.log, queued.owner < s.requests.length
  awaits : ∀ number : Nat, s.requests[number]? = some ⟨.state,.awaiting⟩ →
    ∃ place, s.commands.taken ≤ place ∧ s.commands.log[place]? = some ⟨number,.snapshot⟩

theorem commandsSome (asked : Asked) : asked.commands ≠ [] := by
  cases asked with
  | simulatePulse count => simp [Asked.commands,Asked.events]
  | simulateEvent | state | quit => exact List.cons_ne_nil _ _

theorem commandsFew (asked : Asked) : asked.commands.length ≤ 256 := by
  cases asked with
  | simulatePulse count =>
    have small := count.toNat_lt
    simp only [Asked.commands,Asked.events,List.length_map,List.length_append,List.length_replicate,
      List.length_singleton]
    omega
  | simulateEvent | state | quit => exact Nat.le_of_ble_eq_true rfl

theorem setFound {requests : List Request} {i : Nat} {old request found : Request}
    (here : requests[number]? = some old) (after : (requests.set number request)[i]? = some found) :
    i = number ∧ found = request ∨ i ≠ number ∧ requests[i]? = some found := by
  by_cases same : number = i
  · subst same
    rw [List.getElem?_set_self (List.getElem?_eq_some_iff.mp here).1] at after
    exact .inl ⟨rfl,(Option.some.inj after).symm⟩
  · rw [List.getElem?_set_ne same] at after
    exact .inr ⟨fun back => same back.symm,after⟩

theorem tellAsks {request : Request} {stage : Stage} (asks : Asks config s)
    (here : s.requests[number]? = some request)
    (sent : Sent config ⟨request.asked,stage⟩ (s.sentBy number))
    (calm : request.asked = .state → stage ≠ .awaiting) :
    Asks config (s.tell number ⟨request.asked,stage⟩) := by
  refine ⟨fun i found after => ?_,fun queued mem => ?_,fun i after => ?_⟩
  · rcases setFound here after with ⟨rfl,rfl⟩ | ⟨_,before⟩
    · exact sent
    · exact asks.sent i found before
  · rw [Surface.tell,List.length_set]
    exact asks.owners queued mem
  · rcases setFound here after with ⟨rfl,same⟩ | ⟨_,before⟩
    · injection same with asked awaiting
      exact absurd awaiting.symm (calm asked.symm)
    · exact asks.awaits i before

theorem Sent.waiting {request : Request} {sent : List Command} (before : Sent config request sent)
    (asked : request.asked = .state) {stage : Stage} (after : stage.Sent config request.asked sent) :
    Sent config ⟨request.asked,stage⟩ sent :=
  ⟨before.part,after,fun some_ => absurd (by rw [asked]; rfl) some_⟩

theorem Sent.sending {asked : Asked} {rest sent : List Command} {injected : Nat} {permit : Bool}
    (before : Sent config ⟨asked,.sending rest injected permit⟩ sent) {stage : Stage}
    {later : List Command} (part : later <+: asked.commands)
    (after : stage.Sent config asked later) : Sent config ⟨asked,stage⟩ later :=
  ⟨part,after,fun some_ why denied => (by cases (before.allowed some_ why denied).1)⟩

theorem Asks.same (asks : Asks config s) (requests : t.requests = s.requests)
    (commands : t.commands = s.commands) : Asks config t := by
  cases s
  cases t
  obtain rfl := requests
  obtain rfl := commands
  exact ⟨asks.sent,asks.owners,asks.awaits⟩

theorem ownNothing (asks : Asks config s) {i : Nat} (beyond : s.requests.length ≤ i) :
    s.sentBy i = [] := by
  rw [Surface.sentBy,List.map_eq_nil_iff,List.filter_eq_nil_iff]
  intro queued mem
  have inside := asks.owners queued mem
  rw [beq_iff_eq]
  omega

theorem sentSend (commands : t.commands = s.commands.send [⟨number,command⟩]) (i : Nat) :
    t.sentBy i = s.sentBy i ++ if i = number then [command] else [] := by
  unfold Surface.sentBy
  rw [commands]
  simp only [Channel.send,List.filter_append,List.map_append]
  congr 1
  by_cases same : i = number
  · subst same
    simp
  · have apart : (number == i) = false := beq_false_of_ne (Ne.symm same)
    simp [apart,same]

theorem sentStays {commands : Channel Queued} {items : List Queued} {place : Nat} {queued : Queued}
    (found : commands.log[place]? = some queued) :
    (commands.send items).log[place]? = some queued :=
  (List.getElem?_append_left (List.getElem?_eq_some_iff.mp found).1).trans found

theorem snocFound {requests : List Request} {request found : Request} {i : Nat}
    (after : (requests ++ [request])[i]? = some found) :
    i = requests.length ∧ found = request ∨ i < requests.length ∧ requests[i]? = some found := by
  rcases Nat.lt_trichotomy i requests.length with inside | rfl | beyond
  · rw [List.getElem?_append_left inside] at after
    exact .inr ⟨inside,after⟩
  · rw [List.getElem?_concat_length] at after
    exact .inl ⟨rfl,(Option.some.inj after).symm⟩
  · rw [List.getElem?_eq_none (by rw [List.length_append,List.length_singleton]; omega)] at after
    cases after

theorem beginAsks {asked : Asked} {stage : Stage} (asks : Asks config s)
    (sent : Sent config ⟨asked,stage⟩ []) (calm : stage ≠ .awaiting) :
    Asks config { s with requests := s.requests ++ [⟨asked,stage⟩] } := by
  refine ⟨fun i found after => ?_,fun queued mem => ?_,fun i after => ?_⟩
  · rcases snocFound after with ⟨rfl,rfl⟩ | ⟨_,before⟩
    · exact (ownNothing asks le_rfl).symm ▸ sent
    · exact asks.sent i found before
  · have inside := asks.owners queued mem
    rw [List.length_append]
    omega
  · rcases snocFound after with ⟨rfl,same⟩ | ⟨_,before⟩
    · injection same with _ awaiting
      exact absurd awaiting.symm calm
    · exact asks.awaits i before

theorem queryAsks (asks : Asks config s) :
    Asks config { s with
      requests := s.requests ++ [⟨.state,.awaiting⟩]
      commands := s.commands.send [⟨s.requests.length,.snapshot⟩] } := by
  refine ⟨fun i found after => ?_,fun queued mem => ?_,fun i after => ?_⟩
  · rw [sentSend (s := s) rfl]
    rcases snocFound after with ⟨rfl,rfl⟩ | ⟨inside,before⟩
    · rw [ownNothing asks le_rfl,if_pos rfl]
      exact ⟨List.prefix_refl _,rfl,fun some_ => absurd rfl some_⟩
    · rw [if_neg (by omega),List.append_nil]
      exact asks.sent i found before
  · rw [List.length_append,List.length_singleton]
    rcases List.mem_append.mp mem with old | new_
    · have inside := asks.owners queued old
      omega
    · rw [List.mem_singleton.mp new_]
      exact Nat.lt_succ_self _
  · rcases snocFound after with ⟨rfl,_⟩ | ⟨_,before⟩
    · exact ⟨s.commands.log.length,s.commands.bounded,List.getElem?_concat_length⟩
    · obtain ⟨place,later,found⟩ := asks.awaits i before
      exact ⟨place,later,sentStays found⟩

theorem sendAsks {asked : Asked} {command : Command} {rest : List Command} {injected : Nat}
    {permit : Bool} {stage : Stage} (asks : Asks config s)
    (here : s.requests[number]? = some ⟨asked,.sending (command :: rest) injected permit⟩)
    (calm : stage ≠ .awaiting)
    (after : stage.Sent config asked (s.sentBy number ++ [command])) :
    Asks config { s.tell number ⟨asked,stage⟩ with
      commands := s.commands.send [⟨number,command⟩] } := by
  have before := asks.sent number _ here
  obtain ⟨whole,_,_,_⟩ := before.stage
  have part : s.sentBy number ++ [command] <+: asked.commands :=
    ⟨rest,by rw [List.append_assoc]; exact whole⟩
  refine ⟨fun i found later => ?_,fun queued mem => ?_,fun i later => ?_⟩
  · rw [sentSend (s := s) rfl]
    rcases setFound here later with ⟨rfl,rfl⟩ | ⟨apart,old⟩
    · rw [if_pos rfl]
      exact before.sending part after
    · rw [if_neg apart,List.append_nil]
      exact asks.sent i found old
  · rw [Surface.tell,List.length_set]
    rcases List.mem_append.mp mem with old | new_
    · exact asks.owners queued old
    · rw [List.mem_singleton.mp new_]
      exact (List.getElem?_eq_some_iff.mp here).1
  · rcases setFound here later with ⟨rfl,same⟩ | ⟨_,old⟩
    · injection same with _ awaiting
      exact absurd awaiting.symm calm
    · obtain ⟨place,later,found⟩ := asks.awaits i old
      exact ⟨place,later,sentStays found⟩

theorem awaitsTaken {commands : Channel Queued} {place i : Nat} {queued : Queued}
    (asks : Asks config s) (received : s.commands.receive = some ((place,queued),commands))
    (waits : s.requests[i]? = some ⟨.state,.awaiting⟩) (other : queued ≠ ⟨i,.snapshot⟩) :
    ∃ place, commands.taken ≤ place ∧ commands.log[place]? = some ⟨i,.snapshot⟩ := by
  obtain ⟨here,found,log,taken⟩ := Channel.receiveCases received
  obtain ⟨later,low,queuedAt⟩ := asks.awaits i waits
  have apart : later ≠ place := fun same =>
    other (Option.some.inj (found.symm.trans (same ▸ queuedAt)))
  exact ⟨later,by omega,log ▸ queuedAt⟩

theorem sentTaken {commands : Channel Queued} {place : Nat} {queued : Queued}
    (received : s.commands.receive = some ((place,queued),commands)) (i : Nat) :
    Surface.sentBy { s with commands } i = s.sentBy i := by
  obtain ⟨_,_,log,_⟩ := Channel.receiveCases received
  rw [Surface.sentBy,Surface.sentBy,log]

theorem takeAsks {commands : Channel Queued} {place : Nat} {queued : Queued}
    (asks : Asks config s) (received : s.commands.receive = some ((place,queued),commands))
    (other : ∀ i : Nat, s.requests[i]? = some ⟨.state,.awaiting⟩ → queued ≠ ⟨i,.snapshot⟩) :
    Asks config { s with commands } := by
  obtain ⟨_,_,log,_⟩ := Channel.receiveCases received
  exact ⟨fun i request here => sentTaken received i ▸ asks.sent i request here,
    log ▸ asks.owners,fun i here => awaitsTaken asks received here (other i here)⟩

theorem replyAsks {commands : Channel Queued} {place owner : Nat} {answer : StatusSnapshot}
    (asks : Asks config s)
    (received : s.commands.receive = some ((place,⟨owner,.snapshot⟩),commands))
    (here : s.requests[owner]? = some ⟨.state,.awaiting⟩) :
    Asks config (Surface.tell { s with commands } owner ⟨.state,.answered (.status answer)⟩) := by
  obtain ⟨_,_,log,_⟩ := Channel.receiveCases received
  refine ⟨fun i request found => ?_,fun queued mem => ?_,fun i found => ?_⟩
  · change Sent config request (Surface.sentBy { s with commands } i)
    rw [sentTaken received i]
    rcases setFound here found with ⟨rfl,rfl⟩ | ⟨_,before⟩
    · exact (asks.sent i _ here).waiting rfl rfl
    · exact asks.sent i request before
  · have inside := asks.owners queued (log ▸ mem)
    change queued.owner < (s.requests.set owner _).length
    rw [List.length_set]
    exact inside
  · rcases setFound here found with ⟨_,same⟩ | ⟨apart,before⟩
    · cases same
    · exact awaitsTaken asks received before fun same => apart (by cases same; rfl)

theorem stepAsks {label : Label} (asks : Asks config s) (turn : Turn config s label t) :
    Asks config t := by
  cases turn with
  | begins other allowed =>
    exact beginAsks asks ⟨List.nil_prefix,⟨rfl,commandsSome _,rfl,other⟩,fun some_ why denied =>
      (by cases (allowed some_).symm.trans denied)⟩ (by simp)
  | denies other denied =>
    exact beginAsks asks ⟨List.nil_prefix,⟨denied,other⟩,fun _ why same =>
      ⟨by rw [Option.some.inj (denied.symm.trans same)],rfl⟩⟩ (by simp)
  | queries room => exact queryAsks asks
  | unqueued noRoom =>
    exact beginAsks asks ⟨List.nil_prefix,rfl,fun some_ => absurd rfl some_⟩ (by simp)
  | @grants number _ _ _ here room =>
    have before := asks.sent number _ here
    exact tellAsks asks here (before.sending before.part before.stage) (by simp)
  | @sends number asked command rest injected here =>
    obtain ⟨whole,_,count,calls⟩ := (asks.sent number _ here).stage
    have few := commandsFew asked
    rw [← whole,List.length_append,List.length_cons] at few
    have next : min (injected + 1) 65535 = (s.sentBy number ++ [command]).length := by
      rw [List.length_append,List.length_singleton]
      omega
    have longer : s.sentBy number ++ [command] ++ rest = asked.commands := by
      rw [List.append_assoc]
      exact whole
    unfold nextStage
    dsimp only
    split
    · rename_i done
      refine sendAsks asks here (by simp) ?_
      rw [done,List.append_nil] at longer
      unfold Asked.sentAll
      split
      · trivial
      · exact ⟨longer,longer ▸ next⟩
    · rename_i more
      exact sendAsks asks here (by simp) ⟨longer,more,next,calls⟩
  | @refuses number asked _ _ here =>
    have before := asks.sent number _ here
    refine tellAsks asks here (before.sending before.part ?_) (by simp)
    unfold Asked.refused
    split <;> trivial
  | @falls _ number here why =>
    exact tellAsks asks here ((asks.sent number _ here).waiting rfl rfl) (by simp)
  | @drops number _ here under =>
    have before := asks.sent number _ here
    refine tellAsks asks here ⟨before.part,trivial,fun some_ why denied => ?_⟩ (by simp)
    rw [(before.allowed some_ why denied).1] at under
    cases under
  | injects received on =>
    exact (takeAsks asks received fun _ _ same => (by cases same)).same rfl rfl
  | objects received off =>
    exact (takeAsks asks received fun _ _ same => (by cases same)).same rfl rfl
  | quits received =>
    exact (takeAsks asks received fun _ _ same => (by cases same)).same rfl rfl
  | replies received here => exact replyAsks asks received here
  | unheard received gone =>
    exact takeAsks asks received fun i waits same => gone (by cases same; exact waits)
  | handles | publishes | gates | leaves | closes => exact asks.same rfl rfl

end Requests

section Room
variable {config : Controls} {s t : Surface} {number : Nat}

theorem tellPermits {request : Request} (stage : Stage)
    (here : s.requests[number]? = some request) :
    (s.tell number ⟨request.asked,stage⟩).permits + request.stage.permitted.toNat =
      s.permits + stage.permitted.toNat := by
  obtain ⟨inside,same⟩ := List.getElem?_eq_some_iff.mp here
  have some_ := List.boole_getElem_le_countP
    (p := fun request : Request => request.stage.permitted) inside
  unfold Surface.permits Surface.tell
  rw [List.countP_set inside]
  rw [same] at some_ ⊢
  generalize List.countP _ s.requests = total at some_ ⊢
  revert some_
  dsimp only
  cases request.stage.permitted <;> cases stage.permitted <;>
    simp only [Bool.false_eq_true,if_true,if_false,Bool.toNat_true,Bool.toNat_false] <;> omega

theorem beginPermits (s : Surface) (request : Request) :
    Surface.permits { s with requests := s.requests ++ [request] } =
      s.permits + request.stage.permitted.toNat := by
  unfold Surface.permits
  rw [List.countP_append,List.countP_singleton]
  cases request.stage.permitted <;> rfl

theorem sendWaiting {queued : Queued} (commands : t.commands = s.commands.send [queued]) :
    t.waiting = s.waiting + 1 := by
  have fits := s.commands.bounded
  unfold Surface.waiting
  rw [commands]
  change (s.commands.log ++ [queued]).length - s.commands.taken = _
  rw [List.length_append,List.length_singleton]
  omega

def Fits (s : Surface) : Prop := s.waiting + s.permits ≤ commandChannel

theorem tellFits (request : Request) {stage : Stage} (fits : Fits s)
    (here : s.requests[number]? = some request) (none_ : stage.permitted = false) :
    Fits (s.tell number ⟨request.asked,stage⟩) := by
  have permits := tellPermits stage here
  rw [none_] at permits
  unfold Fits at fits ⊢
  change s.waiting + _ ≤ _
  change _ = s.permits + 0 at permits
  omega

theorem beginFits {asked : Asked} {stage : Stage} (fits : Fits s)
    (none_ : stage.permitted = false) :
    Fits { s with requests := s.requests ++ [⟨asked,stage⟩] } := by
  have permits := beginPermits s ⟨asked,stage⟩
  rw [none_] at permits
  unfold Fits at fits ⊢
  rw [permits]
  exact fits

theorem takeFits {commands : Channel Queued} {place : Nat} {queued : Queued} (fits : Fits s)
    (received : s.commands.receive = some ((place,queued),commands)) : Fits { s with commands } := by
  obtain ⟨_,_,log,_⟩ := Channel.receiveCases received
  have low := Channel.receivedTaken received
  have less : Surface.waiting { s with commands } ≤ s.waiting := by
    unfold Surface.waiting
    change commands.log.length - commands.taken ≤ _
    rw [log]
    omega
  exact (Nat.add_le_add_right less _).trans fits

theorem stepFits {label : Label} (fits : Fits s) (turn : Turn config s label t) : Fits t := by
  cases turn with
  | begins | denies | unqueued => exact beginFits fits rfl
  | queries room =>
    have free := Nat.lt_of_not_le fun full => room (.inr full)
    have permits := beginPermits s ⟨.state,.awaiting⟩
    unfold Fits
    rw [sendWaiting (s := s) rfl]
    change s.waiting + 1 + Surface.permits { s with requests := s.requests ++ [_] } ≤ _
    rw [permits]
    change s.waiting + 1 + (s.permits + 0) ≤ _
    omega
  | @grants number asked rest injected here room =>
    have free := Nat.lt_of_not_le fun full => room (.inr full)
    have permits := tellPermits (.sending rest injected true) here
    change (s.tell number ⟨asked,.sending rest injected true⟩).permits + 0 = s.permits + 1
      at permits
    unfold Fits
    change s.waiting + _ ≤ _
    omega
  | @sends number asked command rest injected here =>
    have none_ : (nextStage asked rest injected).permitted = false := by
      unfold nextStage
      dsimp only
      split <;> rfl
    have permits := tellPermits (nextStage asked rest injected) here
    rw [none_] at permits
    change (s.tell number ⟨asked,nextStage asked rest injected⟩).permits + 1 = s.permits + 0
      at permits
    unfold Fits at fits ⊢
    rw [sendWaiting (s := s) rfl]
    change s.waiting + 1 + (s.tell number ⟨asked,nextStage asked rest injected⟩).permits ≤ _
    omega
  | refuses here | drops here => exact tellFits _ fits here rfl
  | falls here why => exact tellFits ⟨.state,.awaiting⟩ fits here rfl
  | injects received | objects received | unheard received | quits received =>
    have taken := takeFits fits received
    exact taken
  | @replies _ _ _ commands received here =>
    exact tellFits (s := { s with commands }) ⟨.state,.awaiting⟩ (takeFits fits received) here rfl
  | handles | publishes | gates | leaves | closes => exact fits

end Room

section Ledger
variable {config : Controls} {s t : Surface}

def Queued.injects (queued : Queued) : Option (Nat × Event) :=
  match queued.command with
  | .injectEvent event => some (queued.owner,event)
  | .snapshot | .shutdown => none

def Surface.injected (s : Surface) : List (Nat × Event) :=
  (s.commands.log.take s.commands.taken).filterMap Queued.injects

def Surface.injections (s : Surface) : List (Nat × Event) :=
  s.handled.filterMap fun given => given.1.map fun owner => (owner,given.2.1)

theorem injectAllowed (asks : Asks config s) {owner : Nat} {event : Event}
    (mem : (⟨owner,.injectEvent event⟩ : Queued) ∈ s.commands.log) :
    ensureControls config = none := by
  obtain ⟨request,here⟩ : ∃ request, s.requests[owner]? = some request :=
    ⟨_,List.getElem?_eq_getElem (asks.owners _ mem)⟩
  have sent := asks.sent owner request here
  have inside : Command.injectEvent event ∈ s.sentBy owner :=
    List.mem_map.mpr ⟨_,List.mem_filter.mpr ⟨mem,beq_self_eq_true owner⟩,rfl⟩
  have part := sent.part.subset inside
  by_contra denied
  obtain ⟨why,denied⟩ := Option.ne_none_iff_exists'.mp denied
  have some_ : request.asked.events ≠ [] := by
    intro none_
    cases asked : request.asked <;> simp [asked,Asked.events,Asked.commands] at none_ part
  rw [(sent.allowed some_ why denied).2] at inside
  cases inside

theorem allowedControls (none_ : ensureControls config = none) : config.allowControls = true := by
  by_contra off
  rw [ensureControls,if_pos (by simpa using off)] at none_
  cases none_

structure Ledger (initial : State) (s : Surface) : Prop where
  injections : s.injections = s.injected
  core : s.core = coreRun initial (s.handled.map Prod.snd)

theorem handleLedger {initial : State} {stamp : Nat → Nat × Nat} {origin : Option Nat} {event : Event}
    (core : s.core = coreRun initial (s.handled.map Prod.snd)) :
    (s.handleEvent stamp origin event).core =
      coreRun initial ((s.handleEvent stamp origin event).handled.map Prod.snd) := by
  unfold Surface.handleEvent
  dsimp only
  have before : Machine.run coreStep initial (s.handled.map Prod.snd) = s.core := core.symm
  rw [List.map_append,coreRun,Machine.runAppend,before]
  rfl

theorem Ledger.aside {initial : State} (ledger : Ledger initial s) (core : t.core = s.core)
    (handled : t.handled = s.handled) (taken : t.commands.taken = s.commands.taken)
    (log : s.commands.log <+: t.commands.log) : Ledger initial t := by
  obtain ⟨more,log⟩ := log
  refine ⟨?_,by rw [core,handled]; exact ledger.core⟩
  rw [Surface.injections,handled,Surface.injected,← log,taken,
    List.take_append_of_le_length s.commands.bounded]
  exact ledger.injections

theorem injectedTaken {commands : Channel Queued} {place : Nat} {queued : Queued}
    (received : s.commands.receive = some ((place,queued),commands)) :
    Surface.injected { s with commands } = s.injected ++ queued.injects.toList := by
  obtain ⟨here,found,log,taken⟩ := Channel.receiveCases received
  have more : s.commands.log.take (s.commands.taken + 1) =
      s.commands.log.take s.commands.taken ++ [queued] := by
    rw [List.take_add_one,← here,found]
    rfl
  change (commands.log.take commands.taken).filterMap Queued.injects = _
  rw [log,taken,here,more,List.filterMap_append]
  rfl

theorem stepLedger {initial : State} {label : Label} (asks : Asks config s)
    (ledger : Ledger initial s) (turn : Turn config s label t) : Ledger initial t := by
  cases turn with
  | begins | denies | unqueued | grants | refuses | falls | drops | gates | leaves | closes =>
    exact ledger.aside rfl rfl rfl (List.prefix_refl _)
  | queries | sends => exact ledger.aside rfl rfl rfl (List.prefix_append _ _)
  | publishes => exact ⟨ledger.injections,ledger.core⟩
  | @handles event stamp =>
    refine ⟨?_,handleLedger ledger.core⟩
    have given : (s.handleEvent stamp none event).injections = s.injections ++ [] :=
      List.filterMap_append ..
    exact given.trans ((List.append_nil _).trans ledger.injections)
  | @injects stamp place owner event commands received on =>
    refine ⟨?_,handleLedger ledger.core⟩
    have given : Surface.injections (Surface.handleEvent { s with commands } stamp (some owner)
        event) = s.injections ++ [(owner,event)] := List.filterMap_append ..
    rw [given,ledger.injections]
    exact (injectedTaken received).symm
  | objects received off =>
    obtain ⟨_,found,_,_⟩ := Channel.receiveCases received
    exact absurd (allowedControls (injectAllowed asks (List.mem_of_getElem? found))) off
  | replies received | unheard received | quits received =>
    refine ⟨?_,ledger.core⟩
    have same := injectedTaken received
    exact ledger.injections.trans ((List.append_nil _).symm.trans same.symm)

end Ledger

section Surfaces
variable {config : Controls} {s t : Surface}

theorem stepShows {label : Label} (shows_ : Shows s.core.tag s.ring)
    (turn : Turn config s label t) : Shows t.core.tag t.ring := by
  cases turn with
  | handles => exact handleShows shows_
  | @injects _ _ _ _ commands _ _ => exact handleShows (s := { s with commands }) shows_
  | @objects _ _ _ _ commands _ _ =>
    refine noteShows (s := { s with commands }) shows_ (fun event mem target is => ?_) (.inl rfl)
    rw [List.mem_singleton.mp mem] at is
    cases is
  | @publishes record apart =>
    have plain (target : String) (is : record.event = .stateTransition target) :
        target = s.core.tag := by
      rw [is] at apart
      cases apart
    by_cases silent : snapshotOf record.event = none
    · exact pushShows shows_ (.inl ⟨silent,rfl⟩)
    · exact pushShows shows_ (.inr ⟨silent,plain⟩)
  | begins | denies | queries | unqueued | grants | sends | refuses | falls | drops | replies
  | unheard | quits | gates | leaves | closes => exact shows_

structure Sound (config : Controls) (initial : State) (s : Surface) : Prop where
  asks : Asks config s
  fits : Fits s
  ledger : Ledger initial s
  shows_ : Shows s.core.tag s.ring

theorem bootSound (config : Controls) (accepting onHook : Bool) (capacity : Nat) :
    Sound config (.boot accepting onHook capacity : Surface).core
      (.boot accepting onHook capacity) :=
  ⟨⟨fun _ _ none_ => (by cases none_),fun _ mem => (by cases mem),fun _ none_ => (by cases none_)⟩,
    Nat.zero_le _,⟨rfl,rfl⟩,
    ⟨fun before _ _ split => (by cases before <;> cases split),fun _ => rfl⟩⟩

theorem stepSound {initial : State} {label : Label} (sound : Sound config initial s)
    (enabled : s.step config label = some t) : Sound config initial t :=
  have turn := stepTurn enabled
  ⟨stepAsks sound.asks turn,stepFits sound.fits turn,stepLedger sound.asks sound.ledger turn,
    stepShows sound.shows_ turn⟩

theorem runSound {initial : State} {labels : List Label} (sound : Sound config initial s)
    (run : Transition.final (Surface.step config) s labels = some t) : Sound config initial t :=
  Transition.finalInvariant _ (Sound config initial)
    (fun _ _ _ enabled held => stepSound held enabled) sound run

/- Over every interleaving of the handlers, the runtime and the other publishers: a request has
queued the beginning of its commands, all of them once it is accepted; the core has been given its
own events and the injections taken, each once and in the order of the queue; where controls are
denied nothing is injected. -/
theorem injectionsAccounted {accepting onHook : Bool} {capacity : Nat} {labels : List Label}
    (run : Transition.final (Surface.step config) (.boot accepting onHook capacity) labels =
      some s) :
    (∀ (number : Nat) request, s.requests[number]? = some request →
      s.sentBy number <+: request.asked.commands ∧
      ∀ injected, request.stage = .answered (.accepted injected) →
        s.sentBy number = request.asked.commands ∧ injected = request.asked.commands.length) ∧
    s.injections = (s.commands.log.take s.commands.taken).filterMap Queued.injects ∧
    s.core = coreRun (if accepting then .idle else .callsPaused onHook) (s.handled.map Prod.snd) ∧
    (∀ why, ensureControls config = some why → s.injections = [] ∧
      ∀ request ∈ s.requests, request.asked.events ≠ [] →
        request.stage = .answered (.denied why)) ∧
    s.commands.log.length - s.commands.taken + s.permits ≤ commandChannel := by
  have sound := runSound (bootSound config accepting onHook capacity) run
  refine ⟨fun number request here => ?_,sound.ledger.injections,sound.ledger.core,
    fun why denied => ⟨?_,fun request mem some_ => ?_⟩,sound.fits⟩
  · have sent := sound.asks.sent number request here
    refine ⟨sent.part,fun injected answer => ?_⟩
    have whole := sent.stage
    rw [answer] at whole
    exact whole
  · rw [sound.ledger.injections]
    refine List.filterMap_eq_nil_iff.mpr fun queued mem => ?_
    obtain ⟨owner,command⟩ := queued
    cases command with
    | injectEvent event =>
      have allowed := injectAllowed sound.asks (List.mem_of_mem_take mem)
      cases allowed.symm.trans denied
    | snapshot | shutdown => rfl
  · obtain ⟨number,here⟩ := List.mem_iff_getElem?.mp mem
    exact ((sound.asks.sent number request here).allowed some_ why denied).1

def simulated : Controls := ⟨true,.simulator⟩

def stamped (place : Nat) : Nat × Nat := (place,place)

def dialled : List Label :=
  [.handle .hookOff stamped,.ask (.simulatePulse 1),.grant 0,.send 0,.grant 0,.send 0]

def queried : List Label := [.ask .state,.serve stamped,.serve stamped,.serve stamped]

theorem dialledAccounted : ∃ s, Transition.final (Surface.step simulated) (.boot true true 8)
      (dialled ++ queried) = some s ∧ s.injections = [(0,.rotaryPulse),(0,.tick)] ∧
    s.core = coreRun .idle (s.handled.map Prod.snd) ∧
    s.sentBy 0 <+: (Asked.simulatePulse 1).commands := by
  have reads : (Transition.final (Surface.step simulated) (.boot true true 8)
      (dialled ++ queried)).map (fun s => (s.injections,s.requests[0]?)) =
        some ([(0,.rotaryPulse),(0,.tick)],some ⟨.simulatePulse 1,.answered (.accepted 2)⟩) := by
    decide +kernel
  obtain ⟨s,run,same⟩ := Option.map_eq_some_iff.mp reads
  obtain ⟨injections,here⟩ := Prod.mk.inj same
  obtain ⟨sent,_,core,_⟩ := injectionsAccounted run
  exact ⟨s,run,injections,core,(sent 0 _ here).1⟩

theorem overStays {label : Label} {number : Nat} {request : Request}
    (turn : Turn config s label t) (found : s.requests[number]? = some request)
    (over_ : request.stage.over = true) : t.requests[number]? = some request := by
  have begun (other : Request) : (s.requests ++ [other])[number]? = some request :=
    (List.getElem?_append_left (List.getElem?_eq_some_iff.mp found).1).trans found
  have told {i : Nat} {old : Request} (other : Request) (here : s.requests[i]? = some old)
      (under : old.stage.over = false) : (s.requests.set i other)[number]? = some request := by
    have apart : i ≠ number := fun same => by
      rw [Option.some.inj (here.symm.trans (same ▸ found)),over_] at under
      cases under
    exact (List.getElem?_set_ne apart).trans found
  cases turn with
  | begins | denies | queries | unqueued => exact begun _
  | grants here | sends here | refuses here => exact told _ here rfl
  | falls here why => exact told _ here rfl
  | drops here under => exact told _ here under
  | replies received here => exact told _ here rfl
  | injects | objects | unheard | quits | handles | publishes | gates | leaves | closes =>
    exact found

theorem stepLog {label : Label} (turn : Turn config s label t) :
    s.commands.log <+: t.commands.log := by
  have taken {place : Nat} {queued : Queued} {commands : Channel Queued}
      (received : s.commands.receive = some ((place,queued),commands)) :
      s.commands.log <+: commands.log := by
    obtain ⟨_,_,log,_⟩ := Channel.receiveCases received
    rw [log]
  cases turn with
  | queries | sends => exact List.prefix_append _ _
  | injects received on => exact taken received
  | objects received off => exact taken received
  | replies received here => exact taken received
  | unheard received gone => exact taken received
  | quits received => exact taken received
  | begins | denies | unqueued | grants | refuses | falls | drops | handles | publishes | gates
  | leaves | closes => exact List.prefix_refl _

def Surface.injectedBy (s : Surface) (number : Nat) : List Event :=
  (s.injections.filter fun given => given.1 == number).map Prod.snd

def Command.event : Command → Option Event
  | injectEvent event => some event
  | snapshot | shutdown => none

theorem commandEvents (asked : Asked) : asked.commands.filterMap Command.event = asked.events := by
  cases asked with
  | simulatePulse count =>
    rw [Asked.commands,List.filterMap_map]
    exact List.filterMap_some
  | simulateEvent | state | quit => rfl

theorem injectsOwner (queue : List Queued) (number : Nat) :
    ((queue.filterMap Queued.injects).filter fun given => given.1 == number).map Prod.snd =
      ((queue.filter fun queued => queued.owner == number).map Queued.command).filterMap
        Command.event := by
  induction queue with
  | nil => rfl
  | cons queued rest ih =>
    obtain ⟨owner,command⟩ := queued
    cases own : owner == number <;> cases command <;>
      simp only [List.filterMap_cons,List.filter_cons,List.map_cons,Queued.injects,Command.event,own,
        Bool.false_eq_true,if_true,if_false,ih]

theorem acceptedGiven {initial : State} {number injected : Nat} {asked : Asked}
    (sound : Sound config initial s) (later : Sound config initial t)
    (accepted : s.requests[number]? = some ⟨asked,.answered (.accepted injected)⟩)
    (still : t.requests[number]? = some ⟨asked,.answered (.accepted injected)⟩)
    (log : s.commands.log <+: t.commands.log.take t.commands.taken) :
    t.injectedBy number = asked.events := by
  obtain ⟨before,_⟩ := (sound.asks.sent number _ accepted).stage
  obtain ⟨after,_⟩ := (later.asks.sent number _ still).stage
  have low : s.sentBy number <+:
      ((t.commands.log.take t.commands.taken).filter fun queued => queued.owner == number).map
        Queued.command := (log.filter _).map _
  have high : ((t.commands.log.take t.commands.taken).filter fun queued => queued.owner == number).map
        Queued.command <+: t.sentBy number := ((List.take_prefix _ _).filter _).map _
  rw [before] at low
  rw [after] at high
  have taken := high.eq_of_length_le low.length_le
  rw [Surface.injectedBy,later.ledger.injections,Surface.injected,injectsOwner,taken,commandEvents]

def Reads (s u : Surface) (told : StatusSnapshot) : Prop :=
  told = statusFromCore u.core ∧ ∀ (number : Nat) asked injected,
    s.requests[number]? = some ⟨asked,.answered (.accepted injected)⟩ →
      u.injectedBy number = asked.events

def FallsBack (u : Surface) (told : StatusSnapshot) : Prop :=
  told = fallback u.ring ∧ (told.lastError ≠ none ∨ told = ⟨operatorStateName u.core.tag,none⟩ ∨
    statusFromTelemetry u.ring = none ∧ told = ⟨"idle",none⟩)

/- A state query that was made after requests had been accepted is answered from a state in which the
core has been given all their events. It is answered from the telemetry only where the channel was
full or closed or the query timed out. -/
theorem statusAnswers {accepting onHook : Bool} {capacity number : Nat} {begun labels : List Label}
    {told : StatusSnapshot}
    (reached : Transition.final (Surface.step config) (.boot accepting onHook capacity) begun =
      some s)
    (run : Transition.final (Surface.step config) s labels = some t)
    (made : s.requests.length ≤ number)
    (answered : t.requests[number]? = some ⟨.state,.answered (.status told)⟩) :
    ∃ front back u, labels = front ++ back ∧
      Transition.final (Surface.step config) s front = some u ∧
      Transition.final (Surface.step config) u back = some t ∧
      (Reads s u told ∨
        (u.phase = .closed ∨ u.full ∨ .time number ∈ labels) ∧ FallsBack u told) := by
  have sound := runSound (bootSound config accepting onHook capacity) reached
  have fresh : s.requests[number]? ≠ some ⟨.state,.answered (.status told)⟩ := by
    rw [List.getElem?_eq_none made]
    exact fun none_ => (by cases none_)
  obtain ⟨front,label,back,u,v,rfl,before,enabled,after,off,on⟩ :=
    Transition.finalChange _ (fun x : Surface =>
      x.requests[number]? = some ⟨.state,.answered (.status told)⟩) fresh run answered
  have held := runSound sound before
  have turn := stepTurn enabled
  refine ⟨front,label :: back,u,rfl,before,(Transition.finalCons _ enabled back).trans after,?_⟩
  have fell (same : told = fallback u.ring) : FallsBack u told :=
    ⟨same,same ▸ fallbackTold held.shows_⟩
  -- the step that has answered the query
  cases turn with
  | begins | denies | queries =>
    rcases snocFound on with ⟨_,same⟩ | ⟨_,old⟩
    · cases same
    · exact absurd old off
  | unqueued noRoom =>
    rcases snocFound on with ⟨_,same⟩ | ⟨_,old⟩
    · cases same
      exact .inr ⟨noRoom.imp_right .inl,fell rfl⟩
    · exact absurd old off
  | grants here | drops here =>
    rcases setFound here on with ⟨_,same⟩ | ⟨_,old⟩
    · injection same with _ stage
      cases stage
    · exact absurd old off
  | refuses here =>
    rcases setFound here on with ⟨_,same⟩ | ⟨_,old⟩
    · injection same with asked stage
      obtain rfl := asked
      cases stage
    · exact absurd old off
  | sends here =>
    rcases setFound here on with ⟨_,same⟩ | ⟨_,old⟩
    · injection same with asked stage
      obtain rfl := asked
      unfold nextStage at stage
      dsimp only at stage
      split at stage <;> cases stage
    · exact absurd old off
  | falls here why =>
    rcases setFound here on with ⟨rfl,same⟩ | ⟨_,old⟩
    · cases same
      refine .inr ⟨why.imp_right fun timed => .inr ?_,fell rfl⟩
      exact List.mem_append.mpr (.inr (timed ▸ List.mem_cons_self))
    · exact absurd old off
  | @replies stamp place owner commands received here =>
    rcases setFound here on with ⟨rfl,same⟩ | ⟨_,old⟩
    · cases same
      refine .inl ⟨rfl,fun other asked injected accepted => ?_⟩
      obtain ⟨now,found,_,_⟩ := Channel.receiveCases received
      have kept : s.commands.log <+: u.commands.log ∧
          u.requests[other]? = some ⟨asked,.answered (.accepted injected)⟩ :=
        Transition.finalInvariant (Surface.step config) (fun x => s.commands.log <+: x.commands.log ∧
          x.requests[other]? = some ⟨asked,.answered (.accepted injected)⟩)
          (fun _ _ _ enabled kept =>
            have turn := stepTurn enabled
            ⟨kept.1.trans (stepLog turn),overStays turn kept.2 rfl⟩)
          ⟨List.prefix_refl _,accepted⟩ before
      -- the snapshot was queued after all that had been queued when the query was made
      have early : s.commands.log.length ≤ place := by
        by_contra inside
        obtain ⟨more,log⟩ := kept.1
        rw [← log,List.getElem?_append_left (Nat.lt_of_not_le inside)] at found
        have owned := sound.asks.owners _ (List.mem_of_getElem? found)
        exact absurd made (Nat.not_le.mpr owned)
      refine acceptedGiven sound held accepted kept.2 ?_
      exact List.prefix_of_prefix_length_le kept.1 (List.take_prefix _ _) (by
        rw [List.length_take,← now]
        exact Nat.le_min.mpr ⟨early,kept.1.length_le⟩)
    · exact absurd old off
  | injects | objects | unheard | quits | handles | publishes | gates | leaves | closes =>
    exact absurd on off

theorem dialledRead : ∃ s front back u, Transition.final (Surface.step simulated)
      (.boot true true 8) dialled = some s ∧ queried = front ++ back ∧
    Transition.final (Surface.step simulated) s front = some u ∧
    (Reads s u ⟨"dialTone",none⟩ ∨
      (u.phase = .closed ∨ u.full ∨ .time 1 ∈ queried) ∧ FallsBack u ⟨"dialTone",none⟩) := by
  have reads : ((Transition.final (Surface.step simulated) (.boot true true 8) dialled).bind fun s =>
      (Transition.final (Surface.step simulated) s queried).map fun t =>
        (s.requests.length,t.requests[1]?)) =
      some (1,some ⟨.state,.answered (.status ⟨"dialTone",none⟩)⟩) := by decide +kernel
  obtain ⟨s,reached,later⟩ := Option.bind_eq_some_iff.mp reads
  obtain ⟨t,run,same⟩ := Option.map_eq_some_iff.mp later
  obtain ⟨made,answered⟩ := Prod.mk.inj same
  obtain ⟨front,back,u,split,before,_,answer⟩ :=
    statusAnswers reached run (Nat.le_of_eq made) answered
  exact ⟨s,front,back,u,reached,split,before,answer⟩

end Surfaces

end TelephoneBooth.DebugControls
