import TelephoneBooth.Hal
import TelephoneBooth.Transition

/-! The installation gate: one observation cell that status probes and conflict responses
race on, and the generation counter it shares with the operator fetches. A probe acts only
if the revision it captured is still the cell's, and every conflict response moves the
revision, so a probe that acts began after all of them. -/
namespace TelephoneBooth

/- Nanoseconds. -/
def activeLease : Nat := 15000000000

inductive InstallationState where
  | active | betweenExhibitions
  deriving DecidableEq, Repr

inductive Mode where
  | unknown | legacy | active | betweenExhibitions
  deriving DecidableEq, Repr

structure Observation where
  mode : Mode
  checked : Nat
  revision : Nat
  deriving DecidableEq, Repr

structure InstallationGate where
  state : Observation
  fetchGeneration : Nat
  deriving DecidableEq, Repr

namespace InstallationGate

def new (reconcile : Bool) (now : Nat) : InstallationGate :=
  ⟨⟨if reconcile then .unknown else .legacy,now,0⟩,0⟩

def leased (gate : InstallationGate) (now : Nat) : Bool :=
  decide (now - gate.state.checked < activeLease)

def check (gate : InstallationGate) (now : Nat) : Except OperatorError Unit :=
  match gate.state.mode with
  | .legacy => .ok ()
  | .betweenExhibitions => .error (.installationInactive
      "waiting for an operator to start the next exhibition")
  | .active =>
    if gate.leased now then .ok ()
    else .error (.transport
      "installation lifecycle is unknown or stale; waiting for GET /v1/status")
  | .unknown => .error (.transport
      "installation lifecycle is unknown or stale; waiting for GET /v1/status")

def acceptingCalls (gate : InstallationGate) (now : Nat) : Bool :=
  match gate.check now with
  | .ok _ => true
  | .error _ => false

def invalidate (gate : InstallationGate) : InstallationGate :=
  { gate with fetchGeneration := gate.fetchGeneration + 1 }

def isInactive {α : Type} : Except OperatorError α → Bool
  | .error (.installationInactive _) => true
  | _ => false

/- Even a repeated conflict moves the revision. -/
def observe {α : Type} (gate : InstallationGate) (result : Except OperatorError α) :
    InstallationGate :=
  if isInactive result then
    let moved := { gate with state.revision := gate.state.revision + 1 }
    if gate.state.mode = .betweenExhibitions then moved
    else { moved.invalidate with state.mode := .betweenExhibitions }
  else gate

def next (gate : InstallationGate) (now : Nat) :
    Except OperatorError (Option InstallationState) → Option Mode
  | .ok (some .active) => some .active
  | .ok (some .betweenExhibitions) => some .betweenExhibitions
  | .ok none => some .legacy
  | .error _ => if gate.state.mode = .active ∧ gate.leased now = false then some .unknown else none

def closed (mode : Mode) : Bool := mode == .unknown || mode == .betweenExhibitions

def reconcile (gate : InstallationGate) (now revision : Nat)
    (result : Except OperatorError (Option InstallationState)) : InstallationGate :=
  if gate.state.revision = revision then
    match gate.next now result with
    | some mode =>
      let counted := if mode ≠ gate.state.mode ∧ closed mode then gate.invalidate else gate
      { counted with state := ⟨mode,now,gate.state.revision + 1⟩ }
    | none => gate
  else gate

end InstallationGate

structure Probe where
  revision : Nat
  began : Nat
  deriving DecidableEq, Repr

structure Token where
  issued : Nat
  deriving DecidableEq, Repr

/- What a run remembers for its own description; no step reads it. -/
inductive Happening where
  | inactive (at_ : Nat)
  | ended (began : Nat) (ended : Nat) (result : Except OperatorError (Option InstallationState))

structure Lifecycle where
  gate : InstallationGate
  now : Nat
  probes : List Probe
  tokens : List Token
  steps : Nat
  past : List Happening

inductive LifecycleLabel where
  | probeStart
  | probeEnd (index : Nat) (result : Except OperatorError (Option InstallationState))
  | observe (result : Except OperatorError Unit)
  | elapse (span : Nat)
  | issue
  | resetAudio

namespace Lifecycle

def boot (reconcile : Bool) (now : Nat) : Lifecycle :=
  ⟨InstallationGate.new reconcile now,now,[],[],0,[]⟩

def isCurrent (s : Lifecycle) (token : Token) : Bool := s.gate.fetchGeneration == token.issued

def step (s : Lifecycle) : LifecycleLabel → Option Lifecycle
  | .probeStart => some { s with
      probes := s.probes ++ [⟨s.gate.state.revision,s.steps⟩]
      steps := s.steps + 1 }
  | .probeEnd index result =>
    match s.probes[index]? with
    | none => none
    | some probe => some { s with
        gate := s.gate.reconcile s.now probe.revision result
        probes := s.probes.eraseIdx index
        steps := s.steps + 1
        past := .ended probe.began s.now result :: s.past }
  | .observe result => some { s with
      gate := s.gate.observe result
      steps := s.steps + 1
      past := if InstallationGate.isInactive result then .inactive s.steps :: s.past else s.past }
  | .elapse span => some { s with now := s.now + span, steps := s.steps + 1 }
  | .issue => some { s with
      tokens := s.tokens ++ [⟨s.gate.fetchGeneration⟩]
      steps := s.steps + 1 }
  | .resetAudio => some { s with gate := s.gate.invalidate, steps := s.steps + 1 }

end Lifecycle

open InstallationGate

structure GateMove (g g' : InstallationGate) : Prop where
  revision : g.state.revision ≤ g'.state.revision
  generation : g.fetchGeneration ≤ g'.fetchGeneration
  fences : g'.state.mode ≠ g.state.mode → closed g'.state.mode = true →
    g.fetchGeneration < g'.fetchGeneration

theorem GateMove.still (g : InstallationGate) : GateMove g g :=
  ⟨Nat.le_refl _,Nat.le_refl _,fun moved => absurd rfl moved⟩

theorem observeCases {α : Type} (g : InstallationGate) (result : Except OperatorError α) :
    GateMove g (g.observe result) ∧
      (isInactive result = false → g.observe result = g) ∧
      (isInactive result = true → (g.observe result).state.mode = .betweenExhibitions ∧
        (g.observe result).state.revision = g.state.revision + 1) := by
  unfold observe
  cases inactive : isInactive result with
  | false =>
    rw [if_neg (by simp)]
    exact ⟨.still g,fun _ => rfl,nofun⟩
  | true =>
    rw [if_pos rfl]
    dsimp only
    split
    · rename_i already
      exact ⟨⟨Nat.le_succ _,Nat.le_refl _,fun moved => absurd rfl moved⟩,nofun,fun _ => ⟨already,rfl⟩⟩
    · exact ⟨⟨Nat.le_succ _,Nat.le_succ _,fun _ _ => Nat.lt_succ_self _⟩,nofun,
        fun _ => ⟨rfl,rfl⟩⟩

theorem reconcileCases (g : InstallationGate) (now revision : Nat)
    (result : Except OperatorError (Option InstallationState)) :
    g.reconcile now revision result = g ∨
      g.state.revision = revision ∧ GateMove g (g.reconcile now revision result) ∧
        ∃ mode, g.next now result = some mode ∧
          (g.reconcile now revision result).state = ⟨mode,now,g.state.revision + 1⟩ := by
  unfold reconcile
  split
  · rename_i current
    cases answer : g.next now result with
    | none => exact .inl rfl
    | some mode =>
      refine .inr ⟨current,?_,mode,rfl,rfl⟩
      dsimp only
      split
      · exact ⟨Nat.le_succ _,Nat.le_succ _,fun _ _ => Nat.lt_succ_self _⟩
      · rename_i open_
        exact ⟨Nat.le_succ _,Nat.le_refl _,fun moved shut => absurd ⟨moved,shut⟩ open_⟩
  · exact .inl rfl

def reopens : Except OperatorError (Option InstallationState) → Bool
  | .ok (some .active) | .ok none => true
  | _ => false

theorem nextCases {g : InstallationGate} {now : Nat}
    {result : Except OperatorError (Option InstallationState)} {mode : Mode}
    (answer : g.next now result = some mode) :
    mode = .active ∧ result = .ok (some .active) ∨ mode = .betweenExhibitions ∧
        result = .ok (some .betweenExhibitions) ∨ mode = .legacy ∧ result = .ok none ∨
      mode = .unknown ∧ g.state.mode = .active ∧ g.leased now = false := by
  unfold next at answer
  split at answer
  · exact .inl ⟨(Option.some.inj answer).symm,rfl⟩
  · exact .inr (.inl ⟨(Option.some.inj answer).symm,rfl⟩)
  · exact .inr (.inr (.inl ⟨(Option.some.inj answer).symm,rfl⟩))
  · split at answer
    · rename_i stale
      exact .inr (.inr (.inr ⟨(Option.some.inj answer).symm,stale⟩))
    · cases answer

inductive ModeStep (s t : Lifecycle) : Prop where
  | same (mode : t.gate.state.mode = s.gate.state.mode)
      (checked : t.gate.state.checked = s.gate.state.checked)
  | pauses (mode : t.gate.state.mode = .betweenExhibitions)
  | expires (mode : t.gate.state.mode = .unknown) (was : s.gate.state.mode = .active)
  | answered (probe : Probe) (result : Except OperatorError (Option InstallationState))
      (flew : probe ∈ s.probes) (current : probe.revision = s.gate.state.revision)
      (noted : .ended probe.began s.now result ∈ t.past)
      (quiet : ∀ n, .inactive n ∈ t.past → .inactive n ∈ s.past)
      (opened : t.gate.state.mode = .active ∧ t.gate.state.checked = s.now ∧
          result = .ok (some .active) ∨
        t.gate.state.mode = .legacy ∧ result = .ok none)

structure LifecycleStep (s t : Lifecycle) : Prop where
  gate : GateMove s.gate t.gate
  steps : t.steps = s.steps + 1
  tokens : ∀ token ∈ t.tokens, token ∈ s.tokens ∨
    token = ⟨s.gate.fetchGeneration⟩ ∧ t.gate = s.gate
  probes : ∀ probe ∈ t.probes, probe ∈ s.probes ∨
    probe = ⟨s.gate.state.revision,s.steps⟩ ∧ t.gate = s.gate
  remembers : ∀ event ∈ s.past, event ∈ t.past
  inactive : ∀ n, .inactive n ∈ t.past → .inactive n ∈ s.past ∨ n = s.steps ∧
    t.gate.state.mode = .betweenExhibitions ∧ s.gate.state.revision < t.gate.state.revision
  mode : ModeStep s t

theorem countStill {s t : Lifecycle} (gate : GateMove s.gate t.gate)
    (mode : t.gate.state.mode = s.gate.state.mode)
    (checked : t.gate.state.checked = s.gate.state.checked) (steps : t.steps = s.steps + 1)
    (past : t.past = s.past)
    (tokens : ∀ token ∈ t.tokens, token ∈ s.tokens ∨
      token = ⟨s.gate.fetchGeneration⟩ ∧ t.gate = s.gate)
    (probes : ∀ probe ∈ t.probes, probe ∈ s.probes ∨
      probe = ⟨s.gate.state.revision,s.steps⟩ ∧ t.gate = s.gate) : LifecycleStep s t :=
  ⟨gate,steps,tokens,probes,fun _ mem => past ▸ mem,fun _ mem => .inl (past ▸ mem),
    .same mode checked⟩

theorem observeStep (s : Lifecycle) (result : Except OperatorError Unit) :
    LifecycleStep s { s with
      gate := s.gate.observe result
      steps := s.steps + 1
      past := if isInactive result then .inactive s.steps :: s.past else s.past } := by
  obtain ⟨gate,same,paused⟩ := observeCases s.gate result
  cases inactive : isInactive result with
  | false =>
    rw [same inactive]
    exact countStill (.still _) rfl rfl rfl rfl (fun _ mem => .inl mem) (fun _ mem => .inl mem)
  | true =>
    obtain ⟨mode,revision⟩ := paused inactive
    refine ⟨gate,rfl,fun _ mem => .inl mem,fun _ mem => .inl mem,
      fun _ mem => List.mem_cons_of_mem _ mem,?_,.pauses mode⟩
    intro n mem
    rcases List.mem_cons.mp mem with new | old
    · cases new
      refine .inr ⟨rfl,mode,?_⟩
      show s.gate.state.revision < (s.gate.observe result).state.revision
      omega
    · exact .inl old

theorem reconcileStep {s : Lifecycle} {index : Nat} {probe : Probe}
    (result : Except OperatorError (Option InstallationState)) (flew : s.probes[index]? = some probe) :
    LifecycleStep s { s with
      gate := s.gate.reconcile s.now probe.revision result
      probes := s.probes.eraseIdx index
      steps := s.steps + 1
      past := .ended probe.began s.now result :: s.past } := by
  have quiet (n : Nat)
      (mem : .inactive n ∈ Happening.ended probe.began s.now result :: s.past) :
      .inactive n ∈ s.past := by
    rcases List.mem_cons.mp mem with new | old
    · cases new
    · exact old
  have moves := reconcileCases s.gate s.now probe.revision result
  refine ⟨?_,rfl,fun _ mem => .inl mem,fun _ mem => .inl (List.mem_of_mem_eraseIdx mem),
    fun _ mem => List.mem_cons_of_mem _ mem,fun n mem => .inl (quiet n mem),?_⟩
  · rcases moves with same | ⟨_,gate,_⟩
    · rw [same]
      exact .still _
    · exact gate
  · rcases moves with same | ⟨current,_,mode,answer,set_⟩
    · exact .same (congrArg (·.state.mode) same) (congrArg (·.state.checked) same)
    · have after := congrArg Observation.mode set_
      have noted := List.mem_cons_self (a := Happening.ended probe.began s.now result) (l := s.past)
      rcases nextCases answer with ⟨rfl,ok⟩ | ⟨rfl,_⟩ | ⟨rfl,ok⟩ | ⟨rfl,was,_⟩
      · exact .answered probe result (List.mem_of_getElem? flew) current.symm noted quiet
          (.inl ⟨after,congrArg Observation.checked set_,ok⟩)
      · exact .pauses after
      · exact .answered probe result (List.mem_of_getElem? flew) current.symm noted quiet
          (.inr ⟨after,ok⟩)
      · exact .expires after was

theorem lifecycleStep {s t : Lifecycle} {label : LifecycleLabel} (taken : s.step label = some t) :
    LifecycleStep s t := by
  cases label with
  | probeStart =>
    obtain rfl := Option.some.inj taken
    refine countStill (.still _) rfl rfl rfl rfl (fun _ mem => .inl mem) fun probe mem => ?_
    rcases List.mem_append.mp mem with old | new
    · exact .inl old
    · exact .inr ⟨List.mem_singleton.mp new,rfl⟩
  | probeEnd index result =>
    unfold Lifecycle.step at taken
    cases flew : s.probes[index]? with
    | none => simp [flew] at taken
    | some probe =>
      simp only [flew] at taken
      obtain rfl := Option.some.inj taken
      exact reconcileStep result flew
  | observe result =>
    obtain rfl := Option.some.inj taken
    exact observeStep s result
  | elapse span =>
    obtain rfl := Option.some.inj taken
    exact countStill (.still _) rfl rfl rfl rfl (fun _ mem => .inl mem) (fun _ mem => .inl mem)
  | issue =>
    obtain rfl := Option.some.inj taken
    refine countStill (.still _) rfl rfl rfl rfl (fun token mem => ?_) (fun _ mem => .inl mem)
    rcases List.mem_append.mp mem with old | new
    · exact .inl old
    · exact .inr ⟨List.mem_singleton.mp new,rfl⟩
  | resetAudio =>
    obtain rfl := Option.some.inj taken
    exact countStill ⟨Nat.le_refl _,Nat.le_succ _,fun moved => absurd rfl moved⟩ rfl rfl rfl rfl
      (fun _ mem => .inl mem) (fun _ mem => .inl mem)

structure LifecycleInvariant (s : Lifecycle) : Prop where
  numbered : ∀ n, .inactive n ∈ s.past → n < s.steps
  stale : ∀ probe ∈ s.probes, ∀ n, .inactive n ∈ s.past →
    n < probe.began ∨ probe.revision < s.gate.state.revision
  current : ∀ probe ∈ s.probes, probe.revision ≤ s.gate.state.revision
  issued : ∀ token ∈ s.tokens, token.issued ≤ s.gate.fetchGeneration
  sticky : ∀ n, .inactive n ∈ s.past → s.gate.state.mode ≠ .betweenExhibitions →
    ∃ began ended result, .ended began ended result ∈ s.past ∧ n < began ∧ reopens result = true
  admitted : s.gate.state.mode = .active →
    ∃ began, .ended began s.gate.state.checked (.ok (some .active)) ∈ s.past ∧
      ∀ n, .inactive n ∈ s.past → n < began

theorem stepStale {s t : Lifecycle} (step : LifecycleStep s t) (held : LifecycleInvariant s)
    {probe : Probe} (mem : probe ∈ t.probes) {n : Nat} (conflict : .inactive n ∈ t.past) :
    n < probe.began ∨ probe.revision < t.gate.state.revision := by
  have older := step.gate.revision
  rcases step.inactive n conflict with old | ⟨rfl,_,moved⟩
  · rcases step.probes probe mem with kept | ⟨rfl,_⟩
    · rcases held.stale probe kept n old with before | behind
      · exact .inl before
      · exact .inr (Nat.lt_of_lt_of_le behind older)
    · exact .inl (held.numbered n old)
  · rcases step.probes probe mem with kept | ⟨rfl,_⟩
    · exact .inr (Nat.lt_of_le_of_lt (held.current probe kept) moved)
    · exact .inr moved

theorem currentBegan {s : Lifecycle} (held : LifecycleInvariant s) {probe : Probe}
    (flew : probe ∈ s.probes) (current : probe.revision = s.gate.state.revision) {n : Nat}
    (conflict : .inactive n ∈ s.past) : n < probe.began := by
  rcases held.stale probe flew n conflict with before | behind
  · exact before
  · omega

theorem stepSticky {s t : Lifecycle} (step : LifecycleStep s t) (held : LifecycleInvariant s)
    {n : Nat} (conflict : .inactive n ∈ t.past)
    (open_ : t.gate.state.mode ≠ .betweenExhibitions) :
    ∃ began ended result, .ended began ended result ∈ t.past ∧ n < began ∧
      reopens result = true := by
  have earlier (old : .inactive n ∈ s.past) (was : s.gate.state.mode ≠ .betweenExhibitions) :
      ∃ began ended result, .ended began ended result ∈ t.past ∧ n < began ∧
        reopens result = true := by
    obtain ⟨began,ended,result,mem,after,opened⟩ := held.sticky n old was
    exact ⟨began,ended,result,step.remembers _ mem,after,opened⟩
  rcases step.inactive n conflict with old | ⟨_,paused,_⟩
  · cases step.mode with
    | same mode => exact earlier old (mode ▸ open_)
    | pauses mode => exact absurd mode open_
    | expires _ was =>
      refine earlier old ?_
      rw [was]
      decide
    | answered probe result flew current noted quiet opened =>
      refine ⟨_,_,_,noted,currentBegan held flew current old,?_⟩
      rcases opened with ⟨_,_,rfl⟩ | ⟨_,rfl⟩ <;> rfl
  · exact absurd paused open_

theorem stepAdmitted {s t : Lifecycle} (step : LifecycleStep s t) (held : LifecycleInvariant s)
    (active : t.gate.state.mode = .active) :
    ∃ began, .ended began t.gate.state.checked (.ok (some .active)) ∈ t.past ∧
      ∀ n, .inactive n ∈ t.past → n < began := by
  cases step.mode with
  | same mode checked =>
    obtain ⟨began,mem,after⟩ := held.admitted (mode ▸ active)
    refine ⟨began,checked ▸ step.remembers _ mem,fun n conflict => ?_⟩
    rcases step.inactive n conflict with old | ⟨_,paused,_⟩
    · exact after n old
    · rw [active] at paused
      cases paused
  | pauses mode =>
    rw [active] at mode
    cases mode
  | expires mode =>
    rw [active] at mode
    cases mode
  | answered probe result flew current noted quiet opened =>
    rcases opened with ⟨_,checked,rfl⟩ | ⟨mode,_⟩
    · rw [checked]
      exact ⟨_,noted,fun n conflict => currentBegan held flew current (quiet n conflict)⟩
    · rw [active] at mode
      cases mode

theorem stepLifecycle {s t : Lifecycle} (step : LifecycleStep s t) (held : LifecycleInvariant s) :
    LifecycleInvariant t where
  numbered n conflict := by
    rw [step.steps]
    rcases step.inactive n conflict with old | ⟨rfl,_⟩
    · exact Nat.lt_succ_of_lt (held.numbered n old)
    · exact Nat.lt_succ_self _
  stale probe mem n conflict := stepStale step held mem conflict
  current probe mem := by
    rcases step.probes probe mem with kept | ⟨rfl,_⟩
    · exact Nat.le_trans (held.current probe kept) step.gate.revision
    · exact step.gate.revision
  issued token mem := by
    rcases step.tokens token mem with kept | ⟨rfl,_⟩
    · exact Nat.le_trans (held.issued token kept) step.gate.generation
    · exact step.gate.generation
  sticky n conflict open_ := stepSticky step held conflict open_
  admitted active := stepAdmitted step held active

theorem bootLifecycle (reconcile : Bool) (now : Nat) :
    LifecycleInvariant (.boot reconcile now) where
  numbered _ mem := by cases mem
  stale _ mem := by cases mem
  current _ mem := by cases mem
  issued _ mem := by cases mem
  sticky _ mem := by cases mem
  admitted active := by cases reconcile <;> cases active

theorem reachedLifecycle {reconcile : Bool} {now : Nat} {labels : List LifecycleLabel}
    {s : Lifecycle} (reached : Transition.final Lifecycle.step (.boot reconcile now) labels = some s) :
    LifecycleInvariant s :=
  Transition.finalInvariant _ LifecycleInvariant
    (fun _ _ _ taken held => stepLifecycle (lifecycleStep taken) held)
    (bootLifecycle reconcile now) reached

theorem generationLater {s t : Lifecycle} {labels : List LifecycleLabel}
    (later : Transition.final Lifecycle.step s labels = some t) :
    s.gate.fetchGeneration ≤ t.gate.fetchGeneration :=
  Transition.finalInvariant _ (fun t => s.gate.fetchGeneration ≤ t.gate.fetchGeneration)
    (fun _ _ _ taken held => Nat.le_trans held (lifecycleStep taken).gate.generation)
    (Nat.le_refl _) later

theorem acceptingCases {gate : InstallationGate} {now : Nat}
    (accepting : gate.acceptingCalls now = true) :
    gate.state.mode = .legacy ∨
      gate.state.mode = .active ∧ now - gate.state.checked < activeLease := by
  unfold acceptingCalls check at accepting
  cases mode : gate.state.mode with
  | legacy => exact .inl rfl
  | active =>
    refine .inr ⟨rfl,?_⟩
    simp only [mode] at accepting
    cases leased : gate.leased now with
    | true => exact of_decide_eq_true leased
    | false => simp [leased] at accepting
  | _ => simp [mode] at accepting

theorem errorCloses {gate : InstallationGate} {now revision : Nat} {error : OperatorError} :
    ((gate.reconcile now revision (.error error)).acceptingCalls now = true →
      gate.acceptingCalls now = true) ∧
    ((gate.reconcile now revision (.error error)).state.mode = .betweenExhibitions →
      gate.state.mode = .betweenExhibitions) := by
  rcases reconcileCases gate now revision (.error error) with same | ⟨_,_,mode,answer,set_⟩
  · rw [same]
    exact ⟨id,id⟩
  · rcases nextCases answer with ⟨_,ok⟩ | ⟨_,ok⟩ | ⟨_,ok⟩ | ⟨rfl,_⟩
    · cases ok
    · cases ok
    · cases ok
    · have after := congrArg Observation.mode set_
      constructor
      · intro accepting
        rcases acceptingCases accepting with legacy | ⟨active,_⟩
        · rw [after] at legacy
          cases legacy
        · rw [after] at active
          cases active
      · intro paused
        rw [after] at paused
        cases paused

theorem gateAdmitsSafely {reconcile : Bool} {now : Nat} {labels : List LifecycleLabel}
    {s : Lifecycle} (reached : Transition.final Lifecycle.step (.boot reconcile now) labels = some s) :
    (∀ n, .inactive n ∈ s.past → s.gate.state.mode ≠ .betweenExhibitions →
      ∃ began ended result, .ended began ended result ∈ s.past ∧ n < began ∧
        (result = .ok (some .active) ∨ result = .ok none)) ∧
    (s.gate.acceptingCalls s.now = true → s.gate.state.mode = .legacy ∨
      s.gate.state.mode = .active ∧ ∃ began ended,
        .ended began ended (.ok (some .active)) ∈ s.past ∧ s.now - ended < activeLease ∧
        ∀ n, .inactive n ∈ s.past → n < began) ∧
    (∀ index error t, s.step (.probeEnd index (.error error)) = some t →
      (t.gate.acceptingCalls t.now = true → s.gate.acceptingCalls s.now = true) ∧
      (t.gate.state.mode = .betweenExhibitions → s.gate.state.mode = .betweenExhibitions)) ∧
    (∀ label t, s.step label = some t → t.gate.state.mode ≠ s.gate.state.mode →
      t.gate.state.mode = .unknown ∨ t.gate.state.mode = .betweenExhibitions →
      ∀ rest u, Transition.final Lifecycle.step t rest = some u →
        ∀ token ∈ s.tokens, u.isCurrent token = false) := by
  have held := reachedLifecycle reached
  refine ⟨?_,?_,?_,?_⟩
  · intro n conflict open_
    obtain ⟨began,ended,result,mem,after,opened⟩ := held.sticky n conflict open_
    refine ⟨began,ended,result,mem,after,?_⟩
    unfold reopens at opened
    split at opened
    · exact .inl rfl
    · exact .inr rfl
    · cases opened
  · intro accepting
    rcases acceptingCases accepting with legacy | ⟨active,fresh⟩
    · exact .inl legacy
    · obtain ⟨began,mem,after⟩ := held.admitted active
      exact .inr ⟨active,began,_,mem,fresh,after⟩
  · intro index error t taken
    unfold Lifecycle.step at taken
    cases flew : s.probes[index]? with
    | none => simp [flew] at taken
    | some probe =>
      simp only [flew] at taken
      obtain rfl := Option.some.inj taken
      exact errorCloses
  · intro label t taken moved shut rest u later token mem
    have closed_ : closed t.gate.state.mode = true := by
      rcases shut with mode | mode <;> rw [mode] <;> rfl
    have fence := (lifecycleStep taken).gate.fences moved closed_
    have kept := generationLater later
    have issued := held.issued token mem
    refine beq_eq_false_iff_ne.mpr ?_
    omega

def tokenTaken : List LifecycleLabel :=
  [.probeStart,.probeStart,.elapse 1,.probeEnd 0 (.ok (some .active)),.issue]

def gapConflict : LifecycleLabel := .observe (.error (.installationInactive "gap"))

/- The second probe is older than the conflict and does nothing; a new one admits calls again. -/
def probedAgain : List LifecycleLabel :=
  [.probeEnd 0 (.ok (some .active)),.probeStart,.elapse 1,.probeEnd 0 (.ok (some .active))]

theorem conflictFences : ∃ s t u, Transition.final Lifecycle.step (.boot true 0) tokenTaken = some s ∧
    s.step gapConflict = some t ∧ Transition.final Lifecycle.step t probedAgain = some u ∧
    (s.tokens ≠ [] ∧ ∀ token ∈ s.tokens, u.isCurrent token = false) ∧
    u.gate.acceptingCalls u.now = true ∧
    (∃ began ended result, .ended began ended result ∈ u.past ∧ 5 < began ∧
      (result = .ok (some .active) ∨ result = .ok none)) ∧
    ∃ began ended, .ended began ended (.ok (some .active)) ∈ u.past ∧ u.now - ended < activeLease ∧
      ∀ n, .inactive n ∈ u.past → n < began := by
  have run : ∃ s t u, Transition.final Lifecycle.step (.boot true 0) tokenTaken = some s ∧
      s.step gapConflict = some t ∧ Transition.final Lifecycle.step t probedAgain = some u ∧
      s.tokens ≠ [] ∧ s.gate.state.mode = .active ∧ t.gate.state.mode = .betweenExhibitions ∧
      .inactive 5 ∈ u.past ∧ u.gate.state.mode = .active ∧ u.gate.acceptingCalls u.now = true :=
    ⟨_,_,_,rfl,rfl,rfl,by decide,rfl,rfl,.tail _ (.tail _ (.head _)),rfl,by decide⟩
  obtain ⟨s,t,u,first,stepped,later,tokens,active,paused,seen,reactivated,accepts⟩ := run
  have whole : Transition.final Lifecycle.step (.boot true 0)
      (tokenTaken ++ gapConflict :: probedAgain) = some u := by
    rw [Transition.finalAppend _ first,Transition.finalCons _ stepped,later]
  obtain ⟨reopened,fresh,_⟩ := gateAdmitsSafely whole
  refine ⟨s,t,u,first,stepped,later,⟨tokens,?_⟩,accepts,reopened 5 seen (by simp [reactivated]),?_⟩
  · exact (gateAdmitsSafely first).2.2.2 gapConflict t stepped (by simp [active,paused])
      (.inr paused) probedAgain u later
  · exact ((fresh accepts).resolve_left (by simp [reactivated])).2

end TelephoneBooth
