import Mathlib.Algebra.Group.Nat.Defs
import Mathlib.Data.List.Chain
import Mathlib.Logic.Function.Basic
import TelephoneBooth.Machine

/-! `poll_edges`: every tick samples the input pins, debounces them and puts confirmed edges in
a queue. The receiver lives. Whether the queue is full where an edge is tried is an input. -/
namespace TelephoneBooth.EdgePolling

inductive PinRole where
  | hook | rotaryPulse | rotaryRead | powerButton
  deriving DecidableEq, Repr

def roles : List PinRole := [.hook,.rotaryPulse,.rotaryRead,.powerButton]

structure GpioEdge where
  role : PinRole
  level : Bool
  atMonotonicNs : Nat
  deriving DecidableEq, Repr

structure PollConfig where
  inverted : PinRole → Bool
  powerButtonEnabled : Bool
  debounce : Nat

def PollConfig.isActive (config : PollConfig) : PinRole → Bool
  | .powerButton => config.powerButtonEnabled
  | _ => true

def applyInvert (physicalHigh invert : Bool) : Bool :=
  if invert then !physicalHigh else physicalHigh

def monotonicNs (elapsed : Nat) : Nat := min elapsed (2 ^ 64 - 1)

structure Poller where
  confirmed : PinRole → Bool
  pending : PinRole → Option (Bool × Nat)
  pendingPower : Option GpioEdge
  levels : PinRole → Bool

/- `dropped` is one more on the counter of dropped edges. -/
inductive Note where
  | confirmed (edge : GpioEdge)
  | delivered (edge : GpioEdge)
  | dropped (edge : GpioEdge)
  deriving DecidableEq, Repr

/- One turn of the loop over the roles: when its tick was, what the pin says, what the clock
says where an edge is built, and whether the queue is full where one is tried. -/
structure Reading where
  role : PinRole
  now : Nat
  physicalHigh : Bool
  elapsed : Nat
  full : Bool

def PollConfig.raw (config : PollConfig) (r : Reading) : Bool :=
  applyInvert r.physicalHigh (config.inverted r.role)

def Reading.edge (config : PollConfig) (r : Reading) : GpioEdge :=
  ⟨r.role,config.raw r,monotonicNs r.elapsed⟩

def trySendEdge (edge : GpioEdge) (full : Bool) : Option GpioEdge × List Note :=
  if full then (some edge,[]) else (none,[.delivered edge])

def Poller.retry (s : Poller) (full : Bool) : Poller × List Note :=
  match s.pendingPower with
  | some edge =>
    let (undelivered,notes) := trySendEdge edge full
    ({ s with pendingPower := undelivered },notes)
  | none => (s,[])

/- The way of a confirmed edge. A release that waits in the slot is not replaced by a press. -/
def Poller.forward (s : Poller) (edge : GpioEdge) (full : Bool) : Poller × List Note :=
  match edge.role, s.pendingPower with
  | .powerButton, some waiting =>
    (if waiting.level || !edge.level then { s with pendingPower := some edge } else s,[])
  | _, _ =>
    match trySendEdge edge full with
    | (none,notes) => (s,notes)
    | (some undelivered,notes) =>
      if undelivered.role = .powerButton then
        ({ s with pendingPower := some undelivered },notes)
      else (s,notes ++ [.dropped undelivered])

def Poller.see (s : Poller) (role : PinRole) (raw : Bool) : Poller :=
  { s with levels := Function.update s.levels role raw }

def Poller.await (s : Poller) (role : PinRole) (candidate : Option (Bool × Nat)) : Poller :=
  { s with pending := Function.update s.pending role candidate }

def Poller.settle (s : Poller) (role : PinRole) (raw : Bool) : Poller :=
  { s.await role none with confirmed := Function.update s.confirmed role raw }

def Poller.sample (config : PollConfig) (s : Poller) (r : Reading) : Poller × List Note :=
  let raw := config.raw r
  let seen := s.see r.role raw
  if raw = s.confirmed r.role then (seen.await r.role none,[])
  else
    match s.pending r.role with
    | some (level,since) =>
      if level = raw then
        if config.debounce ≤ r.now - since then
          let (after,notes) := (seen.settle r.role raw).forward (r.edge config) r.full
          (after,.confirmed (r.edge config) :: notes)
        else (seen,[])
      else (seen.await r.role (some (raw,r.now)),[])
    | none => (seen.await r.role (some (raw,r.now)),[])

inductive Pass where
  | retry (full : Bool)
  | sample (r : Reading)

def Poller.step (config : PollConfig) (s : Poller) : Pass → Poller × List Note
  | .retry full => s.retry full
  | .sample r => s.sample config r

structure Tick where
  now : Nat
  retryFull : Bool
  physicalHigh : PinRole → Bool
  elapsed : PinRole → Nat
  full : PinRole → Bool

def Tick.passes (config : PollConfig) (t : Tick) : List Pass :=
  .retry t.retryFull :: (roles.filter config.isActive).map fun role =>
    .sample ⟨role,t.now,t.physicalHigh role,t.elapsed role,t.full role⟩

def Poller.start (config : PollConfig) (physicalHigh levels : PinRole → Bool) : Poller :=
  ⟨fun role => applyInvert (physicalHigh role) (config.inverted role),fun _ => none,none,levels⟩

structure History where
  samples : PinRole → List (Nat × Bool)
  notes : List Note

def History.fresh : History := ⟨fun _ => [],[]⟩

def noteHistory (config : PollConfig) (h : History) (s : Poller) (pass : Pass) : History where
  samples := match pass with
    | .retry _ => h.samples
    | .sample r => Function.update h.samples r.role ((r.now,config.raw r) :: h.samples r.role)
  notes := h.notes ++ (s.step config pass).2

def watched (config : PollConfig) : Poller × History → Pass → (Poller × History) × List Note :=
  Machine.observed (Poller.step config) (noteHistory config)

def confirmedEdge (role : PinRole) : Note → Option GpioEdge
  | .confirmed edge => if edge.role = role then some edge else none
  | _ => none

def deliveredEdge (role : PinRole) : Note → Option GpioEdge
  | .delivered edge => if edge.role = role then some edge else none
  | _ => none

def confirmedEdges (role : PinRole) (notes : List Note) : List GpioEdge :=
  notes.filterMap (confirmedEdge role)

def deliveredEdges (role : PinRole) (notes : List Note) : List GpioEdge :=
  notes.filterMap (deliveredEdge role)

def Note.edge : Note → GpioEdge
  | .confirmed edge | .delivered edge | .dropped edge => edge

/- The samples of a role, latest first: those since a tick at least `debounce` ago all read
`level`. The difference of two instants saturates at zero. -/
def StableSince (debounce : Nat) (level : Bool) (samples : List (Nat × Bool)) : Prop :=
  ∃ recent older now since, samples = recent ++ older ∧ recent.head? = some (now,level) ∧
    recent.getLast? = some (since,level) ∧ debounce ≤ now - since ∧ ∀ x ∈ recent, x.2 = level

def Debounced (config : PollConfig) (w : Poller × History) (pass : Pass) : Prop :=
  ∀ edge, .confirmed edge ∈ (w.1.step config pass).2 →
    StableSince config.debounce edge.level
      ((noteHistory config w.2 w.1 pass).samples edge.role)

def about (role : PinRole) (notes : List Note) : List Note :=
  notes.filter fun note => note.edge.role = role

def Accounted (role : PinRole) (notes : List Note) : Prop :=
  ∃ tried : List (GpioEdge × Bool), about role notes = tried.flatMap fun (edge,full) =>
    [.confirmed edge,if full then .dropped edge else .delivered edge]

def Released (edges : List GpioEdge) : Prop :=
  ∀ front press middle next back, edges = front ++ press :: middle ++ next :: back →
    press.level = true → next.level = true → ∃ edge ∈ middle, edge.level = false

def Poller.settled (config : PollConfig) (s : Poller) (r : Reading) : Poller :=
  (s.see r.role (config.raw r)).settle r.role (config.raw r)

inductive Sampled (config : PollConfig) (s : Poller) (r : Reading) :
    Poller → List Note → Prop where
  | steady (same : config.raw r = s.confirmed r.role) :
      Sampled config s r ((s.see r.role (config.raw r)).await r.role none) []
  | candidate (differs : config.raw r ≠ s.confirmed r.role) :
      Sampled config s r
        ((s.see r.role (config.raw r)).await r.role (some (config.raw r,r.now))) []
  | waits (differs : config.raw r ≠ s.confirmed r.role) (since : Nat)
      (candidate : s.pending r.role = some (config.raw r,since)) :
      Sampled config s r (s.see r.role (config.raw r)) []
  | confirms (differs : config.raw r ≠ s.confirmed r.role) (since : Nat)
      (candidate : s.pending r.role = some (config.raw r,since))
      (held : config.debounce ≤ r.now - since) :
      Sampled config s r
        ((s.settled config r).forward (r.edge config) r.full).1
        (.confirmed (r.edge config) :: ((s.settled config r).forward (r.edge config) r.full).2)

theorem sampleCases (config : PollConfig) (s : Poller) (r : Reading) :
    Sampled config s r (s.sample config r).1 (s.sample config r).2 := by
  unfold Poller.sample
  by_cases same : config.raw r = s.confirmed r.role
  · simp only [if_pos same]
    exact .steady same
  · simp only [if_neg same]
    cases waiting : s.pending r.role with
    | none => exact .candidate same
    | some candidate =>
      obtain ⟨level,since⟩ := candidate
      by_cases agrees : level = config.raw r
      · subst agrees
        simp only [if_true]
        by_cases held : config.debounce ≤ r.now - since
        · simp only [if_pos held]
          exact .confirms same since waiting held
        · simp only [if_neg held]
          exact .waits same since waiting
      · simp only [if_neg agrees]
        exact .candidate same

inductive Forwarded (s : Poller) (edge : GpioEdge) (full : Bool) : Poller → List Note → Prop where
  | sent (empty : edge.role = .powerButton → s.pendingPower = none) (room : full = false) :
      Forwarded s edge full s [.delivered edge]
  | dropped (other : edge.role ≠ .powerButton) (noRoom : full = true) :
      Forwarded s edge full s [.dropped edge]
  | retained (power : edge.role = .powerButton) (empty : s.pendingPower = none) :
      Forwarded s edge full { s with pendingPower := some edge } []
  | replaced (power : edge.role = .powerButton) (waiting : GpioEdge)
      (slot : s.pendingPower = some waiting) (newer : waiting.level = true ∨ edge.level = false) :
      Forwarded s edge full { s with pendingPower := some edge } []
  | kept (power : edge.role = .powerButton) (waiting : GpioEdge)
      (slot : s.pendingPower = some waiting) (release : waiting.level = false)
      (press : edge.level = true) : Forwarded s edge full s []

theorem forwardCases (s : Poller) (edge : GpioEdge) (full : Bool) :
    Forwarded s edge full (s.forward edge full).1 (s.forward edge full).2 := by
  by_cases power : edge.role = .powerButton
  · cases slot : s.pendingPower with
    | none =>
      cases full with
      | true =>
        have same : s.forward edge true = ({ s with pendingPower := some edge },[]) := by
          simp [Poller.forward,power,slot,trySendEdge]
        rw [same]
        exact .retained power slot
      | false =>
        have same : s.forward edge false = (s,[.delivered edge]) := by
          simp [Poller.forward,power,slot,trySendEdge]
        rw [same]
        exact .sent (fun _ => slot) rfl
    | some waiting =>
      have same : s.forward edge full = (if waiting.level || !edge.level then
          { s with pendingPower := some edge } else s,[]) := by
        simp [Poller.forward,power,slot]
      rw [same]
      by_cases newer : waiting.level = true ∨ edge.level = false
      · rw [if_pos (by simpa using newer)]
        exact .replaced power waiting slot newer
      · rw [if_neg (by simpa using newer)]
        obtain ⟨release,press⟩ := not_or.mp newer
        exact .kept power waiting slot (by simpa using release) (by simpa using press)
  · have apart : s.forward edge full = match trySendEdge edge full with
        | (none,notes) => (s,notes)
        | (some undelivered,notes) =>
          if undelivered.role = .powerButton then
            ({ s with pendingPower := some undelivered },notes)
          else (s,notes ++ [.dropped undelivered]) := by
      unfold Poller.forward
      split
      · exact absurd ‹_› power
      · rfl
    rw [apart]
    cases full with
    | true =>
      simp only [trySendEdge,if_true,if_neg power]
      exact .dropped power rfl
    | false => exact .sent (fun is => absurd is power) rfl

inductive Retried (s : Poller) : Poller → List Note → Prop where
  | idle : Retried s s []
  | sent (edge : GpioEdge) (slot : s.pendingPower = some edge) :
      Retried s { s with pendingPower := none } [.delivered edge]

theorem retryCases (s : Poller) (full : Bool) : Retried s (s.retry full).1 (s.retry full).2 := by
  cases slot : s.pendingPower with
  | none =>
    have same : s.retry full = (s,[]) := by simp [Poller.retry,slot]
    rw [same]
    exact .idle
  | some edge =>
    cases full with
    | true =>
      have same : s.retry true = ({ s with pendingPower := some edge },[]) := by
        simp [Poller.retry,slot,trySendEdge]
      rw [same,← slot]
      exact .idle
    | false =>
      have same : s.retry false = ({ s with pendingPower := none },[.delivered edge]) := by
        simp [Poller.retry,slot,trySendEdge]
      rw [same]
      exact .sent edge slot

theorem retriedKeeps {s after : Poller} {notes : List Note} (retried : Retried s after notes) :
    after.confirmed = s.confirmed ∧ after.pending = s.pending := by
  cases retried <;> exact ⟨rfl,rfl⟩

theorem retriedConfirms {s after : Poller} {notes : List Note} (retried : Retried s after notes)
    (edge : GpioEdge) : .confirmed edge ∉ notes := by
  cases retried <;> simp

def Candidate (level : Bool) (since : Nat) (samples : List (Nat × Bool)) : Prop :=
  ∃ recent older, samples = recent ++ older ∧ recent.getLast? = some (since,level) ∧
    ∀ x ∈ recent, x.2 = level

theorem candidateStarts (level : Bool) (now : Nat) (samples : List (Nat × Bool)) :
    Candidate level now ((now,level) :: samples) :=
  ⟨[(now,level)],samples,rfl,rfl,by simp⟩

theorem candidateGrows {level : Bool} {since : Nat} {samples : List (Nat × Bool)}
    (before : Candidate level since samples) (now : Nat) :
    Candidate level since ((now,level) :: samples) := by
  obtain ⟨recent,older,same,last,agrees⟩ := before
  refine ⟨(now,level) :: recent,older,by rw [same]; rfl,?_,?_⟩
  · rw [List.getLast?_cons,last]; rfl
  · intro x mem
    rcases List.mem_cons.mp mem with rfl | mem
    · rfl
    · exact agrees x mem

theorem candidateStable {level : Bool} {since now debounce : Nat} {samples : List (Nat × Bool)}
    (before : Candidate level since samples) (held : debounce ≤ now - since) :
    StableSince debounce level ((now,level) :: samples) := by
  obtain ⟨recent,older,same,last,agrees⟩ := before
  refine ⟨(now,level) :: recent,older,now,since,by rw [same]; rfl,rfl,?_,held,?_⟩
  · rw [List.getLast?_cons,last]; rfl
  · intro x mem
    rcases List.mem_cons.mp mem with rfl | mem
    · rfl
    · exact agrees x mem

theorem forwardedKeeps {s after : Poller} {edge : GpioEdge} {full : Bool} {notes : List Note}
    (forwarded : Forwarded s edge full after notes) :
    after.confirmed = s.confirmed ∧ after.pending = s.pending := by
  cases forwarded <;> exact ⟨rfl,rfl⟩

theorem forwardKeeps (s : Poller) (edge : GpioEdge) (full : Bool) :
    (s.forward edge full).1.confirmed = s.confirmed ∧
    (s.forward edge full).1.pending = s.pending :=
  forwardedKeeps (forwardCases s edge full)

theorem forwardedNotes {s after : Poller} {edge : GpioEdge} {full : Bool} {notes : List Note}
    (forwarded : Forwarded s edge full after notes) :
    ∀ note ∈ notes, note = .delivered edge ∨ note = .dropped edge := by
  cases forwarded <;> simp

def Held (w : Poller × History) : Prop :=
  ∀ role level since, w.1.pending role = some (level,since) →
    level ≠ w.1.confirmed role ∧ Candidate level since (w.2.samples role)

theorem heldSampled {config : PollConfig} {s after : Poller} {r : Reading} {notes : List Note}
    (sampled : Sampled config s r after notes) {samples : List (Nat × Bool)}
    (before : ∀ level since, s.pending r.role = some (level,since) →
      level ≠ s.confirmed r.role ∧ Candidate level since samples)
    {level : Bool} {since : Nat} (waiting : after.pending r.role = some (level,since)) :
    level ≠ after.confirmed r.role ∧
      Candidate level since ((r.now,config.raw r) :: samples) := by
  cases sampled with
  | steady same => simp [Poller.await] at waiting
  | candidate differs =>
    have same : (config.raw r,r.now) = (level,since) := by simpa [Poller.await] using waiting
    cases same
    exact ⟨differs,candidateStarts _ _ _⟩
  | waits differs start candidate =>
    have same : (config.raw r,start) = (level,since) := Option.some.inj (candidate.symm.trans waiting)
    cases same
    exact ⟨differs,candidateGrows (before _ _ candidate).2 _⟩
  | confirms differs start candidate held =>
    rw [(forwardKeeps _ _ _).2] at waiting
    simp [Poller.settled,Poller.settle,Poller.await] at waiting

theorem sampleFrame {config : PollConfig} {s after : Poller} {r : Reading} {notes : List Note}
    (sampled : Sampled config s r after notes) {role : PinRole} (other : role ≠ r.role) :
    after.confirmed role = s.confirmed role ∧ after.pending role = s.pending role := by
  cases sampled with
  | steady => exact ⟨rfl,Function.update_of_ne other _ _⟩
  | candidate => exact ⟨rfl,Function.update_of_ne other _ _⟩
  | waits => exact ⟨rfl,rfl⟩
  | confirms =>
    rw [(forwardKeeps _ _ _).1,(forwardKeeps _ _ _).2]
    exact ⟨Function.update_of_ne other _ _,Function.update_of_ne other _ _⟩

theorem sampledConfirms {config : PollConfig} {s after : Poller} {r : Reading}
    {notes : List Note} (sampled : Sampled config s r after notes) {edge : GpioEdge}
    (mem : .confirmed edge ∈ notes) : edge = r.edge config ∧
      ∃ since, s.pending r.role = some (config.raw r,since) ∧ config.debounce ≤ r.now - since := by
  cases sampled with
  | steady => cases mem
  | candidate => cases mem
  | waits => cases mem
  | confirms differs since candidate held =>
    rcases List.mem_cons.mp mem with same | mem
    · cases same
      exact ⟨rfl,since,candidate,held⟩
    · rcases forwardedNotes (forwardCases _ _ _) _ mem with same | same <;> cases same

theorem heldStep (config : PollConfig) (w : Poller × History) (pass : Pass) (before : Held w) :
    Held (watched config w pass).1 := by
  intro role level since waiting
  cases pass with
  | retry full =>
    obtain ⟨confirmed,pending⟩ := retriedKeeps (retryCases w.1 full)
    have there : w.1.pending role = some (level,since) := by
      rw [← pending]; exact waiting
    obtain ⟨differs,candidate⟩ := before role level since there
    refine ⟨?_,candidate⟩
    change level ≠ (w.1.retry full).1.confirmed role
    rwa [confirmed]
  | sample r =>
    have sampled := sampleCases config w.1 r
    by_cases own : role = r.role
    · subst own
      have next := heldSampled sampled (before r.role) waiting
      refine ⟨next.1,?_⟩
      change Candidate level since (Function.update w.2.samples r.role _ r.role)
      rw [Function.update_self]
      exact next.2
    · obtain ⟨confirmed,pending⟩ := sampleFrame sampled own
      have there : w.1.pending role = some (level,since) := by
        rw [← pending]; exact waiting
      obtain ⟨differs,candidate⟩ := before role level since there
      constructor
      · change level ≠ (w.1.sample config r).1.confirmed role
        rwa [confirmed]
      · change Candidate level since (Function.update w.2.samples r.role _ role)
        rwa [Function.update_of_ne own]

theorem heldDebounces (config : PollConfig) (w : Poller × History) (pass : Pass)
    (held : Held w) : Debounced config w pass := by
  intro edge mem
  cases pass with
  | retry full => exact absurd mem (retriedConfirms (retryCases w.1 full) edge)
  | sample r =>
    obtain ⟨rfl,since,candidate,long⟩ := sampledConfirms (sampleCases config w.1 r) mem
    change StableSince config.debounce (config.raw r)
      (Function.update w.2.samples r.role _ r.role)
    rw [Function.update_self]
    exact candidateStable (held r.role _ since candidate).2 long

theorem confirmedSelf (edge : GpioEdge) : confirmedEdges edge.role [.confirmed edge] = [edge] := by
  simp [confirmedEdges,confirmedEdge]

theorem confirmedOther {edge : GpioEdge} {role : PinRole} (other : role ≠ edge.role) :
    confirmedEdges role [.confirmed edge] = [] := by
  simp [confirmedEdges,confirmedEdge,other.symm]

theorem deliveredSelf (edge : GpioEdge) : deliveredEdges edge.role [.delivered edge] = [edge] := by
  simp [deliveredEdges,deliveredEdge]

theorem deliveredOther {edge : GpioEdge} {role : PinRole} (other : edge.role ≠ role) :
    deliveredEdges role [.delivered edge] = [] := by
  simp [deliveredEdges,deliveredEdge,other]

theorem confirmedAppend (role : PinRole) (front back : List Note) :
    confirmedEdges role (front ++ back) = confirmedEdges role front ++ confirmedEdges role back :=
  List.filterMap_append

theorem deliveredAppend (role : PinRole) (front back : List Note) :
    deliveredEdges role (front ++ back) = deliveredEdges role front ++ deliveredEdges role back :=
  List.filterMap_append

theorem forwardedUnconfirmed {s after : Poller} {edge : GpioEdge} {full : Bool}
    {notes : List Note} (forwarded : Forwarded s edge full after notes) (role : PinRole) :
    confirmedEdges role notes = [] := by
  cases forwarded <;> rfl

theorem retriedUnconfirmed {s after : Poller} {notes : List Note} (retried : Retried s after notes)
    (role : PinRole) : confirmedEdges role notes = [] := by
  cases retried <;> rfl

theorem sampledEdges {config : PollConfig} {s after : Poller} {r : Reading} {notes : List Note}
    (sampled : Sampled config s r after notes) (role : PinRole) :
    (confirmedEdges role notes = [] ∧ after.confirmed role = s.confirmed role) ∨
    (role = r.role ∧ confirmedEdges role notes = [r.edge config] ∧
      config.raw r ≠ s.confirmed role ∧ after.confirmed role = config.raw r) := by
  cases sampled with
  | steady => exact .inl ⟨rfl,rfl⟩
  | candidate => exact .inl ⟨rfl,rfl⟩
  | waits => exact .inl ⟨rfl,rfl⟩
  | confirms differs since candidate held =>
    have alone : confirmedEdges role (.confirmed (r.edge config) ::
        ((s.settled config r).forward (r.edge config) r.full).2) =
          confirmedEdges role [.confirmed (r.edge config)] := by
      rw [← List.singleton_append,confirmedAppend,
        forwardedUnconfirmed (forwardCases _ _ _) role,List.append_nil]
    rw [alone,(forwardKeeps _ _ _).1]
    by_cases own : role = r.role
    · subst own
      exact .inr ⟨rfl,confirmedSelf (r.edge config),differs,Function.update_self _ _ _⟩
    · exact .inl ⟨confirmedOther own,Function.update_of_ne own _ _⟩

def confirmedLevels (seed : PinRole → Bool) (role : PinRole) (notes : List Note) : List Bool :=
  seed role :: (confirmedEdges role notes).map GpioEdge.level

def Alternating (seed : PinRole → Bool) (role : PinRole) (w : Poller × History) : Prop :=
  (confirmedLevels seed role w.2.notes).IsChain (· ≠ ·) ∧
    (confirmedLevels seed role w.2.notes).getLast? = some (w.1.confirmed role)

theorem alternatingStep (config : PollConfig) (seed : PinRole → Bool) (role : PinRole)
    (w : Poller × History) (pass : Pass) (before : Alternating seed role w) :
    Alternating seed role (watched config w pass).1 := by
  have levels : confirmedLevels seed role (watched config w pass).1.2.notes =
      confirmedLevels seed role w.2.notes ++
        (confirmedEdges role (w.1.step config pass).2).map GpioEdge.level := by
    change confirmedLevels seed role (w.2.notes ++ (w.1.step config pass).2) = _
    rw [confirmedLevels,confirmedAppend,List.map_append]
    rfl
  have step : (confirmedEdges role (w.1.step config pass).2 = [] ∧
      (w.1.step config pass).1.confirmed role = w.1.confirmed role) ∨
      ∃ edge, confirmedEdges role (w.1.step config pass).2 = [edge] ∧
        edge.level ≠ w.1.confirmed role ∧
        (w.1.step config pass).1.confirmed role = edge.level := by
    cases pass with
    | retry full =>
      have retried := retryCases w.1 full
      exact .inl ⟨retriedUnconfirmed retried role,congrFun (retriedKeeps retried).1 role⟩
    | sample r =>
      rcases sampledEdges (sampleCases config w.1 r) role with quiet | ⟨own,edges,differs,after⟩
      · exact .inl quiet
      · exact .inr ⟨_,edges,differs,after⟩
  unfold Alternating
  rw [levels]
  rcases step with ⟨none,same⟩ | ⟨edge,one,differs,after⟩
  · rw [none,List.map_nil,List.append_nil]
    exact ⟨before.1,before.2.trans (congrArg some same.symm)⟩
  · rw [one]
    constructor
    · refine before.1.append (List.isChain_singleton _) ?_
      intro x last y head
      rw [before.2] at last
      cases last
      cases head
      exact differs.symm
    · rw [List.map_singleton,List.getLast?_append]
      exact congrArg some after.symm

def presented (s : Poller) (delivered : List GpioEdge) : List GpioEdge :=
  delivered ++ s.pendingPower.toList

inductive Presents (edge : GpioEdge) : List GpioEdge → List GpioEdge → Prop where
  | appended (front : List GpioEdge) : Presents edge front (front ++ [edge])
  | replaced (front : List GpioEdge) (waiting : GpioEdge)
      (newer : waiting.level = true ∨ edge.level = false) :
      Presents edge (front ++ [waiting]) (front ++ [edge])
  | kept (front : List GpioEdge) (waiting : GpioEdge) (release : waiting.level = false) :
      Presents edge (front ++ [waiting]) (front ++ [waiting])

theorem forwardedPresents {s after : Poller} {edge : GpioEdge} {full : Bool} {notes : List Note}
    (forwarded : Forwarded s edge full after notes) (power : edge.role = .powerButton)
    (delivered : List GpioEdge) : Presents edge (presented s delivered)
      (presented after (delivered ++ deliveredEdges .powerButton notes)) := by
  unfold presented
  cases forwarded with
  | sent empty =>
    rw [empty power,← power,deliveredSelf]
    simpa using Presents.appended delivered
  | dropped other => exact absurd power other
  | retained _ empty =>
    rw [empty]
    simpa [deliveredEdges] using Presents.appended delivered
  | replaced _ waiting slot newer =>
    rw [slot]
    simpa [deliveredEdges] using Presents.replaced delivered waiting newer
  | kept _ waiting slot release =>
    rw [slot]
    simpa [deliveredEdges] using Presents.kept delivered waiting release

theorem forwardedOther {s after : Poller} {edge : GpioEdge} {full : Bool} {notes : List Note}
    (forwarded : Forwarded s edge full after notes) (other : edge.role ≠ .powerButton) :
    after = s ∧ deliveredEdges .powerButton notes = [] ∧
    notes = [if full then .dropped edge else .delivered edge] := by
  cases forwarded with
  | sent empty room =>
    subst room
    exact ⟨rfl,deliveredOther other,rfl⟩
  | dropped _ noRoom =>
    subst noRoom
    exact ⟨rfl,rfl,rfl⟩
  | retained power => exact absurd power other
  | replaced power => exact absurd power other
  | kept power => exact absurd power other

def PowerSlot (s : Poller) : Prop := ∀ edge, s.pendingPower = some edge → edge.role = .powerButton

theorem retriedSlot {s after : Poller} {notes : List Note} (retried : Retried s after notes)
    (before : PowerSlot s) : PowerSlot after := by
  cases retried with
  | idle => exact before
  | sent => rintro edge ⟨⟩

theorem forwardedSlot {s after : Poller} {edge : GpioEdge} {full : Bool} {notes : List Note}
    (forwarded : Forwarded s edge full after notes) (before : PowerSlot s) : PowerSlot after := by
  cases forwarded with
  | sent => exact before
  | dropped => exact before
  | retained power => rintro edge ⟨⟩; exact power
  | replaced power => rintro edge ⟨⟩; exact power
  | kept => exact before

theorem sampledSlot {config : PollConfig} {s after : Poller} {r : Reading} {notes : List Note}
    (sampled : Sampled config s r after notes) (before : PowerSlot s) : PowerSlot after := by
  cases sampled with
  | steady => exact before
  | candidate => exact before
  | waits => exact before
  | confirms => exact forwardedSlot (forwardCases _ _ _) before

theorem powerSlotStep (config : PollConfig) (s : Poller) (pass : Pass) (before : PowerSlot s) :
    PowerSlot (s.step config pass).1 := by
  cases pass with
  | retry full => exact retriedSlot (retryCases s full) before
  | sample r => exact sampledSlot (sampleCases config s r) before

theorem retriedPresents {s after : Poller} {notes : List Note} (retried : Retried s after notes)
    (slot : PowerSlot s) (delivered : List GpioEdge) :
    presented after (delivered ++ deliveredEdges .powerButton notes) = presented s delivered := by
  unfold presented
  cases retried with
  | idle => simp [deliveredEdges]
  | sent edge waiting =>
    rw [waiting,← slot edge waiting,deliveredSelf]
    simp

theorem sampledPresents {config : PollConfig} {s after : Poller} {r : Reading}
    {notes : List Note} (sampled : Sampled config s r after notes) (delivered : List GpioEdge) :
    (confirmedEdges .powerButton notes = [] ∧
      after.confirmed .powerButton = s.confirmed .powerButton ∧
      presented after (delivered ++ deliveredEdges .powerButton notes) = presented s delivered) ∨
    ∃ edge, confirmedEdges .powerButton notes = [edge] ∧
      edge.level ≠ s.confirmed .powerButton ∧ after.confirmed .powerButton = edge.level ∧
      Presents edge (presented s delivered)
        (presented after (delivered ++ deliveredEdges .powerButton notes)) := by
  have quiet : presented s (delivered ++ deliveredEdges .powerButton []) = presented s delivered :=
    congrArg (presented s) (List.append_nil delivered)
  have edges := sampledEdges sampled .powerButton
  cases sampled with
  | steady => exact .inl ⟨rfl,rfl,quiet⟩
  | candidate => exact .inl ⟨rfl,rfl,quiet⟩
  | waits => exact .inl ⟨rfl,rfl,quiet⟩
  | confirms differs since candidate held =>
    have forwarded := forwardCases (s.settled config r) (r.edge config) r.full
    rcases edges with ⟨none,same⟩ | ⟨power,one,apart,now⟩
    · have other : (r.edge config).role ≠ .powerButton := by
        intro power
        rw [← List.singleton_append,confirmedAppend,← power,confirmedSelf] at none
        cases none
      obtain ⟨unchanged,undelivered,_⟩ := forwardedOther forwarded other
      refine .inl ⟨none,same,?_⟩
      rw [← List.singleton_append,deliveredAppend,unchanged,undelivered]
      exact quiet
    · exact .inr ⟨_,one,apart,now,forwardedPresents forwarded power.symm delivered⟩

structure InOrder (pressed : Bool) (confirmed presented : List GpioEdge) : Prop where
  sublist : presented.Sublist confirmed
  apart : presented.IsChain (fun a b => a.level = true → b.level = false)
  last : ∀ edge, presented.getLast? = some edge → edge.level = true → pressed = true

theorem presentsInOrder {pressed : Bool} {confirmed before after : List GpioEdge}
    {edge : GpioEdge} (order : InOrder pressed confirmed before) (differs : edge.level ≠ pressed)
    (presents : Presents edge before after) :
    InOrder edge.level (confirmed ++ [edge]) after := by
  cases presents with
  | appended =>
    refine ⟨order.sublist.append_right [edge],?_,?_⟩
    · refine order.apart.append (List.isChain_singleton _) ?_
      intro x last y head press
      cases head
      rw [order.last x last press] at differs
      exact Bool.eq_false_iff.mpr differs
    · intro e last press
      rw [List.getLast?_concat] at last
      cases last
      exact press
  | replaced front waiting newer =>
    have release : edge.level = false := by
      rcases newer with press | release
      · rw [order.last waiting (List.getLast?_concat ..) press] at differs
        exact Bool.eq_false_iff.mpr differs
      · exact release
    have shorter : front.Sublist confirmed := (List.sublist_append_left _ _).trans order.sublist
    refine ⟨shorter.append_right [edge],?_,?_⟩
    · refine order.apart.left_of_append.append (List.isChain_singleton _) ?_
      intro x _ y head _
      cases head
      exact release
    · intro e last press
      rw [List.getLast?_concat] at last
      cases last
      exact press
  | kept front waiting release =>
    refine ⟨order.sublist.trans (List.sublist_append_left _ _),order.apart,?_⟩
    intro e last press
    rw [List.getLast?_concat] at last
    cases last
    rw [release] at press
    cases press

def Ordered (w : Poller × History) : Prop :=
  InOrder (w.1.confirmed .powerButton) (confirmedEdges .powerButton w.2.notes)
    (presented w.1 (deliveredEdges .powerButton w.2.notes))

theorem orderedStep (config : PollConfig) (w : Poller × History) (pass : Pass)
    (slot : PowerSlot w.1) (before : Ordered w) : Ordered (watched config w pass).1 := by
  have step : (confirmedEdges .powerButton (w.1.step config pass).2 = [] ∧
      (w.1.step config pass).1.confirmed .powerButton = w.1.confirmed .powerButton ∧
      presented (w.1.step config pass).1 (deliveredEdges .powerButton w.2.notes ++
        deliveredEdges .powerButton (w.1.step config pass).2) =
        presented w.1 (deliveredEdges .powerButton w.2.notes)) ∨
      ∃ edge, confirmedEdges .powerButton (w.1.step config pass).2 = [edge] ∧
        edge.level ≠ w.1.confirmed .powerButton ∧
        (w.1.step config pass).1.confirmed .powerButton = edge.level ∧
        Presents edge (presented w.1 (deliveredEdges .powerButton w.2.notes))
          (presented (w.1.step config pass).1 (deliveredEdges .powerButton w.2.notes ++
            deliveredEdges .powerButton (w.1.step config pass).2)) := by
    cases pass with
    | retry full =>
      have retried := retryCases w.1 full
      exact .inl ⟨retriedUnconfirmed retried _,congrFun (retriedKeeps retried).1 _,
        retriedPresents retried slot _⟩
    | sample r => exact sampledPresents (sampleCases config w.1 r) _
  change InOrder ((w.1.step config pass).1.confirmed .powerButton)
    (confirmedEdges .powerButton (w.2.notes ++ (w.1.step config pass).2))
    (presented (w.1.step config pass).1
      (deliveredEdges .powerButton (w.2.notes ++ (w.1.step config pass).2)))
  rw [confirmedAppend,deliveredAppend]
  rcases step with ⟨none,same,still⟩ | ⟨edge,one,differs,now,presents⟩
  · rw [none,same,still,List.append_nil]
    exact before
  · rw [one,now]
    exact presentsInOrder before differs presents

theorem aboutSelf {role : PinRole} {notes : List Note}
    (own : ∀ note ∈ notes, note.edge.role = role) : about role notes = notes := by
  apply List.filter_eq_self.mpr
  intro note mem
  simpa using own note mem

theorem aboutOther {role : PinRole} {notes : List Note}
    (other : ∀ note ∈ notes, note.edge.role ≠ role) : about role notes = [] := by
  apply List.filter_eq_nil_iff.mpr
  intro note mem
  simpa using other note mem

theorem sampledAbout {config : PollConfig} {s after : Poller} {r : Reading} {notes : List Note}
    (sampled : Sampled config s r after notes) {role : PinRole} (other : role ≠ .powerButton) :
    about role notes = [] ∨ ∃ edge, ∃ full : Bool, about role notes =
      [.confirmed edge,if full then .dropped edge else .delivered edge] := by
  cases sampled with
  | steady => exact .inl rfl
  | candidate => exact .inl rfl
  | waits => exact .inl rfl
  | confirms differs since candidate held =>
    have forwarded := forwardCases (s.settled config r) (r.edge config) r.full
    have edges : ∀ note ∈ .confirmed (r.edge config) ::
        ((s.settled config r).forward (r.edge config) r.full).2, note.edge.role = r.role := by
      intro note mem
      rcases List.mem_cons.mp mem with rfl | mem
      · rfl
      · rcases forwardedNotes forwarded note mem with rfl | rfl <;> rfl
    by_cases own : r.role = role
    · have away : (r.edge config).role ≠ .powerButton := by rw [← own] at other; exact other
      refine .inr ⟨r.edge config,r.full,?_⟩
      rw [aboutSelf (own ▸ edges),(forwardedOther forwarded away).2.2]
    · exact .inl (aboutOther fun note mem => (edges note mem).symm ▸ own)

theorem retriedAbout {s after : Poller} {notes : List Note} (retried : Retried s after notes)
    (slot : PowerSlot s) {role : PinRole} (other : role ≠ .powerButton) : about role notes = [] := by
  cases retried with
  | idle => rfl
  | sent edge waiting =>
    apply aboutOther
    intro note mem
    cases List.mem_singleton.mp mem
    exact (slot edge waiting).symm ▸ other.symm

theorem accountedStep (config : PollConfig) {role : PinRole} (other : role ≠ .powerButton)
    (w : Poller × History) (pass : Pass) (slot : PowerSlot w.1)
    (before : Accounted role w.2.notes) : Accounted role (watched config w pass).1.2.notes := by
  have step : about role (w.1.step config pass).2 = [] ∨
      ∃ edge, ∃ full : Bool, about role (w.1.step config pass).2 =
        [.confirmed edge,if full then .dropped edge else .delivered edge] := by
    cases pass with
    | retry full => exact .inl (retriedAbout (retryCases w.1 full) slot other)
    | sample r => exact sampledAbout (sampleCases config w.1 r) other
  have notes : about role (watched config w pass).1.2.notes =
      about role w.2.notes ++ about role (w.1.step config pass).2 := List.filter_append ..
  obtain ⟨tried,same⟩ := before
  rcases step with none | ⟨edge,full,pair⟩
  · refine ⟨tried,?_⟩
    rw [notes,none,List.append_nil]
    exact same
  · refine ⟨tried ++ [(edge,full)],?_⟩
    rw [notes,pair,same,List.flatMap_append]
    rfl

theorem chainReleased {edges : List GpioEdge}
    (chain : edges.IsChain (fun a b => a.level = true → b.level = false)) : Released edges := by
  intro front press middle next back same pressed pressedAgain
  rw [same,List.append_assoc] at chain
  have behind := chain.right_of_append
  cases middle with
  | nil =>
    have release := (List.isChain_cons_cons.mp behind).1 pressed
    rw [pressedAgain] at release
    cases release
  | cons edge rest =>
    exact ⟨edge,List.mem_cons_self,(List.isChain_cons_cons.mp behind).1 pressed⟩

structure Sound (seed : PinRole → Bool) (w : Poller × History) : Prop where
  slot : PowerSlot w.1
  held : Held w
  alternating : ∀ role, Alternating seed role w
  accounted : ∀ role, role ≠ .powerButton → Accounted role w.2.notes
  ordered : Ordered w

theorem soundStep (config : PollConfig) {seed : PinRole → Bool} (w : Poller × History)
    (pass : Pass) (sound : Sound seed w) : Sound seed (watched config w pass).1 where
  slot := powerSlotStep config w.1 pass sound.slot
  held := heldStep config w pass sound.held
  alternating role := alternatingStep config seed role w pass (sound.alternating role)
  accounted role other := accountedStep config other w pass sound.slot (sound.accounted role other)
  ordered := orderedStep config w pass sound.slot sound.ordered

theorem soundStart (config : PollConfig) (physicalHigh levels : PinRole → Bool) :
    Sound (Poller.start config physicalHigh levels).confirmed
      (Poller.start config physicalHigh levels,History.fresh) where
  slot := by rintro edge ⟨⟩
  held := by rintro role level since ⟨⟩
  alternating role := ⟨List.isChain_singleton _,rfl⟩
  accounted role _ := ⟨[],rfl⟩
  ordered := ⟨List.Sublist.refl _,List.isChain_nil,by rintro edge ⟨⟩⟩

theorem pollingDebouncesInOrder (config : PollConfig) (physicalHigh levels : PinRole → Bool)
    (ticks : List Tick) :
    let start := Poller.start config physicalHigh levels
    let passes := ticks.flatMap (Tick.passes config)
    let notes := (Machine.run (watched config) (start,History.fresh) passes).2.notes
    Machine.EachStep (watched config) (Debounced config) (start,History.fresh) passes ∧
    (∀ role, (confirmedLevels start.confirmed role notes).IsChain (· ≠ ·)) ∧
    (∀ role, role ≠ .powerButton → Accounted role notes) ∧
    (deliveredEdges .powerButton notes).Sublist (confirmedEdges .powerButton notes) ∧
    Released (deliveredEdges .powerButton notes) := by
  intro start passes notes
  have initial := soundStart config physicalHigh levels
  have sound := Machine.runInvariant (watched config) (Sound start.confirmed) (fun _ => True)
    (fun w pass _ => soundStep config w pass) initial (fun pass (_ : pass ∈ passes) => trivial)
  have debounced := Machine.eachStepOf (watched config) (soundStep config)
    (fun w pass (sound : Sound start.confirmed w) => heldDebounces config w pass sound.held)
    initial passes
  have chain := sound.ordered.apart.left_of_append
  exact ⟨debounced,fun role => (sound.alternating role).1,sound.accounted,
    (List.sublist_append_left _ _).trans sound.ordered.sublist,chainReleased chain⟩

end TelephoneBooth.EdgePolling
