import Mathlib.Algebra.Group.Nat.Defs
import TelephoneBooth.Numbered
import TelephoneBooth.Transition

/-! The telemetry bus. A publish takes its id from a counter, then updates the status-LED slot,
pushes into the replay ring and sends to the live subscribers; other publishers may run between
any two of the four. A client catches up by polling from the largest id it has seen. -/
namespace TelephoneBooth

structure TelemetryRecord (ε : Type*) where
  id : Nat
  ts : Nat
  event : ε
  deriving DecidableEq, Repr

instance {ε : Type*} [DecidableEq ε] : LawfulBEq (TelemetryRecord ε) := inferInstance

structure RingBuffer (ε : Type*) where
  capacity : Nat
  records : List (TelemetryRecord ε)

namespace RingBuffer
variable {ε : Type*}

def evict (capacity : Nat) : List (TelemetryRecord ε) → List (TelemetryRecord ε)
  | [] => []
  | oldest :: rest =>
    if capacity ≤ (oldest :: rest).length then evict capacity rest else oldest :: rest

def push (ring : RingBuffer ε) (record : TelemetryRecord ε) : RingBuffer ε :=
  if ring.capacity = 0 then ring
  else { ring with records := evict ring.capacity ring.records ++ [record] }

def snapshotSince (ring : RingBuffer ε) (sinceId : Option Nat) : List (TelemetryRecord ε) :=
  ring.records.filter fun record => sinceId.all fun id => decide (id < record.id)

theorem evictSuffix (capacity : Nat) (records : List (TelemetryRecord ε)) :
    evict capacity records <:+ records := by
  induction records with
  | nil => exact List.suffix_refl _
  | cons oldest rest ih =>
    unfold evict
    split
    · exact ih.trans (List.suffix_cons _ _)
    · exact List.suffix_refl _

theorem pushSublist (ring : RingBuffer ε) (record : TelemetryRecord ε) :
    (ring.push record).records.Sublist (ring.records ++ [record]) := by
  unfold push
  split
  · exact List.sublist_append_left _ _
  · exact (evictSuffix _ _).sublist.append_right _

theorem pushMem {ring : RingBuffer ε} {record held : TelemetryRecord ε}
    (mem : held ∈ (ring.push record).records) : held ∈ ring.records ∨ held = record := by
  have kept := (pushSublist ring record).subset mem
  rwa [List.mem_append,List.mem_singleton] at kept

theorem snapshotMem {ring : RingBuffer ε} {sinceId : Option Nat} {record : TelemetryRecord ε} :
    record ∈ ring.snapshotSince sinceId ↔ record ∈ ring.records ∧ ∀ id ∈ sinceId, id < record.id := by
  simp only [snapshotSince,List.mem_filter,Option.all_eq_true,decide_eq_true_eq,Option.mem_def]

end RingBuffer

structure TelemetryBus (ε : Type*) where
  ring : RingBuffer ε
  nextId : Nat
  latestStatusLed : Option (TelemetryRecord ε)
  sent : List (TelemetryRecord ε)
  allocated : List (TelemetryRecord ε)
  slotted : List (TelemetryRecord ε)
  pushed : List (TelemetryRecord ε)

inductive PublishLabel (ε : Type*) where
  | allocate (event : ε) (ts : Nat)
  | slot (record : TelemetryRecord ε)
  | push (record : TelemetryRecord ε)
  | send (record : TelemetryRecord ε)

namespace TelemetryBus
variable {ε : Type*} [DecidableEq ε] (isStatusLed : ε → Bool)

def new (capacity : Nat) : TelemetryBus ε := ⟨⟨capacity,[]⟩,0,none,[],[],[],[]⟩

def slotWith (latest : Option (TelemetryRecord ε)) (record : TelemetryRecord ε) :
    Option (TelemetryRecord ε) :=
  if isStatusLed record.event ∧ (latest.all fun held => decide (held.id < record.id)) then some record
  else latest

def publishStep (bus : TelemetryBus ε) : PublishLabel ε → Option (TelemetryBus ε)
  | .allocate event ts =>
    let id := (bus.nextId + 1) % 2 ^ 64
    some { bus with nextId := id, allocated := ⟨id,ts,event⟩ :: bus.allocated }
  | .slot record =>
    if record ∈ bus.allocated then
      some { bus with
        latestStatusLed := slotWith isStatusLed bus.latestStatusLed record
        allocated := bus.allocated.erase record
        slotted := record :: bus.slotted }
    else none
  | .push record =>
    if record ∈ bus.slotted then
      some { bus with
        ring := bus.ring.push record
        slotted := bus.slotted.erase record
        pushed := record :: bus.pushed }
    else none
  | .send record =>
    if record ∈ bus.pushed then
      some { bus with sent := bus.sent ++ [record], pushed := bus.pushed.erase record }
    else none

def unpushed (bus : TelemetryBus ε) : List (TelemetryRecord ε) := bus.allocated ++ bus.slotted

def unsent (bus : TelemetryBus ε) : List (TelemetryRecord ε) := bus.unpushed ++ bus.pushed

def InIdOrder (bus : TelemetryBus ε) : PublishLabel ε → Prop
  | .allocate _ _ => bus.nextId + 1 < 2 ^ 64
  | .push record => ∀ other ∈ bus.unpushed, record.id ≤ other.id
  | _ => True

instance (bus : TelemetryBus ε) (label : PublishLabel ε) : Decidable (bus.InIdOrder label) := by
  unfold InIdOrder
  split <;> infer_instance

inductive Published (bus : TelemetryBus ε) : PublishLabel ε → TelemetryBus ε → Prop
  | allocated {event ts after} (ring : after.ring = bus.ring)
      (id : after.nextId = (bus.nextId + 1) % 2 ^ 64)
      (unpushed : after.unpushed = ⟨after.nextId,ts,event⟩ :: bus.unpushed) :
      Published bus (.allocate event ts) after
  | moved {label after} (ring : after.ring = bus.ring) (id : after.nextId = bus.nextId)
      (unpushed : after.unpushed.Perm bus.unpushed) : Published bus label after
  | pushed {record after} (ring : after.ring = bus.ring.push record) (id : after.nextId = bus.nextId)
      (unpushed : bus.unpushed.Perm (record :: after.unpushed)) : Published bus (.push record) after

theorem publishCases {bus after : TelemetryBus ε} {label : PublishLabel ε}
    (stepped : bus.publishStep isStatusLed label = some after) : Published bus label after := by
  cases label with
  | allocate event ts =>
    obtain rfl := Option.some.inj stepped
    exact .allocated rfl rfl rfl
  | slot record =>
    obtain ⟨mem,made⟩ := Option.ite_none_right_eq_some.mp stepped
    obtain rfl := Option.some.inj made
    refine .moved rfl rfl ?_
    have taken := (List.perm_cons_erase mem).append_right bus.slotted
    exact List.perm_middle.trans taken.symm
  | push record =>
    obtain ⟨mem,made⟩ := Option.ite_none_right_eq_some.mp stepped
    obtain rfl := Option.some.inj made
    have taken := (List.perm_cons_erase mem).append_left bus.allocated
    exact .pushed rfl rfl (taken.trans List.perm_middle)
  | send record =>
    obtain ⟨_,made⟩ := Option.ite_none_right_eq_some.mp stepped
    obtain rfl := Option.some.inj made
    exact .moved rfl rfl (.refl _)

def Ordered (bus : TelemetryBus ε) : Prop :=
  Numbered.InOrder TelemetryRecord.id bus.ring.records bus.unpushed bus.nextId

omit [DecidableEq ε] in
theorem newOrdered (capacity : Nat) : Ordered (new capacity : TelemetryBus ε) :=
  Numbered.inOrderStart 0

omit [DecidableEq ε] in
theorem publishOrdered {bus after : TelemetryBus ε} {label : PublishLabel ε} (ordered : Ordered bus)
    (stepped : Published bus label after) (inOrder : bus.InIdOrder label) : Ordered after := by
  unfold Ordered
  cases stepped with
  | allocated ring id unpushed =>
    have next : after.nextId = bus.nextId + 1 := id.trans (Nat.mod_eq_of_lt inOrder)
    rw [ring,unpushed,next]
    exact ordered.issue rfl
  | moved ring id unpushed =>
    rw [ring,id]
    exact ordered.moved unpushed
  | pushed ring id unpushed =>
    rw [ring,id]
    exact (ordered.take unpushed inOrder).forget (RingBuffer.pushSublist _ _)

def SendsInOrder (bus : TelemetryBus ε) : PublishLabel ε → Prop
  | .send record => ∀ other ∈ bus.unsent, record.id ≤ other.id
  | _ => True

instance (bus : TelemetryBus ε) (label : PublishLabel ε) : Decidable (bus.SendsInOrder label) := by
  unfold SendsInOrder
  split <;> infer_instance

inductive Sent (bus : TelemetryBus ε) : PublishLabel ε → TelemetryBus ε → Prop
  | allocated {event ts after} (sent : after.sent = bus.sent)
      (id : after.nextId = (bus.nextId + 1) % 2 ^ 64)
      (unsent : after.unsent = ⟨after.nextId,ts,event⟩ :: bus.unsent) :
      Sent bus (.allocate event ts) after
  | moved {label after} (sent : after.sent = bus.sent) (id : after.nextId = bus.nextId)
      (unsent : after.unsent.Perm bus.unsent) : Sent bus label after
  | sent {record after} (sent : after.sent = bus.sent ++ [record]) (id : after.nextId = bus.nextId)
      (unsent : bus.unsent.Perm (record :: after.unsent)) : Sent bus (.send record) after

theorem sentCases {bus after : TelemetryBus ε} {label : PublishLabel ε}
    (stepped : bus.publishStep isStatusLed label = some after) : Sent bus label after := by
  cases label with
  | allocate event ts =>
    obtain rfl := Option.some.inj stepped
    exact .allocated rfl rfl rfl
  | slot record =>
    obtain ⟨mem,made⟩ := Option.ite_none_right_eq_some.mp stepped
    obtain rfl := Option.some.inj made
    have taken := (List.perm_cons_erase mem).append_right bus.slotted
    exact .moved rfl rfl ((List.perm_middle.trans taken.symm).append_right bus.pushed)
  | push record =>
    obtain ⟨mem,made⟩ := Option.ite_none_right_eq_some.mp stepped
    obtain rfl := Option.some.inj made
    have taken := ((List.perm_cons_erase mem).append_left bus.allocated).trans List.perm_middle
    exact .moved rfl rfl (List.perm_middle.trans (taken.symm.append_right bus.pushed))
  | send record =>
    obtain ⟨mem,made⟩ := Option.ite_none_right_eq_some.mp stepped
    obtain rfl := Option.some.inj made
    have taken := (List.perm_cons_erase mem).append_left bus.unpushed
    exact .sent rfl rfl (taken.trans List.perm_middle)

def Live (bus : TelemetryBus ε) : Prop :=
  Numbered.InOrder TelemetryRecord.id bus.sent bus.unsent bus.nextId

omit [DecidableEq ε] in
theorem sentLive {bus after : TelemetryBus ε} {label : PublishLabel ε} (live : Live bus)
    (stepped : Sent bus label after) (inOrder : bus.InIdOrder label) (sends : bus.SendsInOrder label) :
    Live after := by
  unfold Live
  cases stepped with
  | allocated sent id unsent =>
    have next : after.nextId = bus.nextId + 1 := id.trans (Nat.mod_eq_of_lt inOrder)
    rw [sent,unsent,next]
    exact live.issue rfl
  | moved sent id unsent =>
    rw [sent,id]
    exact live.moved unsent
  | sent sent id unsent =>
    rw [sent,id]
    exact live.take unsent sends

def Issued (bus : TelemetryBus ε) (record : TelemetryRecord ε) : Prop :=
  record ∈ bus.sent ∨ record ∈ bus.unsent

omit [DecidableEq ε] in
theorem issuedGrows {bus after : TelemetryBus ε} {label : PublishLabel ε}
    (stepped : Sent bus label after) {record : TelemetryRecord ε} (issued : bus.Issued record) :
    after.Issued record := by
  cases stepped with
  | allocated sent id unsent =>
    refine issued.imp (fun mem => sent ▸ mem) fun mem => ?_
    rw [unsent]
    exact List.mem_cons_of_mem _ mem
  | moved sent id unsent =>
    exact issued.imp (fun mem => sent ▸ mem) unsent.mem_iff.mpr
  | sent sent id unsent =>
    rcases issued with done | waits
    · left
      rw [sent]
      exact List.mem_append_left _ done
    · rcases List.mem_cons.mp (unsent.mem_iff.mp waits) with rfl | later
      · left
        rw [sent]
        exact List.mem_append_right _ (List.mem_singleton.mpr rfl)
      · exact .inr later

structure Sound (bus : TelemetryBus ε) : Prop where
  ring : bus.Ordered
  live : bus.Live
  held : ∀ record ∈ bus.ring.records, record ∈ bus.sent ∨ record ∈ bus.pushed
  led : ∀ record ∈ bus.latestStatusLed, bus.Issued record

omit [DecidableEq ε] in
theorem newSound (capacity : Nat) : Sound (new capacity : TelemetryBus ε) :=
  ⟨newOrdered capacity,Numbered.inOrderStart 0,nofun,nofun⟩

theorem publishSound {bus after : TelemetryBus ε} {label : PublishLabel ε} (sound : Sound bus)
    (stepped : bus.publishStep isStatusLed label = some after) (inOrder : bus.InIdOrder label)
    (sends : bus.SendsInOrder label) : Sound after := by
  have sent := sentCases isStatusLed stepped
  refine ⟨publishOrdered sound.ring (publishCases isStatusLed stepped) inOrder,
    sentLive sound.live sent inOrder sends,?_,?_⟩
  · intro record mem
    cases label with
    | allocate event ts =>
      obtain rfl := Option.some.inj stepped
      exact sound.held record mem
    | slot other =>
      obtain ⟨_,made⟩ := Option.ite_none_right_eq_some.mp stepped
      obtain rfl := Option.some.inj made
      exact sound.held record mem
    | push other =>
      obtain ⟨_,made⟩ := Option.ite_none_right_eq_some.mp stepped
      obtain rfl := Option.some.inj made
      rcases RingBuffer.pushMem mem with old | rfl
      · exact (sound.held record old).imp_right (List.mem_cons_of_mem _)
      · exact .inr List.mem_cons_self
    | send other =>
      obtain ⟨there,made⟩ := Option.ite_none_right_eq_some.mp stepped
      obtain rfl := Option.some.inj made
      rcases sound.held record mem with done | waits
      · exact .inl (List.mem_append_left _ done)
      · rcases List.mem_cons.mp ((List.perm_cons_erase there).mem_iff.mp waits) with rfl | later
        · exact .inl (List.mem_append_right _ (List.mem_singleton.mpr rfl))
        · exact .inr later
  · intro record mem
    cases label with
    | slot other =>
      obtain ⟨there,made⟩ := Option.ite_none_right_eq_some.mp stepped
      have slot : slotWith isStatusLed bus.latestStatusLed other = some record := by
        obtain rfl := Option.some.inj made
        exact mem
      unfold slotWith at slot
      split at slot
      · obtain rfl := Option.some.inj slot
        exact issuedGrows sent (.inr (List.mem_append_left _ (List.mem_append_left _ there)))
      · exact issuedGrows sent (sound.led record slot)
    | allocate event ts =>
      refine issuedGrows sent (sound.led record ?_)
      obtain rfl := Option.some.inj stepped
      exact mem
    | push other | send other =>
      refine issuedGrows sent (sound.led record ?_)
      obtain ⟨_,made⟩ := Option.ite_none_right_eq_some.mp stepped
      obtain rfl := Option.some.inj made
      exact mem

omit [DecidableEq ε] in
theorem knownGrows {bus after : TelemetryBus ε} {label : PublishLabel ε}
    (stepped : Published bus label after) (inOrder : bus.InIdOrder label)
    {record : TelemetryRecord ε} (mem : record ∈ after.ring.records ∨ record ∈ after.unpushed) :
    (record ∈ bus.ring.records ∨ record ∈ bus.unpushed) ∨ bus.nextId < record.id := by
  cases stepped with
  | allocated ring id unpushed =>
    have next : after.nextId = bus.nextId + 1 := id.trans (Nat.mod_eq_of_lt inOrder)
    rcases mem with held | waits
    · exact .inl (.inl (ring ▸ held))
    · rw [unpushed] at waits
      rcases List.mem_cons.mp waits with rfl | old
      · right
        show bus.nextId < after.nextId
        omega
      · exact .inl (.inr old)
  | moved ring id unpushed =>
    exact .inl (mem.imp (fun held => ring ▸ held) unpushed.mem_iff.mp)
  | pushed ring id unpushed =>
    left
    rcases mem with held | waits
    · rcases RingBuffer.pushMem (ring ▸ held) with old | rfl
      · exact .inl old
      · exact .inr (unpushed.mem_iff.mpr List.mem_cons_self)
    · exact .inr (unpushed.mem_iff.mpr (List.mem_cons_of_mem _ waits))

end TelemetryBus

end TelephoneBooth
