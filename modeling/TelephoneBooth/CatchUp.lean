import TelephoneBooth.TelemetryBus

/-! Catching up by cursor: a client that polls the replay ring from the largest id it has seen,
while publishers run beside it. -/
namespace TelephoneBooth

structure CatchUp (ε : Type*) where
  bus : TelemetryBus ε
  seen : Option Nat
  returned : List (TelemetryRecord ε)

inductive CatchUpLabel (ε : Type*) where
  | publish (label : PublishLabel ε)
  | poll

def largestSeen {ε : Type*} (seen : Option Nat) (records : List (TelemetryRecord ε)) : Option Nat :=
  records.foldl (fun seen record => some (max (seen.getD 0) record.id)) seen

namespace CatchUp
variable {ε : Type*} [DecidableEq ε] (isStatusLed : ε → Bool)

def boot (capacity : Nat) : CatchUp ε := ⟨.new capacity,none,[]⟩

def step (s : CatchUp ε) : CatchUpLabel ε → Option (CatchUp ε)
  | .publish label => (s.bus.publishStep isStatusLed label).map fun bus => { s with bus }
  | .poll =>
    let records := s.bus.ring.snapshotSince s.seen
    some { s with seen := largestSeen s.seen records, returned := s.returned ++ records }

end CatchUp

def InIncreasingOrder {ε : Type*} (records : List (TelemetryRecord ε)) : Prop :=
  records.Pairwise fun a b => a.id < b.id

/-- The ring is in the order of the ids throughout, and a record that is in it at some poll is
returned exactly once over all polls of the run. -/
structure CatchesUp {ε : Type*} [DecidableEq ε] (isStatusLed : ε → Bool) (capacity : Nat)
    (labels : List (CatchUpLabel ε)) : Prop where
  increasing : Transition.Along (CatchUp.step isStatusLed)
    (fun _ _ after => InIncreasingOrder after.bus.ring.records) (CatchUp.boot capacity) labels
  once : ∀ before after polled last, labels = before ++ .poll :: after →
    Transition.final (CatchUp.step isStatusLed) (CatchUp.boot capacity) before = some polled →
    Transition.final (CatchUp.step isStatusLed) (CatchUp.boot capacity) labels = some last →
    ∀ record ∈ polled.bus.ring.records, last.returned.count record = 1

def PushesInOrder {ε : Type*} (s : CatchUp ε) (label : CatchUpLabel ε) (_ : CatchUp ε) : Prop :=
  match label with
  | .publish label => s.bus.InIdOrder label
  | .poll => True

instance {ε : Type*} (s : CatchUp ε) (label : CatchUpLabel ε) (after : CatchUp ε) :
    Decidable (PushesInOrder s label after) := by
  unfold PushesInOrder
  split <;> infer_instance

section Seen
variable {ε : Type*} {seen : Option Nat} {records : List (TelemetryRecord ε)}

theorem seenGrows {id : Nat} (before : id ∈ seen) : ∃ top ∈ largestSeen seen records, id ≤ top := by
  induction records generalizing seen id with
  | nil => exact ⟨id,before,Nat.le_refl _⟩
  | cons record rest ih =>
    obtain rfl : seen = some id := before
    obtain ⟨top,mem,above⟩ := @ih (some (max id record.id)) _ rfl
    exact ⟨top,mem,by omega⟩

theorem seenCovers {record : TelemetryRecord ε} (mem : record ∈ records) :
    ∃ top ∈ largestSeen seen records, record.id ≤ top := by
  induction records generalizing seen with
  | nil => cases mem
  | cons first rest ih =>
    rcases List.mem_cons.mp mem with rfl | later
    · obtain ⟨top,found,above⟩ := @seenGrows ε (some (max (seen.getD 0) record.id)) rest _ rfl
      exact ⟨top,found,by omega⟩
    · exact ih later

theorem seenFrom {top : Nat} (found : top ∈ largestSeen seen records) :
    top ∈ seen ∨ ∃ record ∈ records, record.id = top := by
  induction records generalizing seen with
  | nil => exact .inl found
  | cons first rest ih =>
    rcases ih found with here | ⟨record,mem,same⟩
    · have value : max (seen.getD 0) first.id = top := Option.some.inj here
      cases seen with
      | none => exact .inr ⟨first,List.mem_cons_self,by rw [← value]; exact (Nat.zero_max _).symm⟩
      | some held =>
        have value : max held first.id = top := value
        by_cases low : held ≤ first.id
        · exact .inr ⟨first,List.mem_cons_self,by omega⟩
        · exact .inl (congrArg some (by omega))
    · exact .inr ⟨record,List.mem_cons_of_mem _ mem,same⟩

end Seen

structure CaughtUp {ε : Type*} (s : CatchUp ε) : Prop where
  bus : s.bus.Ordered
  reached : ∀ top ∈ s.seen, top ≤ s.bus.nextId
  ahead : ∀ top ∈ s.seen, ∀ other ∈ s.bus.unpushed, top < other.id
  returned : ∀ record ∈ s.returned, ∃ top ∈ s.seen, record.id ≤ top
  once : s.returned.Nodup
  caught : ∀ record ∈ s.bus.ring.records, ∀ top ∈ s.seen, record.id ≤ top → record ∈ s.returned

section Steps
variable {ε : Type*} [DecidableEq ε] (isStatusLed : ε → Bool)

theorem publishCaughtUp {s : CatchUp ε} {label : PublishLabel ε} {bus : TelemetryBus ε}
    (caughtUp : CaughtUp s) (stepped : s.bus.Published label bus) (inOrder : s.bus.InIdOrder label) :
    CaughtUp { s with bus } := by
  obtain ⟨ordered,reached,ahead,returned,once,caught⟩ := caughtUp
  have next := TelemetryBus.publishOrdered ordered stepped inOrder
  cases stepped with
  | allocated ring id unpushed =>
    have new : bus.nextId = s.bus.nextId + 1 := id.trans (Nat.mod_eq_of_lt inOrder)
    refine ⟨next,?_,?_,returned,once,?_⟩
    · intro top mem
      have := reached top mem
      show top ≤ bus.nextId
      omega
    · intro top mem other waits
      rcases List.mem_cons.mp (unpushed ▸ waits) with rfl | old
      · have := reached top mem
        show top < bus.nextId
        omega
      · exact ahead top mem other old
    · intro record mem
      exact caught record (ring ▸ mem)
  | moved ring id unpushed =>
    refine ⟨next,?_,?_,returned,once,?_⟩
    · intro top mem
      show top ≤ bus.nextId
      rw [id]
      exact reached top mem
    · intro top mem other waits
      exact ahead top mem other (unpushed.mem_iff.mp waits)
    · intro record mem
      exact caught record (ring ▸ mem)
  | @pushed record _ ring id unpushed =>
    refine ⟨next,?_,?_,returned,once,?_⟩
    · intro top mem
      show top ≤ bus.nextId
      rw [id]
      exact reached top mem
    · intro top mem other waits
      exact ahead top mem other (unpushed.mem_iff.mpr (List.mem_cons_of_mem _ waits))
    · intro held mem top seen below
      rcases RingBuffer.pushMem (ring ▸ mem) with old | rfl
      · exact caught held old top seen below
      · -- the new record is ahead of the cursor
        have := ahead top seen held (unpushed.mem_iff.mpr List.mem_cons_self)
        omega

omit [DecidableEq ε] in
theorem pollBrings {s : CatchUp ε} (caughtUp : CaughtUp s) {record : TelemetryRecord ε}
    (mem : record ∈ s.bus.ring.records) :
    record ∈ s.returned ++ s.bus.ring.snapshotSince s.seen := by
  by_cases above : ∀ top ∈ s.seen, top < record.id
  · exact List.mem_append_right _ (RingBuffer.snapshotMem.mpr ⟨mem,above⟩)
  · obtain ⟨top,seen,low⟩ : ∃ top, top ∈ s.seen ∧ record.id ≤ top := by
      by_contra none_
      refine above fun top seen => ?_
      by_contra high
      exact none_ ⟨top,seen,Nat.not_lt.mp high⟩
    exact List.mem_append_left _ (caughtUp.caught record mem top seen low)

omit [DecidableEq ε] in
theorem pollCaughtUp {s : CatchUp ε} (caughtUp : CaughtUp s) :
    CaughtUp { s with
      seen := largestSeen s.seen (s.bus.ring.snapshotSince s.seen)
      returned := s.returned ++ s.bus.ring.snapshotSince s.seen } := by
  have brings {record : TelemetryRecord ε} := @pollBrings ε s caughtUp record
  obtain ⟨ordered,reached,ahead,returned,once,caught⟩ := caughtUp
  have inRing {record} (mem : record ∈ s.bus.ring.snapshotSince s.seen) :=
    (RingBuffer.snapshotMem.mp mem).1
  refine ⟨ordered,?_,?_,?_,?_,?_⟩
  · intro top found
    rcases seenFrom found with before | ⟨record,mem,rfl⟩
    · exact reached top before
    · exact ordered.held record (inRing mem)
  · intro top found other waits
    rcases seenFrom found with before | ⟨record,mem,rfl⟩
    · exact ahead top before other waits
    · exact ordered.behind record (inRing mem) other waits
  · intro record mem
    rcases List.mem_append.mp mem with old | new
    · obtain ⟨top,seen,below⟩ := returned record old
      obtain ⟨later,found,above⟩ := @seenGrows ε s.seen (s.bus.ring.snapshotSince s.seen) top seen
      exact ⟨later,found,by omega⟩
    · exact seenCovers new
  · refine List.nodup_append.mpr ⟨once,?_,?_⟩
    · have increasing : (s.bus.ring.snapshotSince s.seen).Pairwise fun a b => a.id < b.id :=
        ordered.increasing.sublist List.filter_sublist
      exact increasing.imp fun {a b} less same => by
        rw [same] at less
        exact Nat.lt_irrefl _ less
    · rintro record old other new rfl
      -- what was returned before lies at or below the cursor
      obtain ⟨top,seen,below⟩ := returned record old
      have above := (RingBuffer.snapshotMem.mp new).2 top seen
      omega
  · intro record mem _ _ _
    exact brings mem

theorem caughtUpStep {s : CatchUp ε} {label : CatchUpLabel ε} {after : CatchUp ε}
    (stepped : s.step isStatusLed label = some after) (caughtUp : CaughtUp s)
    (inOrder : PushesInOrder s label after) : CaughtUp after := by
  cases label with
  | publish label =>
    obtain ⟨bus,published,rfl⟩ := Option.map_eq_some_iff.mp stepped
    exact publishCaughtUp caughtUp (TelemetryBus.publishCases isStatusLed published) inOrder
  | poll =>
    obtain rfl := Option.some.inj stepped
    exact pollCaughtUp caughtUp

omit [DecidableEq ε] in
theorem bootCaughtUp (capacity : Nat) : CaughtUp (CatchUp.boot capacity : CatchUp ε) :=
  ⟨TelemetryBus.newOrdered capacity,nofun,nofun,nofun,.nil,nofun⟩

theorem returnedGrows {s last : CatchUp ε} {labels : List (CatchUpLabel ε)}
    (ends_ : Transition.final (CatchUp.step isStatusLed) s labels = some last) :
    s.returned <+: last.returned := by
  refine Transition.finalInvariant (CatchUp.step isStatusLed) (fun t => s.returned <+: t.returned)
    (fun t label after stepped grown => ?_) (List.prefix_refl _) ends_
  cases label with
  | publish label =>
    obtain ⟨bus,_,rfl⟩ := Option.map_eq_some_iff.mp stepped
    exact grown
  | poll =>
    obtain rfl := Option.some.inj stepped
    exact grown.trans (List.prefix_append _ _)

theorem catchUpComplete {capacity : Nat} {labels : List (CatchUpLabel ε)}
    (inOrder : Transition.Along (CatchUp.step isStatusLed) PushesInOrder (CatchUp.boot capacity)
      labels) : CatchesUp isStatusLed capacity labels where
  increasing := Transition.along (CatchUp.step isStatusLed) CaughtUp
    (fun _ _ _ stepped caughtUp may =>
      have next := caughtUpStep isStatusLed stepped caughtUp may
      ⟨next,next.bus.increasing⟩) (bootCaughtUp capacity) inOrder
  once := by
    rintro before after polled last rfl reached ends_ record mem
    have caughtUp {labels t} (allowed : Transition.Along (CatchUp.step isStatusLed) PushesInOrder
        (CatchUp.boot capacity) labels)
        (reached : Transition.final (CatchUp.step isStatusLed) (CatchUp.boot capacity) labels =
          some t) : CaughtUp t :=
      Transition.finalAlong _ CaughtUp (fun _ _ _ => caughtUpStep isStatusLed)
        (bootCaughtUp capacity) allowed reached
    have atPoll := caughtUp (Transition.alongPrefix _ inOrder) reached
    have later := (Transition.finalAppend _ reached (.poll :: after)).symm.trans ends_
    rw [Transition.finalCons _ (rfl : polled.step isStatusLed .poll = some _)] at later
    have returned := (returnedGrows isStatusLed later).subset (pollBrings atPoll mem)
    exact List.count_eq_one_of_mem (caughtUp inOrder ends_).once returned

end Steps

theorem twoPublishersInOrder : CatchesUp (fun _ : Unit => false) 2
    [.publish (.allocate () 0),.publish (.allocate () 0),.publish (.slot ⟨1,0,()⟩),
      .publish (.slot ⟨2,0,()⟩),.publish (.push ⟨1,0,()⟩),.poll,.publish (.push ⟨2,0,()⟩),.poll] :=
  catchUpComplete _ (by decide)

/- The second publisher overtakes the first between the counter and the ring's lock: the client
polls record 2, and record 1 arrives below its cursor. -/
theorem overtakenRecordMissed : ¬ ∀ labels, CatchesUp (fun _ : Unit => false) 2 labels := by
  intro complete
  have once := (complete
    [.publish (.allocate () 0),.publish (.allocate () 0),.publish (.slot ⟨1,0,()⟩),
      .publish (.slot ⟨2,0,()⟩),.publish (.push ⟨2,0,()⟩),.poll,.publish (.push ⟨1,0,()⟩),
      .poll]).once [.publish (.allocate () 0),.publish (.allocate () 0),.publish (.slot ⟨1,0,()⟩),
        .publish (.slot ⟨2,0,()⟩),.publish (.push ⟨2,0,()⟩),.poll,.publish (.push ⟨1,0,()⟩)] []
      _ _ rfl rfl rfl ⟨1,0,()⟩ (by decide)
  revert once
  decide

end TelephoneBooth
