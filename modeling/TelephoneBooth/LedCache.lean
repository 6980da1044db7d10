import TelephoneBooth.Hal
import TelephoneBooth.TelemetryBus

/-! The status-LED cache of the debug server. It is seeded from the bus's slot after the server
has subscribed, and `track_status_led` keeps it current from the subscription; where records
were overwritten before it took them it reads the slot again. -/
namespace TelephoneBooth

structure LedIndication where
  colour : LedColour
  pattern : LedPattern
  atMonotonicNs : Nat
  deriving DecidableEq, Repr

structure StatusLedSnapshot where
  colour : LedColour
  pattern : LedPattern
  patternLabel : String
  atMonotonicNs : Nat
  updatedAt : Option String
  lastEventId : Nat
  deriving DecidableEq, Repr

def LedPattern.text : LedPattern → String
  | .steady brightness => s!"steady({brightness})"
  | .pulse periodMs => s!"pulse({periodMs}ms)"
  | .blink periodMs => s!"blink({periodMs}ms)"
  | .fade durationMs => s!"fade({durationMs}ms)"

def storeStatusLed (cache : Option StatusLedSnapshot) (snapshot : StatusLedSnapshot) :
    Option StatusLedSnapshot :=
  if cache.all fun held => decide (held.lastEventId ≤ snapshot.lastEventId) then some snapshot
  else cache

/- The server as it starts, then the loop of the tracker: before a `recv`, after one that
lagged, and with a snapshot to store. -/
inductive TrackerPhase where
  | unsubscribed
  | seeding
  | receiving
  | recovering
  | storing (snapshot : StatusLedSnapshot)
  deriving DecidableEq, Repr

/- `queue` is what the subscription still holds for the tracker; `lagged` tells that some of it
was overwritten since the last `recv` that said so. -/
structure LedTracker (ε : Type*) where
  bus : TelemetryBus ε
  phase : TrackerPhase
  queue : List (TelemetryRecord ε)
  lagged : Bool
  cache : Option StatusLedSnapshot

inductive TrackLabel (ε : Type*) where
  | publish (label : PublishLabel ε)
  | subscribe
  | seed
  | overwrite (record : TelemetryRecord ε)
  | receive
  | read
  | store

/- `statusLed` is the match on `StatusLed`, `rfc3339` the formatting of a time stamp. -/
variable {ε : Type*} (statusLed : ε → Option LedIndication) (rfc3339 : Nat → String)

def statusLedFromRecord (record : TelemetryRecord ε) : Option StatusLedSnapshot :=
  (statusLed record.event).map fun led =>
    ⟨led.colour,led.pattern,led.pattern.text,led.atMonotonicNs,some (rfc3339 record.ts),record.id⟩

def snapshotStatusLed (bus : TelemetryBus ε) : Option StatusLedSnapshot :=
  bus.latestStatusLed.bind (statusLedFromRecord statusLed rfc3339)

namespace LedTracker
variable [DecidableEq ε]

def boot (capacity : Nat) : LedTracker ε := ⟨.new capacity,.unsubscribed,[],false,none⟩

def hear (t : LedTracker ε) : PublishLabel ε → List (TelemetryRecord ε)
  | .send record => if t.phase = .unsubscribed then t.queue else t.queue ++ [record]
  | _ => t.queue

def storing : Option StatusLedSnapshot → TrackerPhase
  | some snapshot => .storing snapshot
  | none => .receiving

def step (t : LedTracker ε) : TrackLabel ε → Option (LedTracker ε)
  | .publish label =>
    (t.bus.publishStep (fun event => (statusLed event).isSome) label).map fun bus =>
      { t with bus, queue := t.hear label }
  | .subscribe =>
    match t.phase with
    | .unsubscribed => some { t with phase := .seeding }
    | _ => none
  | .seed =>
    match t.phase with
    | .seeding => some { t with
        phase := .receiving
        cache := snapshotStatusLed statusLed rfc3339 t.bus }
    | _ => none
  | .overwrite record =>
    if record ∈ t.queue then some { t with queue := t.queue.erase record, lagged := true }
    else none
  | .receive =>
    match t.phase, t.lagged, t.queue with
    | .receiving, true, _ => some { t with phase := .recovering, lagged := false }
    | .receiving, false, record :: rest => some { t with
        phase := storing (statusLedFromRecord statusLed rfc3339 record)
        queue := rest }
    | _, _, _ => none
  | .read =>
    match t.phase with
    | .recovering => some { t with phase := storing (snapshotStatusLed statusLed rfc3339 t.bus) }
    | _ => none
  | .store =>
    match t.phase with
    | .storing snapshot => some { t with
        phase := .receiving
        cache := storeStatusLed t.cache snapshot }
    | _ => none

end LedTracker

namespace TelemetryBus
variable {ε : Type*} (isStatusLed : ε → Bool)

def pastSlot (bus : TelemetryBus ε) : List (TelemetryRecord ε) :=
  bus.slotted ++ bus.pushed ++ bus.sent

def SlotNewest (bus : TelemetryBus ε) : Prop :=
  Numbered.Newest TelemetryRecord.id
    (fun record => record ∈ bus.pastSlot ∧ isStatusLed record.event = true) bus.latestStatusLed

theorem pastIssued {bus : TelemetryBus ε} {record : TelemetryRecord ε}
    (past : record ∈ bus.pastSlot) : bus.Issued record := by
  rcases List.mem_append.mp past with waits | sent
  · right
    rcases List.mem_append.mp waits with slotted | pushed
    · exact List.mem_append_left _ (List.mem_append_right _ slotted)
    · exact List.mem_append_right _ pushed
  · exact .inl sent

theorem slotPast {isStatusLed : ε → Bool} {bus : TelemetryBus ε} {record : TelemetryRecord ε}
    (newest : bus.SlotNewest isStatusLed) (slot : bus.latestStatusLed = some record) :
    record ∈ bus.pastSlot := by
  unfold SlotNewest at newest
  rw [slot] at newest
  exact newest.1.1

variable [DecidableEq ε]

theorem pastSlotStep {bus after : TelemetryBus ε} {label : PublishLabel ε}
    (stepped : bus.publishStep isStatusLed label = some after) :
    (after.latestStatusLed = bus.latestStatusLed ∧ after.pastSlot.Perm bus.pastSlot) ∨
    ∃ record, after.latestStatusLed = slotWith isStatusLed bus.latestStatusLed record ∧
      after.pastSlot = record :: bus.pastSlot := by
  cases label with
  | allocate event ts =>
    obtain rfl := Option.some.inj stepped
    exact .inl ⟨rfl,.refl _⟩
  | slot record =>
    obtain ⟨_,made⟩ := Option.ite_none_right_eq_some.mp stepped
    obtain rfl := Option.some.inj made
    exact .inr ⟨record,rfl,rfl⟩
  | push record =>
    obtain ⟨mem,made⟩ := Option.ite_none_right_eq_some.mp stepped
    obtain rfl := Option.some.inj made
    have taken := (List.perm_cons_erase mem).append_right bus.pushed
    exact .inl ⟨rfl,(List.perm_middle.trans taken.symm).append_right bus.sent⟩
  | send record =>
    obtain ⟨mem,made⟩ := Option.ite_none_right_eq_some.mp stepped
    obtain rfl := Option.some.inj made
    refine .inl ⟨rfl,?_⟩
    have taken := (List.perm_cons_erase mem).append_left bus.slotted
    have later : (bus.slotted ++ bus.pushed.erase record ++ (bus.sent ++ [record])).Perm
        (bus.slotted ++ record :: bus.pushed.erase record ++ bus.sent) := by
      rw [← List.append_assoc,List.append_assoc bus.slotted (record :: _),List.cons_append]
      refine List.perm_append_comm.trans ?_
      rw [List.singleton_append,List.append_assoc]
      exact List.perm_middle.symm
    exact later.trans (taken.symm.append_right bus.sent)

theorem slotNewestStep {bus after : TelemetryBus ε} {label : PublishLabel ε}
    (newest : bus.SlotNewest isStatusLed)
    (stepped : bus.publishStep isStatusLed label = some after) : after.SlotNewest isStatusLed := by
  unfold SlotNewest
  rcases pastSlotStep isStatusLed stepped with ⟨latest,past⟩ | ⟨record,latest,past⟩
  · rw [latest]
    exact newest.relabel fun y => and_congr_left fun _ => past.mem_iff
  · rw [latest,past]
    by_cases led : isStatusLed record.event = true
    · have same : slotWith isStatusLed bus.latestStatusLed record =
          if bus.latestStatusLed.all fun held => decide (held.id < record.id) then some record
          else bus.latestStatusLed := by
        simp [slotWith,led]
      rw [same]
      refine newest.add fun y => ?_
      rw [List.mem_cons,or_and_right,or_comm]
      refine or_congr_right ⟨fun here => here.1,fun here => ⟨here,here ▸ led⟩⟩
    · have same : slotWith isStatusLed bus.latestStatusLed record = bus.latestStatusLed := by
        simp [slotWith,led]
      rw [same]
      refine newest.relabel fun y => and_congr_left fun here => ?_
      rw [List.mem_cons]
      exact or_iff_right fun is => led (is ▸ here)

end TelemetryBus

namespace LedTracker
variable {ε : Type*} (statusLed : ε → Option LedIndication) (rfc3339 : Nat → String)

def isLed (record : TelemetryRecord ε) : Prop := (statusLed record.event).isSome = true

def early : TrackerPhase → Bool
  | .unsubscribed | .seeding => true
  | .receiving | .recovering | .storing _ => false

def UpTo (record : TelemetryRecord ε) (snapshot : StatusLedSnapshot) : Prop :=
  record.id ≤ snapshot.lastEventId

def Reaches (t : LedTracker ε) (record : TelemetryRecord ε) : Prop :=
  record ∈ t.queue ∨ t.lagged = true ∨ t.phase = .recovering ∨
    (∃ snapshot, t.phase = .storing snapshot ∧ UpTo record snapshot) ∨
    ∃ snapshot, t.cache = some snapshot ∧ UpTo record snapshot

def Genuine (bus : TelemetryBus ε) (snapshot : StatusLedSnapshot) : Prop :=
  ∃ record, bus.Issued record ∧ statusLedFromRecord statusLed rfc3339 record = some snapshot

structure Tracked (t : LedTracker ε) : Prop where
  slot : t.bus.SlotNewest fun event => (statusLed event).isSome
  cached : ∀ snapshot, t.cache = some snapshot → Genuine statusLed rfc3339 t.bus snapshot
  stored : ∀ snapshot, t.phase = .storing snapshot → Genuine statusLed rfc3339 t.bus snapshot
  taken : ∀ record ∈ t.queue, record ∈ t.bus.sent
  starting : early t.phase = true → t.cache = none
  reaches : early t.phase = false → ∀ record ∈ t.bus.sent, isLed statusLed record →
    t.Reaches record

variable {statusLed rfc3339}

theorem snapshotId {record : TelemetryRecord ε} {snapshot : StatusLedSnapshot}
    (made : statusLedFromRecord statusLed rfc3339 record = some snapshot) :
    snapshot.lastEventId = record.id ∧ isLed statusLed record := by
  obtain ⟨led,found,rfl⟩ := Option.map_eq_some_iff.mp made
  exact ⟨rfl,Option.isSome_iff_exists.mpr ⟨led,found⟩⟩

variable (rfc3339) in
theorem snapshotMade {record : TelemetryRecord ε} (led : isLed statusLed record) :
    ∃ snapshot, statusLedFromRecord statusLed rfc3339 record = some snapshot ∧
      snapshot.lastEventId = record.id := by
  obtain ⟨indication,found⟩ := Option.isSome_iff_exists.mp led
  exact ⟨_,congrArg (Option.map _) found,rfl⟩

theorem slotGenuine {bus : TelemetryBus ε}
    (newest : bus.SlotNewest fun event => (statusLed event).isSome) {snapshot : StatusLedSnapshot}
    (slot : snapshotStatusLed statusLed rfc3339 bus = some snapshot) :
    Genuine statusLed rfc3339 bus snapshot := by
  obtain ⟨record,held,made⟩ := Option.bind_eq_some_iff.mp slot
  exact ⟨record,TelemetryBus.pastIssued (TelemetryBus.slotPast newest held),made⟩

variable (rfc3339) in
theorem slotCovers {bus : TelemetryBus ε}
    (newest : bus.SlotNewest fun event => (statusLed event).isSome) {record : TelemetryRecord ε}
    (sent : record ∈ bus.sent) (led : isLed statusLed record) :
    ∃ snapshot, snapshotStatusLed statusLed rfc3339 bus = some snapshot ∧
      UpTo record snapshot := by
  have past : record ∈ bus.pastSlot := List.mem_append_right _ sent
  obtain ⟨held,slot,above⟩ := newest.covers ⟨past,led⟩
  have heldLed : isLed statusLed held := by
    unfold TelemetryBus.SlotNewest at newest
    rw [slot] at newest
    exact newest.1.2
  obtain ⟨snapshot,made,id⟩ := snapshotMade rfc3339 heldLed
  refine ⟨snapshot,Option.bind_eq_some_iff.mpr ⟨held,slot,made⟩,?_⟩
  unfold UpTo
  rw [id]
  exact above

theorem storeCovers (cache : Option StatusLedSnapshot) (snapshot : StatusLedSnapshot) :
    ∃ held, storeStatusLed cache snapshot = some held ∧
      (held = snapshot ∨ cache = some held) ∧ snapshot.lastEventId ≤ held.lastEventId ∧
      ∀ before, cache = some before → before.lastEventId ≤ held.lastEventId := by
  unfold storeStatusLed
  cases cache with
  | none => exact ⟨snapshot,rfl,.inl rfl,Nat.le_refl _,nofun⟩
  | some before =>
    by_cases newer : before.lastEventId ≤ snapshot.lastEventId
    · refine ⟨snapshot,if_pos (by simpa using newer),.inl rfl,Nat.le_refl _,?_⟩
      intro _ same
      cases same
      exact newer
    · refine ⟨before,if_neg (by simpa using newer),.inr rfl,Nat.le_of_not_le newer,?_⟩
      intro _ same
      cases same
      exact Nat.le_refl _

theorem storingPhase {made : Option StatusLedSnapshot} {snapshot : StatusLedSnapshot} :
    storing made = .storing snapshot ↔ made = some snapshot := by
  cases made with
  | none => exact ⟨nofun,nofun⟩
  | some other =>
    unfold storing
    rw [TrackerPhase.storing.injEq,Option.some.injEq]

theorem storingStarted (made : Option StatusLedSnapshot) : early (storing made) = false := by
  cases made <;> rfl

theorem bootTracked [DecidableEq ε] (capacity : Nat) :
    Tracked statusLed rfc3339 (boot capacity : LedTracker ε) where
  slot := fun _ here => nomatch here.1
  cached := nofun
  stored := nofun
  taken := nofun
  starting _ := rfl
  reaches := nofun

theorem publishSent [DecidableEq ε] {bus after : TelemetryBus ε} {label : PublishLabel ε}
    (stepped : bus.publishStep (fun event => (statusLed event).isSome) label = some after) :
    (after.sent = bus.sent ∧ ∀ record, label ≠ .send record) ∨
    ∃ record, label = .send record ∧ after.sent = bus.sent ++ [record] := by
  cases label with
  | allocate event ts =>
    obtain rfl := Option.some.inj stepped
    exact .inl ⟨rfl,nofun⟩
  | slot _ | push _ =>
    obtain ⟨_,made⟩ := Option.ite_none_right_eq_some.mp stepped
    obtain rfl := Option.some.inj made
    exact .inl ⟨rfl,nofun⟩
  | send record =>
    obtain ⟨_,made⟩ := Option.ite_none_right_eq_some.mp stepped
    obtain rfl := Option.some.inj made
    exact .inr ⟨record,rfl,rfl⟩

theorem hearSend (t : LedTracker ε) (record : TelemetryRecord ε) :
    (t.phase = .unsubscribed ∧ t.hear (.send record) = t.queue) ∨
    t.hear (.send record) = t.queue ++ [record] := by
  by_cases phase : t.phase = .unsubscribed
  · exact .inl ⟨phase,if_pos phase⟩
  · exact .inr (if_neg phase)

theorem hearOther {t : LedTracker ε} {label : PublishLabel ε}
    (other : ∀ record, label ≠ .send record) : t.hear label = t.queue := by
  cases label with
  | send record => exact absurd rfl (other record)
  | allocate | slot | push => rfl

theorem publishTracked [DecidableEq ε] {t : LedTracker ε} {bus : TelemetryBus ε} {label : PublishLabel ε}
    (tracked : Tracked statusLed rfc3339 t)
    (stepped : t.bus.publishStep (fun event => (statusLed event).isSome) label = some bus) :
    Tracked statusLed rfc3339 { t with bus, queue := t.hear label } := by
  have grows {snapshot : StatusLedSnapshot} (genuine : Genuine statusLed rfc3339 t.bus snapshot) :
      Genuine statusLed rfc3339 bus snapshot := by
    obtain ⟨record,issued,made⟩ := genuine
    exact ⟨record,TelemetryBus.issuedGrows (TelemetryBus.sentCases _ stepped) issued,made⟩
  have heard : (∀ record ∈ t.hear label, record ∈ bus.sent) ∧ (early t.phase = false →
      ∀ record ∈ bus.sent, record ∈ t.hear label ∨ record ∈ t.bus.sent ∧
        (record ∈ t.queue → record ∈ t.hear label)) := by
    rcases publishSent stepped with ⟨same,other⟩ | ⟨record,rfl,sent⟩
    · rw [same,hearOther other]
      exact ⟨tracked.taken,fun _ record mem => .inr ⟨mem,id⟩⟩
    · have kept (other) (mem : other ∈ t.queue) : other ∈ t.bus.sent ++ [record] :=
        List.mem_append_left _ (tracked.taken other mem)
      rw [sent]
      rcases hearSend t record with ⟨phase,queue⟩ | queue
      · rw [queue,phase]
        exact ⟨kept,nofun⟩
      · rw [queue]
        refine ⟨fun other mem => ?_,fun _ other mem => ?_⟩
        · rcases List.mem_append.mp mem with old | new
          · exact kept other old
          · exact List.mem_append_right _ new
        · rcases List.mem_append.mp mem with old | new
          · exact .inr ⟨old,List.mem_append_left _⟩
          · exact .inl (List.mem_append_right _ new)
  refine ⟨TelemetryBus.slotNewestStep _ tracked.slot stepped,
    fun snapshot same => grows (tracked.cached snapshot same),
    fun snapshot same => grows (tracked.stored snapshot same),heard.1,tracked.starting,?_⟩
  intro started record sent led
  rcases heard.2 started record sent with queued | ⟨before,stays⟩
  · exact .inl queued
  · exact (tracked.reaches started record before led).imp_left stays

theorem seedTracked {t : LedTracker ε} (tracked : Tracked statusLed rfc3339 t) :
    Tracked statusLed rfc3339 { t with
      phase := .receiving
      cache := snapshotStatusLed statusLed rfc3339 t.bus } where
  slot := tracked.slot
  cached _ same := slotGenuine tracked.slot same
  stored := nofun
  taken := tracked.taken
  starting := nofun
  reaches _ _ sent led := .inr (.inr (.inr (.inr (slotCovers rfc3339 tracked.slot sent led))))

theorem overwriteTracked [DecidableEq ε] {t : LedTracker ε} (tracked : Tracked statusLed rfc3339 t)
    (record : TelemetryRecord ε) :
    Tracked statusLed rfc3339 { t with queue := t.queue.erase record, lagged := true } where
  slot := tracked.slot
  cached := tracked.cached
  stored := tracked.stored
  taken _ mem := tracked.taken _ (List.mem_of_mem_erase mem)
  starting := tracked.starting
  reaches _ _ _ _ := .inr (.inl rfl)

theorem lagTracked {t : LedTracker ε} (tracked : Tracked statusLed rfc3339 t) :
    Tracked statusLed rfc3339 { t with phase := .recovering, lagged := false } where
  slot := tracked.slot
  cached := tracked.cached
  stored := nofun
  taken := tracked.taken
  starting := nofun
  reaches _ _ _ _ := .inr (.inr (.inl rfl))

theorem receiveTracked {t : LedTracker ε} (tracked : Tracked statusLed rfc3339 t)
    {record : TelemetryRecord ε} {rest : List (TelemetryRecord ε)} (phase : t.phase = .receiving)
    (heard : t.lagged = false) (queue : t.queue = record :: rest) :
    Tracked statusLed rfc3339 { t with
      phase := storing (statusLedFromRecord statusLed rfc3339 record)
      queue := rest } where
  slot := tracked.slot
  cached := tracked.cached
  stored snapshot same :=
    ⟨record,.inl (tracked.taken record (queue ▸ List.mem_cons_self)),storingPhase.mp same⟩
  taken other mem := tracked.taken other (queue ▸ List.mem_cons_of_mem _ mem)
  starting starting := absurd starting (Bool.eq_false_iff.mp (storingStarted _))
  reaches := by
    intro _ other sent led
    have started : early t.phase = false := by rw [phase]; rfl
    rcases tracked.reaches started other sent led with queued | lagged | recovering | held | cached
    · rw [queue] at queued
      rcases List.mem_cons.mp queued with rfl | later
      · obtain ⟨snapshot,made,id⟩ := snapshotMade rfc3339 led
        exact .inr (.inr (.inr (.inl ⟨snapshot,storingPhase.mpr made,Nat.le_of_eq id.symm⟩)))
      · exact .inl later
    · rw [heard] at lagged
      cases lagged
    · rw [phase] at recovering
      cases recovering
    · obtain ⟨snapshot,same,_⟩ := held
      rw [phase] at same
      cases same
    · exact .inr (.inr (.inr (.inr cached)))

/- After a lag the slot is at least as new as all that was sent, lost records included. -/
theorem readTracked {t : LedTracker ε} (tracked : Tracked statusLed rfc3339 t) :
    Tracked statusLed rfc3339 { t with
      phase := storing (snapshotStatusLed statusLed rfc3339 t.bus) } where
  slot := tracked.slot
  cached := tracked.cached
  stored _ same := slotGenuine tracked.slot (storingPhase.mp same)
  taken := tracked.taken
  starting starting := absurd starting (Bool.eq_false_iff.mp (storingStarted _))
  reaches := by
    intro _ record sent led
    obtain ⟨snapshot,made,above⟩ := slotCovers rfc3339 tracked.slot sent led
    exact .inr (.inr (.inr (.inl ⟨snapshot,storingPhase.mpr made,above⟩)))

theorem storeTracked {t : LedTracker ε} (tracked : Tracked statusLed rfc3339 t)
    {snapshot : StatusLedSnapshot} (phase : t.phase = .storing snapshot) :
    Tracked statusLed rfc3339 { t with
      phase := .receiving
      cache := storeStatusLed t.cache snapshot } := by
  obtain ⟨held,stored,origin,above,kept⟩ := storeCovers t.cache snapshot
  refine ⟨tracked.slot,?_,nofun,tracked.taken,nofun,?_⟩
  · intro other same
    obtain rfl := Option.some.inj (stored.symm.trans same)
    rcases origin with rfl | cached
    · exact tracked.stored held phase
    · exact tracked.cached held cached
  · intro _ record sent led
    have started : early t.phase = false := by rw [phase]; rfl
    rcases tracked.reaches started record sent led with queued | lagged | recovering | held | cached
    · exact .inl queued
    · exact .inr (.inl lagged)
    · rw [phase] at recovering
      cases recovering
    · obtain ⟨other,same,low⟩ := held
      cases phase.symm.trans same
      exact .inr (.inr (.inr (.inr ⟨_,stored,Nat.le_trans low above⟩)))
    · obtain ⟨other,same,low⟩ := cached
      exact .inr (.inr (.inr (.inr ⟨_,stored,Nat.le_trans low (kept other same)⟩)))

theorem subscribeTracked {t : LedTracker ε} (tracked : Tracked statusLed rfc3339 t)
    (phase : t.phase = .unsubscribed) : Tracked statusLed rfc3339 { t with phase := .seeding } where
  slot := tracked.slot
  cached := tracked.cached
  stored := nofun
  taken := tracked.taken
  starting _ := tracked.starting (by rw [phase]; rfl)
  reaches := nofun

def NeverOlder (before after : Option StatusLedSnapshot) : Prop :=
  ∀ held, before = some held → ∃ now, after = some now ∧ held.lastEventId ≤ now.lastEventId

theorem neverOlderSame (cache : Option StatusLedSnapshot) : NeverOlder cache cache :=
  fun held same => ⟨held,same,Nat.le_refl _⟩

structure Settled (t : LedTracker ε) : Prop where
  finished : t.bus.unsent = []
  phase : t.phase = .receiving
  queue : t.queue = []
  heard : t.lagged = false

variable (statusLed rfc3339) in
def CacheNewest (t : LedTracker ε) : Prop :=
  ∃ newest, Numbered.Newest TelemetryRecord.id
    (fun record => t.bus.Issued record ∧ isLed statusLed record) newest ∧
    t.cache = newest.bind (statusLedFromRecord statusLed rfc3339)

theorem settledNewest {t : LedTracker ε} (tracked : Tracked statusLed rfc3339 t)
    (settled : t.Settled) : CacheNewest statusLed rfc3339 t := by
  have covers (record) (known : t.bus.Issued record ∧ isLed statusLed record) :
      ∃ snapshot, t.cache = some snapshot ∧ UpTo record snapshot := by
    have started : early t.phase = false := by rw [settled.phase]; rfl
    have sent : record ∈ t.bus.sent := by
      refine known.1.resolve_right ?_
      rw [settled.finished]
      exact List.not_mem_nil
    rcases tracked.reaches started record sent known.2 with
      queued | lagged | recovering | held | cached
    · rw [settled.queue] at queued
      cases queued
    · rw [settled.heard] at lagged
      cases lagged
    · rw [settled.phase] at recovering
      cases recovering
    · obtain ⟨snapshot,same,_⟩ := held
      rw [settled.phase] at same
      cases same
    · exact cached
  cases cache : t.cache with
  | none =>
    refine ⟨none,fun record known => ?_,cache⟩
    obtain ⟨snapshot,same,_⟩ := covers record known
    rw [cache] at same
    cases same
  | some snapshot =>
    obtain ⟨record,issued,made⟩ := tracked.cached snapshot cache
    obtain ⟨id,led⟩ := snapshotId made
    refine ⟨some record,⟨⟨issued,led⟩,fun other known => ?_⟩,cache.trans made.symm⟩
    obtain ⟨held,same,above⟩ := covers other known
    cases cache.symm.trans same
    exact id ▸ above

theorem stepTracked [DecidableEq ε] {t after : LedTracker ε} {label : TrackLabel ε}
    (stepped : t.step statusLed rfc3339 label = some after)
    (tracked : Tracked statusLed rfc3339 t) :
    Tracked statusLed rfc3339 after ∧ NeverOlder t.cache after.cache := by
  cases label with
  | publish label =>
    obtain ⟨bus,published,rfl⟩ := Option.map_eq_some_iff.mp stepped
    exact ⟨publishTracked tracked published,neverOlderSame _⟩
  | subscribe =>
    cases phase : t.phase with
    | unsubscribed =>
      simp only [step,phase] at stepped
      obtain rfl := Option.some.inj stepped
      exact ⟨subscribeTracked tracked phase,neverOlderSame _⟩
    | seeding | receiving | recovering | storing => simp [step,phase] at stepped
  | seed =>
    cases phase : t.phase with
    | seeding =>
      simp only [step,phase] at stepped
      obtain rfl := Option.some.inj stepped
      have empty : t.cache = none := tracked.starting (by rw [phase]; rfl)
      refine ⟨seedTracked tracked,?_⟩
      rw [empty]
      exact nofun
    | unsubscribed | receiving | recovering | storing => simp [step,phase] at stepped
  | overwrite record =>
    obtain ⟨_,made⟩ := Option.ite_none_right_eq_some.mp stepped
    obtain rfl := Option.some.inj made
    exact ⟨overwriteTracked tracked record,neverOlderSame _⟩
  | receive =>
    cases phase : t.phase with
    | receiving =>
      cases heard : t.lagged with
      | true =>
        simp only [step,phase,heard] at stepped
        obtain rfl := Option.some.inj stepped
        exact ⟨lagTracked tracked,neverOlderSame _⟩
      | false =>
        cases queue : t.queue with
        | nil => simp [step,phase,heard,queue] at stepped
        | cons record rest =>
          simp only [step,phase,heard,queue] at stepped
          obtain rfl := Option.some.inj stepped
          refine ⟨?_,neverOlderSame _⟩
          have next := receiveTracked tracked phase heard queue
          rwa [heard] at next
    | unsubscribed | seeding | recovering | storing => simp [step,phase] at stepped
  | read =>
    cases phase : t.phase with
    | recovering =>
      simp only [step,phase] at stepped
      obtain rfl := Option.some.inj stepped
      exact ⟨readTracked tracked,neverOlderSame _⟩
    | unsubscribed | seeding | receiving | storing => simp [step,phase] at stepped
  | store =>
    cases phase : t.phase with
    | storing snapshot =>
      simp only [step,phase] at stepped
      obtain rfl := Option.some.inj stepped
      refine ⟨storeTracked tracked phase,fun before cached => ?_⟩
      obtain ⟨held,stored,_,_,kept⟩ := storeCovers t.cache snapshot
      exact ⟨held,stored,kept before cached⟩
    | unsubscribed | seeding | receiving | recovering => simp [step,phase] at stepped

/- Along every interleaving the slot holds the newest record that is past it and the cached id
never goes down; and whenever all is consumed the cache is that of the newest record. -/
theorem ledCacheConverges [DecidableEq ε] (statusLed : ε → Option LedIndication)
    (rfc3339 : Nat → String) (capacity : Nat) (labels : List (TrackLabel ε)) :
    Transition.Along (step statusLed rfc3339)
      (fun before _ after =>
        after.bus.SlotNewest (fun event => (statusLed event).isSome) ∧
        NeverOlder before.cache after.cache ∧
        (after.Settled → CacheNewest statusLed rfc3339 after)) (boot capacity) labels :=
  Transition.along (step statusLed rfc3339) (Tracked statusLed rfc3339)
    (fun _ _ _ stepped tracked _ =>
      have next := stepTracked stepped tracked
      ⟨next.1,next.1.slot,next.2,settledNewest next.1⟩)
    (bootTracked capacity) (Transition.alongAlways _ _ _)

end LedTracker

end TelephoneBooth
