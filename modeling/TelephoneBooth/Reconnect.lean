import TelephoneBooth.TelemetryBus

/-! The telemetry stream over a connection that may drop. The server leads with the status-LED
record, replays the ring above the requested cursor and then passes on the live channel; the
client keeps the largest id it has received and asks for what is above it when it reconnects. -/
namespace TelephoneBooth

inductive Serving (ε : Type*) where
  | greeting
  | leading (replayFrom : Option Nat)
  | snapshotting (replayFrom : Option Nat)
  | replaying (rest : List (TelemetryRecord ε))
  | streaming

/- A record on the wire; `live` for one off the live channel. -/
structure Frame (ε : Type*) where
  record : TelemetryRecord ε
  live : Bool

/- `next` is the place of the server's receiver in the live channel. -/
structure Connection (ε : Type*) where
  next : Nat
  serving : Serving ε
  inFlight : List (Frame ε)

/- `lastConnect` records what the ring held when the client last connected; no step reads it. -/
structure Attached (ε : Type*) where
  bus : TelemetryBus ε
  connection : Option (Connection ε)
  replayFrom : Nat
  delivered : List (TelemetryRecord ε)
  lastConnect : List (TelemetryRecord ε)

inductive AttachLabel (ε : Type*) where
  | publish (label : PublishLabel ε)
  | connect
  | request (arrives : Bool)
  | lead
  | snapshot
  | replay
  | goLive
  | stream
  | receive
  | drop

/- `attach_telemetry_loop` starts from `Some(0)`; the cursor is never `None` after. -/
def initialCursor : Nat := 0

namespace Attached
variable {ε : Type*} [DecidableEq ε] (isStatusLed : ε → Bool)

def boot (capacity : Nat) : Attached ε := ⟨.new capacity,none,initialCursor,[],[]⟩

def serve (s : Attached ε) (conn : Connection ε) : Attached ε := { s with connection := some conn }

def step (s : Attached ε) : AttachLabel ε → Option (Attached ε)
  | .publish label => (s.bus.publishStep isStatusLed label).map fun bus => { s with bus }
  | .connect =>
    match s.connection with
    | none => some { s with
        connection := some ⟨s.bus.sent.length,.greeting,[]⟩
        lastConnect := s.bus.ring.records }
    | some _ => none
  | .request arrives =>
    match s.connection with
    | some ⟨next,.greeting,inFlight⟩ =>
      -- the server does not wait for the request for ever
      some (s.serve ⟨next,.leading (if arrives then some s.replayFrom else none),inFlight⟩)
    | _ => none
  | .lead =>
    match s.connection with
    | some ⟨next,.leading replayFrom,inFlight⟩ =>
      let led := s.bus.latestStatusLed.toList.map fun record => ⟨record,false⟩
      some (s.serve ⟨next,.snapshotting replayFrom,inFlight ++ led⟩)
    | _ => none
  | .snapshot =>
    match s.connection with
    | some ⟨next,.snapshotting replayFrom,inFlight⟩ =>
      some (s.serve ⟨next,.replaying (s.bus.ring.snapshotSince replayFrom),inFlight⟩)
    | _ => none
  | .replay =>
    match s.connection with
    | some ⟨next,.replaying (record :: rest),inFlight⟩ =>
      some (s.serve ⟨next,.replaying rest,inFlight ++ [⟨record,false⟩]⟩)
    | _ => none
  | .goLive =>
    match s.connection with
    | some ⟨next,.replaying [],inFlight⟩ => some (s.serve ⟨next,.streaming,inFlight⟩)
    | _ => none
  | .stream =>
    match s.connection with
    | some ⟨next,.streaming,inFlight⟩ =>
      s.bus.sent[next]?.map fun record =>
        s.serve ⟨next + 1,.streaming,inFlight ++ [⟨record,true⟩]⟩
    | _ => none
  | .receive =>
    match s.connection with
    | some ⟨next,serving,frame :: inFlight⟩ =>
      some { s with
        connection := some ⟨next,serving,inFlight⟩
        replayFrom := max s.replayFrom frame.record.id
        delivered := s.delivered ++ [frame.record] }
    | _ => none
  | .drop =>
    match s.connection with
    | some _ => some { s with connection := none }
    | none => none

end Attached

variable {ε : Type*}

def Serving.rest : Serving ε → List (TelemetryRecord ε)
  | .replaying rest => rest
  | _ => []

def Serving.awaitsSnapshot : Serving ε → Bool
  | .greeting | .leading _ | .snapshotting _ => true
  | _ => false

def Serving.requested : Serving ε → Option Nat
  | .leading replayFrom | .snapshotting replayFrom => replayFrom
  | _ => none

def Connection.Replayed (conn : Connection ε) : Prop :=
  conn.serving.awaitsSnapshot = false ∧ conn.serving.rest = [] ∧
    ∀ frame ∈ conn.inFlight, frame.live = true

/-- Whatever the client's cursor has passed of what was in the ring when the client last connected
has been delivered, and once the replay is complete all of it has. -/
structure NothingSkipped (s : Attached ε) : Prop where
  upToCursor : ∀ record ∈ s.lastConnect, initialCursor < record.id → record.id ≤ s.replayFrom →
    record ∈ s.delivered
  replayed : ∀ conn ∈ s.connection, conn.Replayed → ∀ record ∈ s.lastConnect,
    initialCursor < record.id → record ∈ s.delivered

def InsertsInOrder (s : Attached ε) (label : AttachLabel ε) (_ : Attached ε) : Prop :=
  match label with
  | .publish label => s.bus.InIdOrder label
  | _ => True

/- What the code relies on beyond that: the live channel is in order, the ring keeps what the
client lacks until the snapshot is taken, and the leading record overtakes nothing. -/
def OvertakesNothing (s : Attached ε) (label : AttachLabel ε) (_ : Attached ε) : Prop :=
  match label with
  | .publish (.push record) => ∀ conn ∈ s.connection, conn.serving.awaitsSnapshot = true →
      ∀ held ∈ s.lastConnect, s.replayFrom < held.id → held ∈ (s.bus.ring.push record).records
  | .publish label => s.bus.SendsInOrder label
  | .lead => ∀ led ∈ s.bus.latestStatusLed, ∀ record ∈ s.bus.ring.records ++ s.bus.unpushed,
      s.replayFrom < record.id → led.id ≤ record.id
  | _ => True

def Connection.pipeline (conn : Connection ε) : List (TelemetryRecord ε) :=
  conn.inFlight.map Frame.record ++ conn.serving.rest

def Connection.replayLeft (conn : Connection ε) : List (TelemetryRecord ε) :=
  (conn.inFlight.filter fun frame => !frame.live).map Frame.record ++ conn.serving.rest

theorem replayLeftMem {conn : Connection ε} {record : TelemetryRecord ε}
    (mem : record ∈ conn.replayLeft) : record ∈ conn.pipeline := by
  rcases List.mem_append.mp mem with flying | rest
  · obtain ⟨frame,kept,rfl⟩ := List.mem_map.mp flying
    exact List.mem_append_left _ (List.mem_map_of_mem (List.mem_filter.mp kept).1)
  · exact List.mem_append_right _ rest

def Attached.Known (s : Attached ε) (record : TelemetryRecord ε) : Prop :=
  initialCursor < record.id ∧
    (record ∈ s.lastConnect ∨ record ∈ s.bus.ring.records ∨ record ∈ s.bus.unpushed)

structure Streams (s : Attached ε) (conn : Connection ε) : Prop where
  next : conn.next ≤ s.bus.sent.length
  issued : ∀ record ∈ conn.pipeline, s.bus.Issued record
  gapless : Numbered.Gapless TelemetryRecord.id s.Known s.delivered conn.pipeline
  requested : ∀ id ∈ conn.serving.requested, id ≤ s.replayFrom
  before : conn.serving.awaitsSnapshot = true → ∀ record ∈ s.lastConnect,
    s.replayFrom < record.id → record ∈ s.bus.ring.records
  connected : conn.serving.awaitsSnapshot = false → ∀ record ∈ s.lastConnect,
    initialCursor < record.id → record ∈ s.delivered ∨ record ∈ conn.replayLeft
  passed : conn.serving.awaitsSnapshot = false → ∀ record ∈ s.bus.ring.records,
    initialCursor < record.id → record ∈ s.bus.sent.take conn.next →
      record ∈ s.delivered ∨ record ∈ conn.pipeline

structure CursorSound (s : Attached ε) : Prop where
  bus : s.bus.Sound
  connect : ∀ record ∈ s.lastConnect, s.bus.Issued record
  reached : s.replayFrom ≤ s.bus.nextId
  upTo : ∀ record, s.Known record → record.id ≤ s.replayFrom → record ∈ s.delivered
  streams : ∀ conn ∈ s.connection, Streams s conn

theorem cursorSkipsNothing {s : Attached ε} (cursor : CursorSound s) : NothingSkipped s where
  upToCursor record mem above below := cursor.upTo record ⟨above,.inl mem⟩ below
  replayed conn here complete record mem above := by
    obtain ⟨taken,none_,live⟩ := complete
    rcases (cursor.streams conn here).connected taken record mem above with done | left
    · exact done
    · rw [Connection.replayLeft,none_,List.append_nil] at left
      obtain ⟨frame,kept,_⟩ := List.mem_map.mp left
      obtain ⟨flying,old⟩ := List.mem_filter.mp kept
      rw [live frame flying] at old
      cases old

theorem issuedBound {bus : TelemetryBus ε} (live : bus.Live) {record : TelemetryRecord ε}
    (issued : bus.Issued record) : record.id ≤ bus.nextId :=
  issued.elim (live.held record) (live.waits record)

theorem connectCursor {s : Attached ε} (cursor : CursorSound s) :
    CursorSound { s with
      connection := some ⟨s.bus.sent.length,.greeting,[]⟩
      lastConnect := s.bus.ring.records } := by
  obtain ⟨sound,_,reached,upTo,_⟩ := cursor
  refine ⟨sound,?_,reached,?_,?_⟩
  · intro record mem
    exact (sound.held record mem).imp_right (List.mem_append_right _)
  · rintro record ⟨above,listed⟩
    exact upTo record ⟨above,.inr (listed.elim .inl id)⟩
  · rintro conn ⟨⟩
    exact ⟨Nat.le_refl _,nofun,trivial,nofun,fun _ record mem _ => mem,nofun,nofun⟩

theorem serveCursor {s : Attached ε} {conn : Connection ε} (cursor : CursorSound s)
    (streams : Streams s conn) : CursorSound (s.serve conn) where
  bus := cursor.bus
  connect := cursor.connect
  reached := cursor.reached
  upTo := cursor.upTo
  streams := by
    rintro other ⟨⟩
    exact ⟨streams.next,streams.issued,streams.gapless,streams.requested,streams.before,
      streams.connected,streams.passed⟩

theorem knownIssued {s : Attached ε} (cursor : CursorSound s) {record : TelemetryRecord ε}
    (known : s.Known record) : s.bus.Issued record := by
  rcases known.2 with old | held | waits
  · exact cursor.connect record old
  · exact (cursor.bus.held record held).imp_right (List.mem_append_right _)
  · exact .inr (List.mem_append_left _ waits)

theorem pipelineBehind {next next' : Nat} {serving serving' : Serving ε} {inFlight : List (Frame ε)}
    (before : serving.rest = []) (after : serving'.rest = []) (frame : Frame ε) :
    Connection.pipeline ⟨next',serving',inFlight ++ [frame]⟩ =
      Connection.pipeline ⟨next,serving,inFlight⟩ ++ [frame.record] := by
  simp only [Connection.pipeline,before,after,List.append_nil,List.map_append,List.map_cons,
    List.map_nil]

section Server
variable {s : Attached ε} {next : Nat} {inFlight : List (Frame ε)} {replayFrom : Option Nat}

theorem requestStreams (arrives : Bool) (streams : Streams s ⟨next,.greeting,inFlight⟩) :
    Streams s ⟨next,.leading (if arrives then some s.replayFrom else none),inFlight⟩ := by
  obtain ⟨next,issued,gapless,_,before,_,_⟩ := streams
  refine ⟨next,issued,gapless,?_,before,nofun,nofun⟩
  intro id asked
  cases arrives with
  | false => cases asked
  | true =>
    cases asked
    exact Nat.le_refl _

theorem leadStreams (cursor : CursorSound s) (streams : Streams s ⟨next,.leading replayFrom,inFlight⟩)
    (first : ∀ led ∈ s.bus.latestStatusLed, ∀ record ∈ s.bus.ring.records ++ s.bus.unpushed,
      s.replayFrom < record.id → led.id ≤ record.id) :
    Streams s ⟨next,.snapshotting replayFrom,
      inFlight ++ s.bus.latestStatusLed.toList.map fun record => ⟨record,false⟩⟩ := by
  obtain ⟨bound,issued,gapless,requested,before,_,_⟩ := streams
  cases slot : s.bus.latestStatusLed with
  | none =>
    rw [Option.toList_none,List.map_nil,List.append_nil]
    exact ⟨bound,issued,gapless,requested,before,nofun,nofun⟩
  | some led =>
    have behind := @pipelineBehind ε next next (.leading replayFrom) (.snapshotting replayFrom)
      inFlight rfl rfl ⟨led,false⟩
    have mine : s.bus.Issued led := cursor.bus.led led slot
    refine ⟨bound,?_,?_,requested,before,nofun,nofun⟩
    · intro record mem
      rcases List.mem_append.mp (behind ▸ mem) with old | new
      · exact issued record old
      · rw [List.mem_singleton.mp new]
        exact mine
    · refine behind ▸ Numbered.gaplessAppend.mpr ⟨gapless,fun record known low => ?_,trivial⟩
      by_cases passed : record.id ≤ s.replayFrom
      · exact .inl (List.mem_append_left _ (cursor.upTo record known passed))
      · have above := Nat.not_le.mp passed
        have here : record ∈ s.bus.ring.records ++ s.bus.unpushed := by
          rcases known.2 with old | held | waits
          · exact List.mem_append_left _ (before rfl record old above)
          · exact List.mem_append_left _ held
          · exact List.mem_append_right _ waits
        have high := first led slot record here above
        exact .inr (cursor.bus.live.unique (knownIssued cursor known) mine (Nat.le_antisymm low high))

theorem snapshotHolds (streams : Streams s ⟨next,.snapshotting replayFrom,inFlight⟩)
    {record : TelemetryRecord ε} (above : s.replayFrom < record.id)
    (held : record ∈ s.bus.ring.records) : record ∈ s.bus.ring.snapshotSince replayFrom := by
  refine RingBuffer.snapshotMem.mpr ⟨held,fun id asked => ?_⟩
  have low := streams.requested id asked
  omega

theorem snapshotStreams (cursor : CursorSound s)
    (streams : Streams s ⟨next,.snapshotting replayFrom,inFlight⟩) :
    Streams s ⟨next,.replaying (s.bus.ring.snapshotSince replayFrom),inFlight⟩ := by
  have holds {record : TelemetryRecord ε} := @snapshotHolds ε s next inFlight replayFrom streams
    record
  obtain ⟨bound,issued,gapless,_,before,_,_⟩ := streams
  have flying : Connection.pipeline ⟨next,.snapshotting replayFrom,inFlight⟩ =
      inFlight.map Frame.record := List.append_nil _
  rw [flying] at issued gapless
  have inRing {record} (mem : record ∈ s.bus.ring.snapshotSince replayFrom) :=
    (RingBuffer.snapshotMem.mp mem).1
  refine ⟨bound,?_,?_,nofun,nofun,?_,?_⟩
  · intro record mem
    rcases List.mem_append.mp mem with old | new
    · exact issued record old
    · exact (cursor.bus.held record (inRing new)).imp_right (List.mem_append_right _)
  · refine Numbered.gaplessAppend.mpr ⟨gapless,Numbered.gaplessOrdered ?_ fun record known => ?_⟩
    · exact cursor.bus.ring.increasing.sublist List.filter_sublist
    · by_cases passed : record.id ≤ s.replayFrom
      · exact .inl (List.mem_append_left _ (cursor.upTo record known passed))
      · have above := Nat.not_le.mp passed
        right
        rcases known.2 with old | held | waits
        · exact .inl (holds above (before rfl record old above))
        · exact .inl (holds above held)
        · exact .inr fun other mem => cursor.bus.ring.behind other (inRing mem) record waits
  · intro _ record old above
    by_cases passed : record.id ≤ s.replayFrom
    · exact .inl (cursor.upTo record ⟨above,.inl old⟩ passed)
    · have lacks := Nat.not_le.mp passed
      exact .inr (List.mem_append_right _ (holds lacks (before rfl record old lacks)))
  · intro _ record held above _
    by_cases passed : record.id ≤ s.replayFrom
    · exact .inl (cursor.upTo record ⟨above,.inr (.inl held)⟩ passed)
    · exact .inr (List.mem_append_right _ (holds (Nat.not_le.mp passed) held))

theorem replayStreams {record : TelemetryRecord ε} {rest : List (TelemetryRecord ε)}
    (streams : Streams s ⟨next,.replaying (record :: rest),inFlight⟩) :
    Streams s ⟨next,.replaying rest,inFlight ++ [⟨record,false⟩]⟩ := by
  obtain ⟨bound,issued,gapless,_,_,connected,passed⟩ := streams
  have pipeline : Connection.pipeline ⟨next,.replaying rest,inFlight ++ [⟨record,false⟩]⟩ =
      Connection.pipeline ⟨next,.replaying (record :: rest),inFlight⟩ := by
    simp [Connection.pipeline,Serving.rest]
  have left : Connection.replayLeft ⟨next,.replaying rest,inFlight ++ [⟨record,false⟩]⟩ =
      Connection.replayLeft ⟨next,.replaying (record :: rest),inFlight⟩ := by
    simp [Connection.replayLeft,Serving.rest,List.filter_append]
  rw [← pipeline] at issued gapless passed
  rw [← left] at connected
  exact ⟨bound,issued,gapless,nofun,nofun,connected,passed⟩

theorem liveStreams (streams : Streams s ⟨next,.replaying [],inFlight⟩) :
    Streams s ⟨next,.streaming,inFlight⟩ := by
  obtain ⟨bound,issued,gapless,_,_,connected,passed⟩ := streams
  exact ⟨bound,issued,gapless,nofun,nofun,connected,passed⟩

/- The next record off the live channel: what is numbered below it has been sent before, and was
in the ring when the snapshot was taken or went out live. -/
theorem streamStreams (cursor : CursorSound s) (streams : Streams s ⟨next,.streaming,inFlight⟩)
    {record : TelemetryRecord ε} (here : s.bus.sent[next]? = some record) :
    Streams s ⟨next + 1,.streaming,inFlight ++ [⟨record,true⟩]⟩ := by
  obtain ⟨bound,issued,gapless,_,_,connected,passed⟩ := streams
  have behind := @pipelineBehind ε next (next + 1) .streaming .streaming inFlight rfl rfl
    ⟨record,true⟩
  have left : Connection.replayLeft ⟨next + 1,.streaming,inFlight ++ [⟨record,true⟩]⟩ =
      Connection.replayLeft ⟨next,.streaming,inFlight⟩ := by
    simp [Connection.replayLeft,List.filter_append]
  have sent : record ∈ s.bus.sent := List.mem_of_getElem? here
  have upTo (other : TelemetryRecord ε) : other ∈ s.bus.sent.take (next + 1) ↔
      other ∈ s.bus.sent.take next ∨ other = record := by
    rw [List.take_add_one,here,List.mem_append,Option.toList_some,List.mem_singleton]
  have inside := (List.getElem?_eq_some_iff.mp here).1
  refine ⟨inside,?_,?_,nofun,nofun,?_,?_⟩
  · intro other mem
    rcases List.mem_append.mp (behind ▸ mem) with old | new
    · exact issued other old
    · rw [List.mem_singleton.mp new]
      exact .inl sent
  · refine behind ▸ Numbered.gaplessAppend.mpr ⟨gapless,fun other known low => ?_,trivial⟩
    have here_ : other ∈ s.bus.ring.records → other ∈ s.delivered ++
        Connection.pipeline ⟨next,.streaming,inFlight⟩ ∨ other = record := by
      intro held
      rcases cursor.bus.held other held with done | waits
      · rcases (upTo other).mp (cursor.bus.live.early here done low) with before | same
        · exact .inl (List.mem_append.mpr (passed rfl other held known.1 before))
        · exact .inr same
      · have ahead := cursor.bus.live.behind record sent other (List.mem_append_right _ waits)
        exact absurd low (Nat.not_le.mpr ahead)
    rcases known.2 with old | held | waits
    · left
      rcases connected rfl other old known.1 with done | left_
      · exact List.mem_append_left _ done
      · exact List.mem_append_right _ (replayLeftMem left_)
    · exact here_ held
    · have ahead := cursor.bus.live.behind record sent other (List.mem_append_left _ waits)
      exact absurd low (Nat.not_le.mpr ahead)
  · rw [left]
    exact connected
  · intro taken other held above early
    rw [behind,List.mem_append,List.mem_singleton,← or_assoc]
    exact ((upTo other).mp early).imp_left (passed taken other held above)

theorem receiveCursor {serving : Serving ε} {frame : Frame ε} (cursor : CursorSound s)
    (streams : Streams s ⟨next,serving,frame :: inFlight⟩) :
    CursorSound { s with
      connection := some ⟨next,serving,inFlight⟩
      replayFrom := max s.replayFrom frame.record.id
      delivered := s.delivered ++ [frame.record] } := by
  obtain ⟨sound,connect,reached,upTo,_⟩ := cursor
  obtain ⟨bound,issued,gapless,requested,before,connected,passed⟩ := streams
  have first : s.bus.Issued frame.record := issued _ List.mem_cons_self
  refine ⟨sound,connect,Nat.max_le.mpr ⟨reached,issuedBound sound.live first⟩,?_,?_⟩
  · intro record known below
    by_cases passed : record.id ≤ s.replayFrom
    · exact List.mem_append_left _ (upTo record known passed)
    · have low : record.id ≤ frame.record.id := by
        have below : record.id ≤ max s.replayFrom frame.record.id := below
        omega
      exact List.mem_append.mpr ((gapless.1 record known low).imp_right List.mem_singleton.mpr)
  · rintro conn ⟨⟩
    refine ⟨bound,fun record mem => issued record (List.mem_cons_of_mem _ mem),gapless.2,?_,?_,?_,?_⟩
    · intro id asked
      exact Nat.le_trans (requested id asked) (Nat.le_max_left _ _)
    · intro awaits record mem above
      exact before awaits record mem (Nat.lt_of_le_of_lt (Nat.le_max_left _ _) above)
    · intro taken record mem above
      rcases connected taken record mem above with done | left
      · exact .inl (List.mem_append_left _ done)
      · rcases List.mem_append.mp left with flying | rest
        · obtain ⟨other,kept,rfl⟩ := List.mem_map.mp flying
          obtain ⟨there,old⟩ := List.mem_filter.mp kept
          rcases List.mem_cons.mp there with rfl | later
          · exact .inl (List.mem_append_right _ (List.mem_singleton.mpr rfl))
          · exact .inr (List.mem_append_left _ (List.mem_map_of_mem (List.mem_filter.mpr ⟨later,old⟩)))
        · exact .inr (List.mem_append_right _ rest)
    · intro taken record mem above early
      rcases passed taken record mem above early with done | waits
      · exact .inl (List.mem_append_left _ done)
      · rcases List.mem_cons.mp waits with rfl | later
        · exact .inl (List.mem_append_right _ (List.mem_singleton.mpr rfl))
        · exact .inr later

end Server

section Steps
variable [DecidableEq ε] (isStatusLed : ε → Bool)

omit [DecidableEq ε] in
theorem bootCursor (capacity : Nat) : CursorSound (Attached.boot capacity : Attached ε) where
  bus := TelemetryBus.newSound capacity
  connect := nofun
  reached := Nat.le_refl _
  upTo := by
    rintro record ⟨above,_⟩ below
    exact absurd above (Nat.not_lt.mpr below)
  streams := nofun

theorem publishCursor {s : Attached ε} {label : PublishLabel ε} {bus : TelemetryBus ε}
    (cursor : CursorSound s) (stepped : s.bus.publishStep isStatusLed label = some bus)
    (inserts : s.bus.InIdOrder label) (sends : s.bus.SendsInOrder label)
    (keeps : ∀ conn ∈ s.connection, conn.serving.awaitsSnapshot = true → ∀ held ∈ s.lastConnect,
      s.replayFrom < held.id → held ∈ s.bus.ring.records → held ∈ bus.ring.records) :
    CursorSound { s with bus } := by
  obtain ⟨sound,connect,reached,upTo,streams⟩ := cursor
  have published := TelemetryBus.publishCases isStatusLed stepped
  have sent := TelemetryBus.sentCases isStatusLed stepped
  have issued {record} (old : s.bus.Issued record) := TelemetryBus.issuedGrows sent old
  have newest : s.bus.nextId ≤ bus.nextId := by
    cases sent with
    | allocated _ id _ =>
      have next : bus.nextId = s.bus.nextId + 1 := id.trans (Nat.mod_eq_of_lt inserts)
      omega
    | moved _ id _ | sent _ id _ => exact Nat.le_of_eq id.symm
  have grown : s.bus.sent <+: bus.sent := by
    cases sent with
    | allocated same _ _ | moved same _ _ => exact same ▸ List.prefix_refl _
    | sent more _ _ => exact more ▸ List.prefix_append _ _
  -- what becomes known now is numbered above everything so far
  have known {record} (now : Attached.Known { s with bus } record) :
      s.Known record ∨ s.bus.nextId < record.id := by
    obtain ⟨above,listed⟩ := now
    rcases listed with old | here
    · exact .inl ⟨above,.inl old⟩
    · exact (TelemetryBus.knownGrows published inserts here).imp_left fun was => ⟨above,.inr was⟩
  refine ⟨TelemetryBus.publishSound isStatusLed sound stepped inserts sends,
    fun record mem => issued (connect record mem),Nat.le_trans reached newest,?_,?_⟩
  · intro record now below
    rcases known now with was | above
    · exact upTo record was below
    · have low : record.id ≤ s.replayFrom := below
      omega
  · intro conn here
    obtain ⟨next,pipeline,gapless,requested,before,connected,passed⟩ := streams conn here
    refine ⟨Nat.le_trans next grown.length_le,fun record mem => issued (pipeline record mem),?_,
      requested,?_,connected,?_⟩
    · refine Numbered.gaplessKnown gapless fun record now => ?_
      refine (known now).imp_right fun above other mem => ?_
      exact Nat.lt_of_le_of_lt (issuedBound sound.live (pipeline other mem)) above
    · intro awaits record mem above
      exact keeps conn here awaits record mem above (before awaits record mem above)
    · intro taken record mem above early
      have take : bus.sent.take conn.next = s.bus.sent.take conn.next := by
        obtain ⟨more,same⟩ := grown
        rw [← same]
        exact List.take_append_of_le_length next
      have early : record ∈ s.bus.sent.take conn.next := take ▸ early
      refine passed taken record ?_ above early
      cases published with
      | allocated ring _ _ | moved ring _ _ => exact ring ▸ mem
      | pushed ring _ unpushed =>
        rcases RingBuffer.pushMem (ring ▸ mem) with old | rfl
        · exact old
        · -- a record is not sent before it is pushed
          have waits : record ∈ s.bus.unsent :=
            List.mem_append_left _ (unpushed.mem_iff.mpr List.mem_cons_self)
          have ahead := sound.live.behind record (List.mem_of_mem_take early) record waits
          exact absurd ahead (Nat.lt_irrefl _)

instance (s : Attached ε) (label : AttachLabel ε) (after : Attached ε) :
    Decidable (InsertsInOrder s label after) := by
  unfold InsertsInOrder
  split <;> infer_instance

instance (s : Attached ε) (label : AttachLabel ε) (after : Attached ε) :
    Decidable (OvertakesNothing s label after) := by
  unfold OvertakesNothing
  split <;> infer_instance

theorem stepCursor {s after : Attached ε} {label : AttachLabel ε}
    (stepped : s.step isStatusLed label = some after) (cursor : CursorSound s)
    (inserts : InsertsInOrder s label after) (overtakes : OvertakesNothing s label after) :
    CursorSound after := by
  cases label with
  | publish label =>
    obtain ⟨bus,published,rfl⟩ := Option.map_eq_some_iff.mp stepped
    cases label with
    | push record =>
      refine publishCursor isStatusLed cursor published inserts trivial ?_
      intro conn here awaits held mem above _
      obtain ⟨_,made⟩ := Option.ite_none_right_eq_some.mp published
      obtain rfl := Option.some.inj made
      exact overtakes conn here awaits held mem above
    | allocate event ts =>
      refine publishCursor isStatusLed cursor published inserts trivial ?_
      obtain rfl := Option.some.inj published
      exact fun _ _ _ _ _ _ mem => mem
    | slot record | send record =>
      refine publishCursor isStatusLed cursor published inserts overtakes ?_
      obtain ⟨_,made⟩ := Option.ite_none_right_eq_some.mp published
      obtain rfl := Option.some.inj made
      exact fun _ _ _ _ _ _ mem => mem
  | connect =>
    simp only [Attached.step] at stepped
    split at stepped <;> cases stepped
    exact connectCursor cursor
  | request arrives =>
    simp only [Attached.step] at stepped
    split at stepped <;> cases stepped
    rename_i there
    exact serveCursor cursor (requestStreams arrives (cursor.streams _ there))
  | lead =>
    simp only [Attached.step] at stepped
    split at stepped <;> cases stepped
    rename_i there
    exact serveCursor cursor (leadStreams cursor (cursor.streams _ there) overtakes)
  | snapshot =>
    simp only [Attached.step] at stepped
    split at stepped <;> cases stepped
    rename_i there
    exact serveCursor cursor (snapshotStreams cursor (cursor.streams _ there))
  | replay =>
    simp only [Attached.step] at stepped
    split at stepped <;> cases stepped
    rename_i there
    exact serveCursor cursor (replayStreams (cursor.streams _ there))
  | goLive =>
    simp only [Attached.step] at stepped
    split at stepped <;> cases stepped
    rename_i there
    exact serveCursor cursor (liveStreams (cursor.streams _ there))
  | stream =>
    simp only [Attached.step] at stepped
    split at stepped
    · rename_i there
      obtain ⟨record,here,rfl⟩ := Option.map_eq_some_iff.mp stepped
      exact serveCursor cursor (streamStreams cursor (cursor.streams _ there) here)
    · cases stepped
  | receive =>
    simp only [Attached.step] at stepped
    split at stepped <;> cases stepped
    rename_i there
    exact receiveCursor cursor (cursor.streams _ there)
  | drop =>
    simp only [Attached.step] at stepped
    split at stepped <;> cases stepped
    exact ⟨cursor.bus,cursor.connect,cursor.reached,cursor.upTo,nofun⟩

theorem reconnectSkipsNothing {capacity : Nat} {labels : List (AttachLabel ε)}
    (run : Transition.Along (Attached.step isStatusLed)
      (fun s label after => InsertsInOrder s label after ∧ OvertakesNothing s label after)
      (Attached.boot capacity) labels) :
    Transition.Along (Attached.step isStatusLed) (fun _ _ after => NothingSkipped after)
      (Attached.boot capacity) labels :=
  Transition.along _ CursorSound (fun _ _ _ stepped cursor may =>
    have next := stepCursor isStatusLed stepped cursor may.1 may.2
    ⟨next,cursorSkipsNothing next⟩) (bootCursor capacity) run

end Steps

def publishing (id : Nat) (event : ε) : List (AttachLabel ε) :=
  [.allocate event 0,.slot ⟨id,0,event⟩,.push ⟨id,0,event⟩,.send ⟨id,0,event⟩].map .publish

theorem ledFirstDelivered : Transition.Along (Attached.step fun led : Bool => led)
    (fun _ _ after => NothingSkipped after) (Attached.boot 2)
    (publishing 1 true ++ [.connect,.request true,.lead,.receive,.snapshot,.replay,.receive,.goLive] ++
      publishing 2 false ++ [.stream,.drop,.connect,.request true,.lead,.snapshot,.replay,.receive]) :=
  reconnectSkipsNothing _ (by decide)

/- A log line, then a status-LED record. The client receives the leading record and loses the
connection; from then on it asks for what is above that record, and the log line is skipped though
the ring still holds it. -/
theorem leadingRecordSkips : ¬ ∀ labels, Transition.Along (Attached.step fun led : Bool => led)
      InsertsInOrder (Attached.boot 2) labels →
    Transition.Along (Attached.step fun led : Bool => led) (fun _ _ after => NothingSkipped after)
      (Attached.boot 2) labels := by
  intro nothing
  have skipped := nothing (publishing 1 false ++ publishing 2 true ++
    [.connect,.request true,.lead,.receive,.drop,.connect,.request true,.lead,.snapshot,.goLive,
      .receive]) (by decide)
  have last := Transition.alongFinal _ skipped ⟨nofun,nofun⟩ rfl
  have delivered := last.replayed ⟨2,.streaming,[]⟩ rfl ⟨rfl,rfl,nofun⟩ ⟨1,0,false⟩ (by decide)
    (by decide)
  revert delivered
  decide

end TelephoneBooth
