import TelephoneBooth.UploadStep
import TelephoneBooth.Exclusive
import Mathlib.Data.List.Rotate

/-! What the uploads owe each other and the disk: claims held by one task at a time, no upload
before its entry is durable, no entry removed before the operator has confirmed it. -/
namespace TelephoneBooth

def UploadStage.inCall : UploadStage → Bool
  | .uploading _ => true
  | _ => false

def Replay.inCall : Replay → Option SpoolEntry
  | .uploading entry _ _ _ => some entry
  | _ => none

def UploadTask.id (task : UploadTask) : RecordingId := task.entry.recordingId

def UploadTask.holds (task : UploadTask) : Bool := decide (task.stage ≠ .done)

def held (tasks : List UploadTask) : List RecordingId :=
  (tasks.filter UploadTask.holds).map UploadTask.id

namespace Uploads

def known (u : Uploads) : List UploadTask := u.admitting.toList ++ u.tasks

def others (u : Uploads) (task : UploadTask) : List UploadTask :=
  u.admitting.toList ++ u.tasks.erase task

def holders (u : Uploads) : List RecordingId := held u.known ++ u.replay.claimed.toList

def uploading (u : Uploads) : List RecordingId :=
  (u.tasks.filter fun task => task.stage.inCall).map UploadTask.id ++
    (u.replay.inCall.map SpoolEntry.recordingId).toList

end Uploads

structure Ledger (u : Uploads) : Prop where
  claims : Exclusive u.holders u.spool.inFlight
  waiting : ∀ task ∈ u.admitting, task.stage.unreported = true
  past : ∀ task ∈ u.known, task.stage.past = true → task.id ∈ u.spool.durable
  jobs : ∀ job ∈ u.enqueues, ∀ task ∈ u.known, task.number = job.number → task.entry = job.entry
  visits : ∀ entry ∈ u.replay.visiting, entry.recordingId ∈ u.spool.durable
  listed : ∀ entry ∈ u.spool.entries, entry.recordingId ∈ u.spool.durable
  kept : ∀ id ∈ u.spool.durable, u.spool.contains id = true ∨ id ∈ u.spool.confirmed
  removals : ∀ job ∈ u.dequeues, job.recordingId ∈ u.spool.confirmed

namespace Uploads
variable {u : Uploads} {task other : UploadTask}

theorem unreportedHolds (open_ : task.stage.unreported = true) : task.holds = true := by
  refine decide_eq_true ?_
  intro ended
  rw [ended] at open_
  cases open_

theorem knownSplit (mem : task ∈ u.tasks) : u.known.Perm (task :: u.others task) := by
  have front : (u.admitting.toList ++ task :: u.tasks.erase task).Perm (task :: u.others task) :=
    List.perm_middle
  exact ((List.perm_cons_erase mem).append_left _).trans front

theorem knownMoved (u : Uploads) (task : UploadTask) (stage : UploadStage) :
    (u.move task stage).known.Perm ({ task with stage } :: u.others task) := List.perm_middle

theorem othersKnown (mem : other ∈ u.others task) : other ∈ u.known := by
  rcases List.mem_append.mp mem with front | back
  · exact List.mem_append_left _ front
  · exact List.mem_append_right _ (List.mem_of_mem_erase back)

theorem taskKnown (mem : task ∈ u.tasks) : task ∈ u.known := List.mem_append_right _ mem

theorem movedKnown {stage : UploadStage} (mem : other ∈ (u.move task stage).known) :
    other = { task with stage } ∨ other ∈ u.known := by
  rcases List.mem_cons.mp ((knownMoved u task stage).subset mem) with same | old
  · exact .inl same
  · exact .inr (othersKnown old)

theorem heldPerm {xs ys : List UploadTask} (same : xs.Perm ys) : (held xs).Perm (held ys) :=
  (same.filter _).map _

theorem heldCons {tasks : List UploadTask} (holds : task.holds = true) :
    held (task :: tasks) = task.id :: held tasks := by
  simp [held,holds]

theorem heldDone {tasks : List UploadTask} (ended : task.holds = false) :
    held (task :: tasks) = held tasks := by
  simp [held,ended]

theorem holdersSplit (mem : task ∈ u.tasks) (holds : task.holds = true) :
    u.holders.Perm (task.id :: (held (u.others task) ++ u.replay.claimed.toList)) := by
  have split := heldPerm (knownSplit mem)
  rw [heldCons holds] at split
  exact split.append_right _

theorem uploadingHeld (u : Uploads) : u.uploading.Sublist u.holders := by
  refine List.Sublist.append ?_ ?_
  · refine List.Sublist.map _ ?_
    have fewer : (u.tasks.filter fun task => task.stage.inCall).Sublist
        (u.tasks.filter UploadTask.holds) := by
      refine List.monotone_filter_right _ ?_
      intro task calls
      refine decide_eq_true ?_
      intro ended
      rw [ended] at calls
      cases calls
    exact fewer.trans ((List.sublist_append_right _ _).filter _)
  · cases u.replay with
    | uploading entry bytes call rest => exact List.Sublist.refl _
    | _ => exact List.nil_sublist _

end Uploads

namespace Ledger
open Uploads
variable {u : Uploads} {task : UploadTask}

theorem advance (ledger : Ledger u) (mem : task ∈ u.tasks) (holds : task.holds = true)
    {stage : UploadStage} (goes : stage ≠ .done)
    (past : stage.past = true → task.stage.past = true) : Ledger (u.move task stage) := by
  have moved : UploadTask.holds { task with stage } = true := decide_eq_true goes
  refine { ledger with claims := ?_, past := ?_, jobs := ?_ }
  · have split := heldPerm (knownMoved u task stage)
    rw [heldCons moved] at split
    exact ledger.claims.perm ((holdersSplit mem holds).trans (split.append_right _).symm)
  · intro other inside later
    rcases movedKnown inside with rfl | old
    · exact ledger.past task (taskKnown mem) (past later)
    · exact ledger.past other old later
  · intro job queued other inside same
    rcases movedKnown inside with rfl | old
    · exact ledger.jobs job queued task (taskKnown mem) same
    · exact ledger.jobs job queued other old same

theorem finish (ledger : Ledger u) (mem : task ∈ u.tasks) (holds : task.holds = true) :
    Ledger (u.finish task) := by
  have ended : UploadTask.holds { task with stage := .done } = false := rfl
  refine { ledger with claims := ?_, past := ?_, jobs := ?_ }
  · have split := heldPerm (knownMoved u task .done)
    rw [heldDone ended] at split
    exact (ledger.claims.perm (holdersSplit mem holds)).release.perm (split.append_right _).symm
  · intro other inside later
    have moved : other ∈ (u.move task .done).known := inside
    rcases movedKnown moved with rfl | old
    · cases later
    · exact ledger.past other old later
  · intro job queued other inside same
    have moved : other ∈ (u.move task .done).known := inside
    rcases movedKnown moved with rfl | old
    · exact ledger.jobs job queued task (taskKnown mem) same
    · exact ledger.jobs job queued other old same

theorem acknowledge (ledger : Ledger u) (id : RecordingId) : Ledger (u.acknowledge id) :=
  { ledger with
    kept := fun other durable => (ledger.kept other durable).imp_right (List.mem_cons_of_mem _)
    removals := fun job queued => List.mem_cons_of_mem _ (ledger.removals job queued) }

theorem remove (ledger : Ledger u) (job : DequeueJob) (confirmed : job.recordingId ∈ u.spool.confirmed) :
    Ledger { u with dequeues := u.dequeues ++ [job] } := by
  refine { ledger with removals := ?_ }
  intro other queued
  rcases List.mem_append.mp queued with old | new
  · exact ledger.removals other old
  · rw [List.mem_singleton.mp new]
    exact confirmed

theorem refuse (ledger : Ledger u) (id : RecordingId) : Ledger (u.refuse id) := { ledger with }

theorem accept (ledger : Ledger u) (free_ : u.admitting = none) {u' : Uploads} {number : Nat}
    {id : RecordingId} {notices : List Notice} (accepts : AcceptStep u number id u' notices)
    (fresh : ∀ job ∈ u.enqueues, job.number ≠ number)
    (unused : ∀ task ∈ u.known, task.number ≠ number) : Ledger u' := by
  cases accepts with
  | refuse outcome => exact ledger.refuse id
  | busy taken => exact ledger
  | claim task free own same stage =>
    have known : u.known = u.tasks := by
      unfold Uploads.known
      rw [free_]
      rfl
    have holds : task.holds = true := unreportedHolds (by rw [stage]; rfl)
    refine { ledger with claims := ?_, waiting := ?_, past := ?_, jobs := ?_ }
    · have holders : Uploads.holders { u with
          spool := { u.spool with inFlight := id :: u.spool.inFlight }
          admitting := some task
          enqueues := u.enqueues ++ [⟨number,task.entry⟩] } = id :: u.holders := by
        unfold Uploads.holders
        rw [known]
        show held (task :: u.tasks) ++ _ = _
        rw [heldCons holds,UploadTask.id,same]
        rfl
      rw [holders]
      exact ledger.claims.claim free
    · rintro other ⟨⟩
      rw [stage]
      rfl
    · intro other inside later
      rcases List.mem_cons.mp inside with rfl | old
      · rw [stage] at later
        cases later
      · exact ledger.past other (by rw [known]; exact old) later
    · intro job queued other inside numbered
      rcases List.mem_append.mp queued with old | new
      · rcases List.mem_cons.mp inside with rfl | before
        · exact absurd (numbered.symm.trans own) (fresh job old)
        · exact ledger.jobs job old other (by rw [known]; exact before) numbered
      · obtain rfl := List.mem_singleton.mp new
        rcases List.mem_cons.mp inside with rfl | before
        · rfl
        · exact absurd numbered (unused other (by rw [known]; exact before))

theorem spawn (ledger : Ledger u) {u' : Uploads} {shuttingDown : Bool}
    (done : u.spawn shuttingDown = some u') : Ledger u' := by
  obtain ⟨task,admitting,⟨_,rfl⟩ | ⟨_,rfl⟩⟩ := spawnCases done
  · have known : u.known = task :: u.tasks := by
      unfold Uploads.known
      rw [admitting]
      rfl
    have holds : task.holds = true := unreportedHolds (ledger.waiting task admitting)
    have old {other : UploadTask} (mem : other ∈ u.tasks) : other ∈ u.known := taskKnown mem
    refine { ledger with
      claims := ?_
      waiting := fun other mem => (by cases mem)
      past := fun other inside => ledger.past other (old inside)
      jobs := fun job queued other inside => ledger.jobs job queued other (old inside) }
    have holders : u.holders = task.id :: (held u.tasks ++ u.replay.claimed.toList) := by
      unfold Uploads.holders
      rw [known,heldCons holds]
      rfl
    have before := ledger.claims
    rw [holders] at before
    exact before.release
  · have known : u.known.Perm (u.tasks ++ [task]) := by
      unfold Uploads.known
      rw [admitting]
      exact (List.perm_append_comm : ([task] ++ u.tasks).Perm _)
    refine { ledger with
      claims := ledger.claims.perm ((heldPerm known).append_right _)
      waiting := fun other mem => (by cases mem)
      past := fun other inside => ledger.past other (known.symm.subset inside)
      jobs := fun job queued other inside => ledger.jobs job queued other (known.symm.subset inside) }

theorem join (ledger : Ledger u) {u' : Uploads} {number : Nat} (done : u.join number = some u') :
    Ledger u' := by
  obtain ⟨task,mem,_,rfl⟩ := Uploads.joinCases done
  have fewer : (u.others task).Sublist u.known := List.erase_sublist.append_left _
  have old {other : UploadTask} (inside : other ∈ u.others task) : other ∈ u.known :=
    fewer.subset inside
  refine { ledger with
    claims := ledger.claims.less (((fewer.filter _).map _).append_right _)
    past := fun other inside => ledger.past other (old inside)
    jobs := fun job queued other inside => ledger.jobs job queued other (old inside) }

theorem cancel (ledger : Ledger u) {u' : Uploads} {number : Nat} (done : u.cancel number = some u') :
    Ledger u' := by
  obtain ⟨task,mem,_,live,rfl⟩ := Uploads.cancelCases done
  exact ledger.finish mem (decide_eq_true live)

theorem step (ledger : Ledger u) {u' : Uploads} {number : Nat} {shuttingDown accepting : Bool}
    {reply : Option OperatorError} {notices : List Notice}
    (moved : UploadStep u number shuttingDown accepting reply u' notices) : Ledger u' := by
  cases moved with
  | advance task stage mem own durable open_ past goes =>
    have alive : stage ≠ .done := by
      rintro rfl
      cases goes
    exact ledger.advance mem (unreportedHolds open_) alive fun _ => durable
  | leave task notices mem own open_ told => exact ledger.finish mem (unreportedHolds open_)
  | confirm task call mem own stage confirmed =>
    have holds : task.holds = true := unreportedHolds (by rw [stage]; rfl)
    have told := ledger.acknowledge task.id
    have waits : Ledger ((u.acknowledge task.id).move task .dequeuing) :=
      told.advance mem holds (by simp) fun _ => by rw [stage]; rfl
    exact waits.remove ⟨some number,task.id⟩ List.mem_cons_self

theorem deliverHeld (tasks : List UploadTask) (number : Nat) (error : Option String) :
    held (tasks.map fun task => UploadTask.deliver task number error) = held tasks := by
  induction tasks with
  | nil => rfl
  | cons task rest ih =>
    have id_ : UploadTask.id (UploadTask.deliver task number error) = task.id := by
      rw [UploadTask.id,deliverEntry]
      rfl
    have holds : UploadTask.holds (UploadTask.deliver task number error) = task.holds := by
      unfold UploadTask.deliver
      split
      · rename_i waiting
        rw [UploadTask.holds,UploadTask.holds,waiting.2]
        rfl
      · rfl
    cases own : task.holds with
    | true =>
      rw [List.map_cons,heldCons own,heldCons (holds.trans own),ih,id_]
    | false =>
      rw [List.map_cons,heldDone own,heldDone (holds.trans own),ih]

theorem deliverPast {number : Nat} {error : Option String}
    (past : (UploadTask.deliver task number error).stage.past = true) :
    task.stage.past = true ∨ task.number = number ∧ error = none := by
  unfold UploadTask.deliver at past
  split at past
  · rename_i waiting
    cases error with
    | none => exact .inr ⟨waiting.1,rfl⟩
    | some error => cases past
  · exact .inl past

theorem containsEnqueued (s : Spool) (entry : SpoolEntry) {id : RecordingId}
    (contained : s.contains id = true ∨ id = entry.recordingId) :
    (s.enqueue entry).contains id = true := by
  by_cases same : id = entry.recordingId
  · simp [Spool.enqueue,Spool.contains,same]
  · have before := contained.resolve_right same
    simp only [Spool.contains,List.any_eq_true,beq_iff_eq] at before
    obtain ⟨old,mem,own⟩ := before
    simp only [Spool.enqueue,Spool.contains,List.any_cons,Bool.or_eq_true,List.any_eq_true,beq_iff_eq]
    refine .inr ⟨old,List.mem_filter.mpr ⟨mem,?_⟩,own⟩
    exact decide_eq_true (by rw [own]; exact same)

theorem containsDequeued (s : Spool) {gone id : RecordingId} (contained : s.contains id = true)
    (other : id ≠ gone) : (s.dequeue gone).contains id = true := by
  simp only [Spool.contains,List.any_eq_true,beq_iff_eq] at contained ⊢
  obtain ⟨entry,mem,own⟩ := contained
  exact ⟨entry,List.mem_filter.mpr ⟨mem,decide_eq_true (by rw [own]; exact other)⟩,own⟩

theorem enqueued (ledger : Ledger u) {u' : Uploads} {job : EnqueueJob} {error : Option String}
    (done : u.enqueued job error = some u') : Ledger u' := by
  obtain ⟨queued,admitting,tasks,enqueues,dequeues,replay,_,ran⟩ := enqueuedCases done
  have known : u'.known = u.known.map fun task => UploadTask.deliver task job.number error := by
    unfold Uploads.known
    rw [admitting,tasks,List.map_append]
    cases u.admitting <;> rfl
  have holders : u'.holders = u.holders := by
    unfold Uploads.holders
    rw [known,deliverHeld,replay]
  have flight : u'.spool.inFlight = u.spool.inFlight := by
    rcases ran with ⟨_,same,_⟩ | ⟨_,same,_⟩ <;> rw [same]
    rfl
  have confirmed : u'.spool.confirmed = u.spool.confirmed := by
    rcases ran with ⟨_,same,_⟩ | ⟨_,same,_⟩ <;> rw [same]
    rfl
  have durable {id : RecordingId} (before : id ∈ u.spool.durable) : id ∈ u'.spool.durable := by
    rcases ran with ⟨_,same,_⟩ | ⟨_,same,_⟩ <;> rw [same]
    · exact List.mem_cons_of_mem _ before
    · exact before
  refine ⟨?_,?_,?_,?_,?_,?_,?_,?_⟩
  · rw [holders,flight]
    exact ledger.claims
  · rw [admitting]
    intro task mem
    obtain ⟨before,claimed,rfl⟩ := Option.map_eq_some_iff.mp mem
    rw [deliverUnreported]
    exact ledger.waiting before claimed
  · rw [known]
    intro other inside later
    obtain ⟨task,mem,rfl⟩ := List.mem_map.mp inside
    rw [UploadTask.id,deliverEntry]
    rcases deliverPast later with past | ⟨own,rfl⟩
    · exact durable (ledger.past task mem past)
    · rw [ledger.jobs job queued task mem own]
      rcases ran with ⟨_,same,_⟩ | ⟨failed,_⟩
      · rw [same]
        exact List.mem_cons_self
      · cases failed
  · rw [known,enqueues]
    intro other waits task inside own
    obtain ⟨before,mem,rfl⟩ := List.mem_map.mp inside
    rw [deliverNumber] at own
    rw [deliverEntry]
    exact ledger.jobs other (List.mem_of_mem_erase waits) before mem own
  · rw [replay]
    exact fun entry mem => durable (ledger.visits entry mem)
  · rcases ran with ⟨_,same,_⟩ | ⟨_,same,_⟩ <;> rw [same]
    · intro entry mem
      rcases List.mem_cons.mp mem with rfl | old
      · exact List.mem_cons_self
      · exact List.mem_cons_of_mem _ (ledger.listed entry (List.mem_of_mem_filter old))
    · exact ledger.listed
  · rcases ran with ⟨_,same,_⟩ | ⟨_,same,_⟩ <;> rw [same]
    · intro id mem
      rcases List.mem_cons.mp mem with rfl | old
      · exact .inl (containsEnqueued _ _ (.inr rfl))
      · exact (ledger.kept id old).imp_left fun there => containsEnqueued _ _ (.inl there)
    · exact ledger.kept
  · rw [dequeues,confirmed]
    exact ledger.removals

theorem removal (ledger : Ledger u) {job : DequeueJob} (queued : job ∈ u.dequeues)
    (removed : Bool) : Ledger (u.removal job removed) := by
  have removals (other : DequeueJob) (waits : other ∈ u.dequeues.erase job) :=
    ledger.removals other (List.mem_of_mem_erase waits)
  cases removed with
  | false => exact { ledger with removals := removals }
  | true =>
    refine { ledger with
      listed := fun entry mem => ledger.listed entry (List.mem_of_mem_filter mem)
      kept := ?_
      removals := removals }
    intro id durable
    by_cases same : id = job.recordingId
    · rw [same]
      exact .inr (ledger.removals job queued)
    · exact (ledger.kept id durable).imp_left fun there => containsDequeued _ there same

theorem go (ledger : Ledger u) {replay : Replay} (lastAttempt : Option RecordingId)
    (claimed : replay.claimed = u.replay.claimed)
    (visits : ∀ entry ∈ replay.visiting, entry.recordingId ∈ u.spool.durable) :
    Ledger { u with replay, lastAttempt } := by
  refine { ledger with claims := ?_, visits := visits }
  have holders : Uploads.holders { u with replay, lastAttempt } = u.holders := by
    unfold Uploads.holders
    rw [show ({ u with replay, lastAttempt } : Uploads).replay = replay from rfl,claimed]
    rfl
  rw [holders]
  exact ledger.claims

theorem drop (ledger : Ledger u) {id : RecordingId} {replay : Replay}
    (lastAttempt : Option RecordingId) (claimed : u.replay.claimed = some id)
    (gone : replay.claimed = none)
    (visits : ∀ entry ∈ replay.visiting, entry.recordingId ∈ u.spool.durable) :
    Ledger { u with replay, lastAttempt, spool := u.spool.release id } := by
  refine { ledger with claims := ?_, visits := visits }
  have split : u.holders.Perm (id :: held u.known) := by
    unfold Uploads.holders
    rw [claimed]
    exact List.perm_append_comm
  have holders : Uploads.holders { u with
      replay, lastAttempt, spool := u.spool.release id } = held u.known := by
    unfold Uploads.holders
    rw [show ({ u with replay, lastAttempt, spool := u.spool.release id } : Uploads).replay = replay
      from rfl,gone]
    exact List.append_nil _
  rw [holders]
  exact (ledger.claims.perm split).release

theorem dequeued (ledger : Ledger u) {u' : Uploads} {job : DequeueJob} {removed : Bool}
    (done : u.dequeued job removed = some u') : Ledger u' := by
  obtain ⟨queued,moved⟩ := dequeuedCases done
  have left := ledger.removal queued removed
  cases moved with
  | finish task mem owner stage =>
    refine left.finish mem (decide_eq_true ?_)
    rw [stage]
    simp
  | pass entry rest owner waits =>
    have claimed : (u.removal job removed).replay.claimed = some entry.recordingId := by
      show u.replay.claimed = _
      rw [waits]
      rfl
    refine left.drop u.lastAttempt claimed rfl ?_
    intro other mem
    refine left.visits other ?_
    show other ∈ u.replay.visiting
    rw [waits]
    exact List.mem_cons_of_mem _ mem
  | gone => exact left

theorem replayOrderMem {last : Option RecordingId} {entries : List SpoolEntry} {entry : SpoolEntry} :
    entry ∈ replayOrder last entries ↔ entry ∈ entries := by
  unfold replayOrder
  cases last with
  | none => exact (List.perm_insertionSort _ _).mem_iff
  | some last =>
    simp only [List.mem_rotate]
    exact (List.perm_insertionSort _ _).mem_iff

theorem replay (ledger : Ledger u) {u' : Uploads} {accepting : Bool} {reply : ReplayReply}
    (done : u.replayStep accepting reply = some u') : Ledger u' := by
  cases replayStepCases done with
  | go replay lastAttempt claimed visits =>
    exact ledger.go lastAttempt claimed fun entry mem => ledger.visits entry (visits entry mem)
  | list scanning succeeds =>
    refine ledger.go u.lastAttempt ?_ ?_
    · rw [scanning]
      rfl
    · intro entry mem
      exact ledger.listed entry (List.mem_of_mem_filter (replayOrderMem.mp mem))
  | claim entry rest next free =>
    have visits (other : SpoolEntry) (mem : other ∈ entry :: rest) :
        other.recordingId ∈ u.spool.durable :=
      ledger.visits other (by rw [next]; exact mem)
    refine { ledger with claims := ?_, visits := visits }
    have holders : Uploads.holders { u with
        replay := .inspecting entry rest
        spool := { u.spool with inFlight := entry.recordingId :: u.spool.inFlight } } =
        held u.known ++ [entry.recordingId] := rfl
    have before : u.holders = held u.known := by
      unfold Uploads.holders
      rw [next]
      exact List.append_nil _
    rw [holders]
    have claimed := ledger.claims.claim free
    rw [before] at claimed
    exact claimed.perm (List.perm_append_singleton _ _).symm
  | pass entry replay lastAttempt claimed gone visits =>
    exact ledger.drop lastAttempt claimed gone fun other mem => ledger.visits other (visits other mem)
  | confirm entry bytes call rest calls confirmed =>
    have told := ledger.acknowledge entry.recordingId
    have waits : Ledger { (u.acknowledge entry.recordingId) with
        replay := .dequeuing entry rest, lastAttempt := u.lastAttempt } := by
      refine told.go u.lastAttempt ?_ ?_
      · show _ = u.replay.claimed
        rw [calls]
        rfl
      · intro other mem
        refine told.visits other ?_
        show other ∈ u.replay.visiting
        rw [calls]
        exact mem
    exact waits.remove ⟨none,entry.recordingId⟩ List.mem_cons_self

theorem abortReplay (ledger : Ledger u) : Ledger u.abortReplay := by
  unfold Uploads.abortReplay
  cases claimed : u.replay.claimed with
  | none => exact ledger.go u.lastAttempt claimed.symm fun entry mem => by cases mem
  | some id => exact ledger.drop u.lastAttempt claimed rfl fun entry mem => by cases mem

theorem abortTasks (ledger : Ledger u) (admitting : u.admitting = none)
    (aborted : u.replay = .aborted) : Ledger u.abortTasks := by
  have known : u.abortTasks.known = [] := by
    show u.admitting.toList ++ [] = []
    rw [admitting]
    rfl
  have holders : u.abortTasks.holders = [] := by
    unfold Uploads.holders
    rw [known,show u.abortTasks.replay = u.replay from rfl,aborted]
    rfl
  refine ⟨?_,ledger.waiting,?_,?_,ledger.visits,ledger.listed,ledger.kept,ledger.removals⟩
  · rw [holders]
    exact .none
  · rw [known]
    exact fun task mem => by cases mem
  · rw [known]
    exact fun job queued task mem => by cases mem

theorem idle {spool : Spool} (listed : ∀ entry ∈ spool.entries, entry.recordingId ∈ spool.durable)
    (kept : ∀ id ∈ spool.durable, spool.contains id = true ∨ id ∈ spool.confirmed) :
    Ledger (.idle spool) := by
  refine ⟨.none,?_,?_,?_,?_,listed,kept,?_⟩
  · intro task mem; cases mem
  · intro task mem; cases mem
  · intro job mem; cases mem
  · intro entry mem; cases mem
  · intro job mem; cases mem

theorem opened (entries : List SpoolEntry) : Ledger (.idle (.opened entries)) := by
  refine idle (fun entry mem => List.mem_map_of_mem mem) ?_
  intro id mem
  obtain ⟨entry,inside,rfl⟩ := List.mem_map.mp mem
  refine .inl ?_
  simp only [Spool.contains,List.any_eq_true,beq_iff_eq]
  exact ⟨entry,inside,rfl⟩

end Ledger
end TelephoneBooth
