import TelephoneBooth.UploadLedger

/-! Why the replay worker uploads no entry that is already gone. A dequeue job runs under the
claim of the task that waits for it, so none can remove the entry the replay worker has found;
only an abort lets a claim go while its job still runs. -/
namespace TelephoneBooth
open Uploads

/- Every dequeue job has a task that waits for it, one for each; and the entry the replay worker
has found is still there. -/
structure Serial (u : Uploads) : Prop where
  foreground : ∀ job ∈ u.dequeues, ∀ number, job.owner = some number →
    ∃ task ∈ u.tasks, task.number = number ∧ task.stage = .dequeuing ∧ task.id = job.recordingId
  background : ∀ job ∈ u.dequeues, job.owner = none → u.replay.isDequeuing = true
  once : (u.dequeues.map DequeueJob.owner).Nodup
  vetted : ∀ entry ∈ u.replay.vetted, u.spool.contains entry.recordingId = true

def UploadTask.numbers (tasks : List UploadTask) : List Nat := tasks.map UploadTask.number

theorem sameNumber {tasks : List UploadTask} {task other : UploadTask}
    (apart : (UploadTask.numbers tasks).Nodup) (mem : task ∈ tasks) (there : other ∈ tasks)
    (same : task.number = other.number) : task = other :=
  List.inj_on_of_nodup_map apart mem there same

namespace Serial
variable {u u' : Uploads} {task : UploadTask}

theorem keep (serial : Serial u) (dequeues : u'.dequeues = u.dequeues)
    (replay : u'.replay = u.replay)
    (contains : ∀ id, u.spool.contains id = true → u'.spool.contains id = true)
    (tasks : ∀ task ∈ u.tasks, task.stage = .dequeuing → task ∈ u'.tasks) : Serial u' := by
  refine ⟨?_,?_,?_,?_⟩
  · rw [dequeues]
    intro job queued number owner
    obtain ⟨task,mem,own,stage,id_⟩ := serial.foreground job queued number owner
    exact ⟨task,tasks task mem stage,own,stage,id_⟩
  · rw [dequeues,replay]
    exact serial.background
  · rw [dequeues]
    exact serial.once
  · rw [replay]
    exact fun entry found => contains _ (serial.vetted entry found)

theorem move (serial : Serial u) (waits : task.stage ≠ .dequeuing) (stage : UploadStage) :
    Serial (u.move task stage) := by
  refine serial.keep rfl rfl (fun _ => id) ?_
  intro other mem dequeuing
  have apart : other ≠ task := by
    rintro rfl
    exact waits dequeuing
  exact List.mem_cons_of_mem _ ((List.mem_erase_of_ne apart).mpr mem)

theorem finish (serial : Serial u) (waits : task.stage ≠ .dequeuing) : Serial (u.finish task) :=
  (serial.move waits .done).keep rfl rfl (fun _ => id) (fun _ mem _ => mem)

theorem unreportedWaits (open_ : task.stage.unreported = true) : task.stage ≠ .dequeuing := by
  intro waits
  rw [waits] at open_
  cases open_

theorem accept (serial : Serial u) {number : Nat} {id : RecordingId} {notices : List Notice}
    (accepts : AcceptStep u number id u' notices) : Serial u' := by
  cases accepts with
  | refuse | busy | claim =>
    exact serial.keep rfl rfl (fun _ there => there) (fun _ mem _ => mem)

theorem spawn (serial : Serial u) {shuttingDown : Bool} (done : u.spawn shuttingDown = some u') :
    Serial u' := by
  obtain ⟨task,_,⟨_,rfl⟩ | ⟨_,rfl⟩⟩ := spawnCases done
  · exact serial.keep rfl rfl (fun _ => id) (fun _ mem _ => mem)
  · exact serial.keep rfl rfl (fun _ => id) (fun _ mem _ => List.mem_append_left _ mem)

theorem join (serial : Serial u) {number : Nat} (done : u.join number = some u') : Serial u' := by
  obtain ⟨task,mem,ended,rfl⟩ := Uploads.joinCases done
  refine serial.keep rfl rfl (fun _ => id) ?_
  intro other inside dequeuing
  have apart : other ≠ task := by
    rintro rfl
    rw [ended] at dequeuing
    cases dequeuing
  exact (List.mem_erase_of_ne apart).mpr inside

theorem enqueued (serial : Serial u) {job : EnqueueJob} {error : Option String}
    (done : u.enqueued job error = some u') : Serial u' := by
  obtain ⟨_,_,tasks,_,dequeues,replay,_,ran⟩ := enqueuedCases done
  refine serial.keep dequeues replay ?_ ?_
  · intro id there
    rcases ran with ⟨_,same,_⟩ | ⟨_,same,_⟩ <;> rw [same]
    · exact Ledger.containsEnqueued _ _ (.inl there)
    · exact there
  · intro task mem dequeuing
    rw [tasks]
    refine List.mem_map.mpr ⟨task,mem,?_⟩
    unfold UploadTask.deliver
    rw [if_neg]
    rintro ⟨_,persisting⟩
    rw [persisting] at dequeuing
    cases dequeuing

theorem ownedOnce {jobs : List DequeueJob} {job : DequeueJob}
    (once : (jobs.map DequeueJob.owner).Nodup) (new : ∀ other ∈ jobs, other.owner ≠ job.owner) :
    ((jobs ++ [job]).map DequeueJob.owner).Nodup := by
  rw [List.map_append]
  refine List.nodup_append.mpr ⟨once,List.nodup_singleton _,?_⟩
  intro owner old other mem same
  obtain ⟨earlier,queued,rfl⟩ := List.mem_map.mp old
  exact new earlier queued (same.trans (List.mem_singleton.mp mem))

theorem confirm (serial : Serial u) (apart : (UploadTask.numbers u.tasks).Nodup)
    (mem : task ∈ u.tasks) (waits : task.stage ≠ .dequeuing) (id : RecordingId)
    (own : task.id = id) : Serial { u.move task .dequeuing with
      dequeues := u.dequeues ++ [⟨some task.number,id⟩] } := by
  have moved := serial.move waits .dequeuing
  refine ⟨?_,?_,?_,moved.vetted⟩
  · intro job queued number owner
    rcases List.mem_append.mp queued with old | new
    · exact moved.foreground job old number owner
    · obtain rfl := List.mem_singleton.mp new
      cases owner
      exact ⟨{ task with stage := .dequeuing },List.mem_cons_self,rfl,rfl,own⟩
  · intro job queued owner
    rcases List.mem_append.mp queued with old | new
    · exact moved.background job old owner
    · obtain rfl := List.mem_singleton.mp new
      cases owner
  · refine ownedOnce serial.once ?_
    intro job queued same
    obtain ⟨holder,inside,numbered,stage,_⟩ := serial.foreground job queued _ same
    rw [sameNumber apart inside mem numbered] at stage
    exact waits stage

theorem step (serial : Serial u) (apart : (UploadTask.numbers u.tasks).Nodup) {number : Nat}
    {shuttingDown accepting : Bool} {reply : Option OperatorError} {notices : List Notice}
    (moved : UploadStep u number shuttingDown accepting reply u' notices) : Serial u' := by
  cases moved with
  | advance task stage mem own durable open_ past goes =>
    exact serial.move (unreportedWaits open_) stage
  | leave task notices mem own open_ told => exact serial.finish (unreportedWaits open_)
  | confirm task call mem own stage confirmed =>
    have open_ : task.stage.unreported = true := by
      rw [stage]
      rfl
    have told : Serial (u.acknowledge task.id) :=
      serial.keep rfl rfl (fun _ there => there) (fun _ mem _ => mem)
    subst own
    exact told.confirm apart mem (unreportedWaits open_) task.id rfl

theorem vettedClaimed {replay : Replay} {entry : SpoolEntry} (found : entry ∈ replay.vetted) :
    replay.claimed = some entry.recordingId := by
  cases replay with
  | pending other rest => cases found; rfl
  | uploading other bytes call rest => cases found; rfl
  | _ => cases found

theorem vettedApart (ledger : Ledger u) (mem : task ∈ u.tasks) (stage : task.stage = .dequeuing)
    {entry : SpoolEntry} (found : entry ∈ u.replay.vetted) : entry.recordingId ≠ task.id := by
  have holds : task.holds = true := by
    refine decide_eq_true ?_
    rw [stage]
    simp
  intro same
  have split := ledger.claims.once (holdersSplit mem holds)
  refine split (List.mem_append_right _ ?_)
  rw [vettedClaimed found,same]
  exact List.mem_singleton.mpr rfl

theorem ownerWaits (serial : Serial u) (apart : (UploadTask.numbers u.tasks).Nodup)
    {job : DequeueJob} (queued : job ∈ u.dequeues)
    (foreground : ∀ number, job.owner = some number →
      ∀ task, u.find number = some task → task.stage ≠ .dequeuing)
    (replay : job.owner = none → ∀ entry rest, u.replay ≠ .dequeuing entry rest) : False := by
  cases owner : job.owner with
  | none =>
    have waits := serial.background job queued owner
    have other := replay owner
    generalize u.replay = worker at waits other
    cases worker with
    | dequeuing entry rest => exact other entry rest rfl
    | _ => cases waits
  | some number =>
    obtain ⟨holder,inside,numbered,dequeuing,_⟩ := serial.foreground job queued number owner
    have found : (u.find number).isSome = true := by
      rw [Uploads.find,List.find?_isSome]
      exact ⟨holder,inside,by simpa using numbered⟩
    obtain ⟨task,found⟩ := Option.isSome_iff_exists.mp found
    obtain ⟨mem,own⟩ := findUpload found
    have same := sameNumber apart inside mem (numbered.trans own.symm)
    rw [same] at dequeuing
    exact foreground number owner task found dequeuing

theorem dequeued (serial : Serial u) (ledger : Ledger u)
    (apart : (UploadTask.numbers u.tasks).Nodup) {job : DequeueJob} {removed : Bool}
    (done : u.dequeued job removed = some u') : Serial u' := by
  obtain ⟨queued,moved⟩ := dequeuedCases done
  have once : ∀ other ∈ u.dequeues.erase job, other.owner ≠ job.owner := by
    intro other waits same
    have split := (List.perm_cons_erase queued).map DequeueJob.owner
    have fresh := (List.nodup_cons.mp (split.nodup_iff.mp serial.once)).1
    exact fresh (by rw [← same]; exact List.mem_map_of_mem waits)
  have rest : ((u.dequeues.erase job).map DequeueJob.owner).Nodup :=
    serial.once.sublist (List.erase_sublist.map _)
  cases moved with
  | finish task mem owner stage =>
    refine ⟨?_,?_,rest,?_⟩
    · intro other waits number own
      obtain ⟨holder,inside,numbered,dequeuing,id_⟩ :=
        serial.foreground other (List.mem_of_mem_erase waits) number own
      have different : holder ≠ task := by
        rintro rfl
        exact once other waits (by rw [own,owner,numbered])
      exact ⟨holder,List.mem_cons_of_mem _ ((List.mem_erase_of_ne different).mpr inside),numbered,
        dequeuing,id_⟩
    · exact fun other waits => serial.background other (List.mem_of_mem_erase waits)
    · intro entry found
      have there := serial.vetted entry found
      cases removed with
      | false => exact there
      | true =>
        obtain ⟨holder,inside,_,dequeuing,id_⟩ := serial.foreground job queued _ owner
        refine Ledger.containsDequeued _ there ?_
        rw [← id_]
        exact vettedApart ledger inside dequeuing found
  | pass entry others owner waits =>
    refine ⟨?_,?_,rest,fun other found => by cases found⟩
    · exact fun other inside => serial.foreground other (List.mem_of_mem_erase inside)
    · intro other inside own
      exact absurd (own.trans owner.symm) (once other inside)
  | gone foreground replay => exact (ownerWaits serial apart queued foreground replay).elim

theorem replay (serial : Serial u) {accepting : Bool} {reply : ReplayReply}
    (done : u.replayStep accepting reply = some u') : Serial u' := by
  have none_ (idle_ : u.replay.isDequeuing = false) (job : DequeueJob) (queued : job ∈ u.dequeues) :
      job.owner ≠ none := by
    intro owner
    rw [serial.background job queued owner] at idle_
    cases idle_
  cases replayStepCases done with
  | go replay lastAttempt claimed visits vets waits waits' =>
    refine ⟨serial.foreground,fun job queued owner => absurd owner (none_ waits job queued),
      serial.once,?_⟩
    intro entry found
    rcases vets entry found with before | there
    · exact serial.vetted entry before
    · exact there
  | list scanning =>
    refine ⟨serial.foreground,fun job queued owner => absurd owner (none_ ?_ job queued),
      serial.once,fun entry found => by cases found⟩
    rw [scanning]
    rfl
  | claim entry rest next =>
    refine ⟨serial.foreground,fun job queued owner => absurd owner (none_ ?_ job queued),
      serial.once,fun entry found => by cases found⟩
    rw [next]
    rfl
  | pass entry replay lastAttempt claimed gone visits vets waits waits' =>
    refine ⟨serial.foreground,fun job queued owner => absurd owner (none_ waits job queued),
      serial.once,?_⟩
    intro other found
    rw [show _ = none from vets] at found
    cases found
  | confirm entry bytes call rest calls confirmed =>
    have waits : u.replay.isDequeuing = false := by
      rw [calls]
      rfl
    refine ⟨?_,fun _ _ _ => rfl,?_,fun other found => by cases found⟩
    · intro job queued number owner
      rcases List.mem_append.mp queued with old | new
      · exact serial.foreground job old number owner
      · obtain rfl := List.mem_singleton.mp new
        cases owner
    · exact ownedOnce serial.once fun job queued own => none_ waits job queued own

theorem idle (spool : Spool) : Serial (.idle spool) := by
  refine ⟨?_,?_,List.nodup_nil,?_⟩
  · intro job queued; cases queued
  · intro job queued; cases queued
  · intro entry found; cases found

end Serial
end TelephoneBooth
