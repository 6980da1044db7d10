import TelephoneBooth.SerialReplay
import TelephoneBooth.RuntimeStep
import TelephoneBooth.Recordings

/-! The upload protocol over whole runs, with the operator, the gate, crashes and shutdowns free:
no upload before its entry is durable, no entry lost before it is confirmed, one task at a time
for each recording, and no upload of an entry that is gone. -/
namespace TelephoneBooth
open Booth Uploads

def Accepted (call : UploadCall) (reply : Option OperatorError) : Prop :=
  call = .complete ∧ reply = none ∨
    call = .init ∧ ∃ detail, reply = some (.duplicateRecording detail)

def Acknowledges (rt : Booth) (id : RecordingId) : Label → Prop
  | .upload number reply => ∃ task ∈ rt.uploads.tasks, task.number = number ∧ task.id = id ∧
      ∃ call, task.stage = .uploading call ∧ Accepted call reply
  | .replay reply => ∃ entry bytes call rest, rt.uploads.replay = .uploading entry bytes call rest ∧
      entry.recordingId = id ∧ Accepted call reply.error
  | _ => False

def NotStale (u : Uploads) : Prop :=
  ∀ entry ∈ u.replay.inCall, u.spool.contains entry.recordingId = true

instance (u : Uploads) : Decidable (NotStale u) := by
  unfold NotStale
  infer_instance

structure UploadsDurable (rt : Booth) (label : Label) (after : Booth) : Prop where
  started : ∀ id ∈ after.uploads.uploading, id ∈ after.uploads.spool.durable
  removed : ∀ id, rt.uploads.spool.contains id = true → after.uploads.spool.contains id = false →
    id ∈ rt.uploads.spool.confirmed
  confirmed : ∀ id ∈ after.uploads.spool.confirmed,
    id ∈ rt.uploads.spool.confirmed ∨ Acknowledges rt id label
  enqueued : ∀ job, label = .enqueued job none →
    job.entry.recordingId ∈ after.uploads.spool.durable
  lasting : ∀ id ∈ rt.uploads.spool.durable, id ∈ after.uploads.spool.durable
  kept : ∀ id ∈ after.uploads.spool.durable,
    id ∈ after.uploads.spool.confirmed ∨ after.uploads.spool.contains id = true
  found : ∀ reply, label = .replay reply → rt.uploads.replay = .scanning → reply.failed = false →
    ∀ id, rt.uploads.spool.contains id = true → id ∉ reply.unreadable →
      ∃ entry ∈ after.uploads.replay.visiting, entry.recordingId = id
  alone : after.uploads.uploading.Nodup
  fresh : NotStale after.uploads

/- No upload is aborted while its entry is being removed, unless the replay worker is as well. -/
def RemovalsFinish (rt : Booth) (label : Label) (_ : Booth) : Prop :=
  match label with
  | .cancel number => rt.uploads.replay ≠ .aborted →
      ∀ task ∈ rt.uploads.find number, task.stage ≠ .dequeuing
  | _ => True

instance (rt : Booth) (label : Label) (after : Booth) : Decidable (RemovalsFinish rt label after) := by
  unfold RemovalsFinish
  split <;> infer_instance

theorem uploadAccepted {bytes : Nat} {durationMs : Option Nat} {reply : Option OperatorError}
    {call : UploadCall} (finished : uploadCall bytes durationMs reply call = .finished .complete) :
    Accepted call reply := by
  unfold uploadCall at finished
  cases call with
  | validate =>
    dsimp only at finished
    split at finished
    · rename_i error _
      cases error <;> cases finished
    · cases finished
  | init =>
    cases reply with
    | none => cases finished
    | some error =>
      cases error with
      | duplicateRecording detail => exact .inr ⟨rfl,detail,rfl⟩
      | _ => cases finished
  | put =>
    cases reply with
    | none => cases finished
    | some error => cases error <;> cases finished
  | complete =>
    cases reply with
    | none => exact .inl ⟨rfl,rfl⟩
    | some error => cases error <;> cases finished

structure StartsNone (u u' : Uploads) : Prop where
  known : ∃ gone, (u.known.map UploadTask.number).Perm (u'.known.map UploadTask.number ++ gone)
  jobs : ∀ job ∈ u'.enqueues, job ∈ u.enqueues

structure Numbered (rt : Booth) : Prop where
  apart : (rt.pendingOperatorEffects.map OperatorEffect.number ++
    rt.uploads.known.map UploadTask.number).Nodup
  taken : ∀ n ∈ rt.pendingOperatorEffects.map OperatorEffect.number ++
    rt.uploads.known.map UploadTask.number, n < rt.effects.taken
  queued : ∀ job ∈ rt.uploads.enqueues, job.number < rt.effects.taken ∧
    job.number ∉ rt.pendingOperatorEffects.map OperatorEffect.number

structure Fresh (rt : Booth) (number : Nat) : Prop where
  pending : number ∉ rt.pendingOperatorEffects.map OperatorEffect.number
  known : number ∉ rt.uploads.known.map UploadTask.number
  jobs : ∀ job ∈ rt.uploads.enqueues, job.number ≠ number
  taken : number < rt.effects.taken

def takesEffect : Label → Bool
  | .take _ | .resume _ => true
  | _ => false

inductive UploadsTurn (rt : Booth) : Label → Uploads → Prop where
  | still {label} : UploadsTurn rt label rt.uploads
  | accept {label number id notices uploads} (ready : rt.uploads.admitting = none)
      (jobs : ∀ job ∈ rt.uploads.enqueues, job.number ≠ number)
      (known : ∀ task ∈ rt.uploads.known, task.number ≠ number)
      (accepts : AcceptStep rt.uploads number id uploads notices) (takes : takesEffect label = true) :
      UploadsTurn rt label uploads
  | spawn {shuttingDown uploads} (done : rt.uploads.spawn shuttingDown = some uploads) :
      UploadsTurn rt .spawn uploads
  | step {number reply shuttingDown accepting uploads notices}
      (moved : UploadStep rt.uploads number shuttingDown accepting reply uploads notices) :
      UploadsTurn rt (.upload number reply) uploads
  | cancel {number uploads} (done : rt.uploads.cancel number = some uploads) :
      UploadsTurn rt (.cancel number) uploads
  | join {number uploads} (done : rt.uploads.join number = some uploads) :
      UploadsTurn rt (.join number) uploads
  | enqueued {job error uploads} (done : rt.uploads.enqueued job error = some uploads) :
      UploadsTurn rt (.enqueued job error) uploads
  | dequeued {job removed uploads} (done : rt.uploads.dequeued job removed = some uploads) :
      UploadsTurn rt (.dequeued job removed) uploads
  | replay {accepting reply uploads} (done : rt.uploads.replayStep accepting reply = some uploads) :
      UploadsTurn rt (.replay reply) uploads
  | abortReplay : UploadsTurn rt .shutdown rt.uploads.abortReplay
  | abortTasks (admitting : rt.uploads.admitting = none) (closing : rt.phase = .closing) :
      UploadsTurn rt .shutdown rt.uploads.abortTasks
  | restart {accepting onHook} :
      UploadsTurn rt (.restart accepting onHook) (.idle rt.uploads.spool.abandon)

theorem bootUploads (minRecordingMs : Nat) (recordingsDir : String) (accepting onHook : Bool)
    (spool : Spool) : (boot minRecordingMs recordingsDir accepting onHook spool).uploads =
      .idle spool := by
  unfold boot
  dsimp only
  split <;> rfl

theorem executeTurn {rt rt' : Booth} {number : Nat} {effect : Effect} {reply : InlineReply}
    (done : Executes rt number reply effect rt') : rt'.uploads = rt.uploads ∨
      ∃ id notices, AcceptStep rt.uploads number id rt'.uploads notices := by
  cases done with
  | uploadRecording recordingId questionId =>
    rw [sendUploads]
    exact .inr ⟨recordingId,_,acceptCases _ _ _ _ _ _⟩
  | startRecording | stopRecording =>
    rw [sendUploads]
    exact .inl rfl
  | _ => exact .inl rfl

theorem takenFresh {rt : Booth} (numbered : Numbered rt) {number : Nat} {emitted : Emitted}
    {effects : Channel Emitted} (received : rt.effects.receive = some ((number,emitted),effects)) :
    Fresh { rt with effects } number := by
  obtain ⟨rfl,_,_,taken⟩ := Channel.receiveCases received
  refine ⟨?_,?_,?_,?_⟩
  · intro mem
    exact Nat.lt_irrefl _ (numbered.taken _ (List.mem_append_left _ mem))
  · intro mem
    exact Nat.lt_irrefl _ (numbered.taken _ (List.mem_append_right _ mem))
  · intro job queued same
    exact Nat.ne_of_lt (numbered.queued job queued).1 same
  · show rt.effects.taken < effects.taken
    omega

theorem resumedFresh {rt : Booth} (numbered : Numbered rt) {next : OperatorEffect}
    {rest : List OperatorEffect} (waiting : rt.pendingOperatorEffects = next :: rest) :
    Fresh { rt with pendingOperatorEffects := rest } next.number := by
  have apart := numbered.apart
  have taken := numbered.taken
  have queued := numbered.queued
  rw [waiting,List.map_cons,List.cons_append] at apart taken
  rw [waiting,List.map_cons] at queued
  have new := (List.nodup_cons.mp apart).1
  refine ⟨fun mem => new (List.mem_append_left _ mem),fun mem => new (List.mem_append_right _ mem),?_,
    taken _ List.mem_cons_self⟩
  intro job mem same
  exact (queued job mem).2 (by rw [same]; exact List.mem_cons_self)

theorem uploadsTurnCases {rt rt' : Booth} {label : Label} (done : rt.step label = some rt')
    (numbered : Numbered rt) : UploadsTurn rt label rt'.uploads := by
  have step := stepCases done
  cases step with
  | execute received live carried =>
    have ready := takenReady done (.inl ⟨_,rfl⟩)
    have fresh := takenFresh numbered received
    rcases executeTurn carried with same | ⟨id,notices,accepts⟩
    · rw [same]
      exact .still
    · refine .accept ready fresh.jobs ?_ accepts rfl
      rintro task mem rfl
      exact fresh.known (List.mem_map_of_mem mem)
  | resume waiting live carried =>
    have ready := takenReady done (.inr ⟨_,rfl⟩)
    have fresh := resumedFresh numbered waiting
    rcases executeTurn carried with same | ⟨id,notices,accepts⟩
    · rw [same]
      exact .still
    · refine .accept ready fresh.jobs ?_ accepts rfl
      intro task mem same
      exact fresh.known (by rw [← same]; exact List.mem_map_of_mem mem)
  | spawn spawned => exact .spawn spawned
  | upload moved =>
    rw [sendUploads]
    exact .step (uploadStepCases moved)
  | cancelUpload stopping cancelled => exact .cancel cancelled
  | joinUpload joined => exact .join joined
  | enqueued ran => exact .enqueued ran
  | dequeued ran => exact .dequeued ran
  | replay ran => exact .replay ran
  | shutdown advanced =>
    cases shutdownCases advanced with
    | abort => exact .abortReplay
    | leave phase drained pending admitting => exact .abortTasks admitting phase
    | _ => exact .still
  | restart accepting onHook =>
    exact (bootUploads _ _ _ _ _).symm ▸ .restart
  | sense | fetch | pulseTimeout | recordingTimeout | speaker =>
    rw [sendUploads]
    exact .still
  | _ => exact .still

theorem StartsNone.same {u u' : Uploads}
    (known : u'.known.map UploadTask.number = u.known.map UploadTask.number)
    (jobs : u'.enqueues = u.enqueues) : StartsNone u u' := by
  refine ⟨⟨[],?_⟩,?_⟩
  · rw [known,List.append_nil]
  · rw [jobs]
    exact fun job queued => queued

theorem StartsNone.move {u : Uploads} {task : UploadTask} (mem : task ∈ u.tasks)
    (stage : UploadStage) : StartsNone u (u.move task stage) := by
  refine ⟨⟨[],?_⟩,fun job queued => queued⟩
  rw [List.append_nil]
  have before := (knownSplit mem).map UploadTask.number
  have after := (knownMoved u task stage).map UploadTask.number
  exact before.trans after.symm

theorem deliverNumbers (tasks : List UploadTask) (number : Nat) (error : Option String) :
    (tasks.map fun task => UploadTask.deliver task number error).map UploadTask.number =
      tasks.map UploadTask.number := by
  induction tasks with
  | nil => rfl
  | cons task rest ih =>
    simp only [List.map_cons,List.cons.injEq]
    exact ⟨deliverNumber task number error,ih⟩

theorem startsNone {rt : Booth} {label : Label} {uploads : Uploads}
    (turn : UploadsTurn rt label uploads) (other : takesEffect label = false) :
    StartsNone rt.uploads uploads := by
  cases turn with
  | accept ready jobs known accepts takes =>
    rw [other] at takes
    cases takes
  | still => exact .same rfl rfl
  | spawn done =>
    obtain ⟨task,admitting,⟨_,rfl⟩ | ⟨_,rfl⟩⟩ := spawnCases done
    · refine ⟨⟨[task.number],?_⟩,fun job queued => queued⟩
      unfold Uploads.known
      rw [admitting]
      exact (List.perm_append_singleton _ _).symm
    · refine ⟨⟨[],?_⟩,fun job queued => queued⟩
      unfold Uploads.known
      rw [admitting,List.append_nil]
      exact (List.perm_append_singleton task rt.uploads.tasks).symm.map UploadTask.number
  | step moved =>
    cases moved with
    | advance task stage mem => exact .move mem stage
    | leave task notices mem => exact ⟨(StartsNone.move mem .done).known,fun job queued => queued⟩
    | confirm task call mem => exact ⟨(StartsNone.move mem .dequeuing).known,fun job queued => queued⟩
  | cancel done =>
    obtain ⟨task,mem,_,_,rfl⟩ := Uploads.cancelCases done
    exact ⟨(StartsNone.move mem .done).known,fun job queued => queued⟩
  | join done =>
    obtain ⟨task,mem,_,rfl⟩ := Uploads.joinCases done
    refine ⟨⟨[task.number],?_⟩,fun job queued => queued⟩
    have split := (knownSplit mem).map UploadTask.number
    exact split.trans (List.perm_append_singleton _ _).symm
  | enqueued done =>
    obtain ⟨_,admitting,tasks,enqueues,_⟩ := enqueuedCases done
    refine ⟨⟨[],?_⟩,?_⟩
    · unfold Uploads.known
      rw [admitting,tasks,List.append_nil,List.map_append,List.map_append,deliverNumbers]
      cases rt.uploads.admitting with
      | none => exact List.Perm.refl _
      | some task => exact .of_eq (by simp [deliverNumber])
    · rw [enqueues]
      exact fun job queued => List.mem_of_mem_erase queued
  | dequeued done =>
    cases (dequeuedCases done).2 with
    | finish task mem owner stage => exact ⟨(StartsNone.move mem .done).known,fun job queued => queued⟩
    | pass | gone => exact .same rfl rfl
  | replay done =>
    cases replayStepCases done <;> exact .same rfl rfl
  | abortReplay => exact .same rfl rfl
  | abortTasks admitting closing =>
    refine ⟨⟨rt.uploads.known.map UploadTask.number,?_⟩,fun job queued => queued⟩
    have none_ : rt.uploads.abortTasks.known = [] := by
      show rt.uploads.admitting.toList ++ [] = []
      rw [admitting]
      rfl
    rw [none_]
    exact List.Perm.refl _
  | restart =>
    refine ⟨⟨rt.uploads.known.map UploadTask.number,List.Perm.refl _⟩,?_⟩
    exact fun job queued => by cases queued

theorem Numbered.keep {rt rt' : Booth} (numbered : Numbered rt)
    (pending : rt'.pendingOperatorEffects.Sublist rt.pendingOperatorEffects)
    (taken : rt.effects.taken ≤ rt'.effects.taken) (none_ : StartsNone rt.uploads rt'.uploads) :
    Numbered rt' := by
  obtain ⟨gone,split⟩ := none_.known
  have fewer := pending.map OperatorEffect.number
  have apart := (split.append_left _).nodup_iff.mp numbered.apart
  rw [← List.append_assoc] at apart
  refine ⟨?_,?_,?_⟩
  · exact (List.nodup_append.mp apart).1.sublist (fewer.append_right _)
  · intro n mem
    refine Nat.lt_of_lt_of_le (numbered.taken n ?_) taken
    rcases List.mem_append.mp mem with front | back
    · exact List.mem_append_left _ (fewer.subset front)
    · exact List.mem_append_right _ (split.symm.subset (List.mem_append_left _ back))
  · intro job queued
    obtain ⟨early,other⟩ := numbered.queued job (none_.jobs job queued)
    exact ⟨Nat.lt_of_lt_of_le early taken,fun mem => other (fewer.subset mem)⟩

theorem Numbered.accept {rt rt' : Booth} (numbered : Numbered rt) {number : Nat}
    (fresh : Fresh rt number) (ready : rt.uploads.admitting = none) {id : RecordingId}
    {notices : List Notice} (accepts : AcceptStep rt.uploads number id rt'.uploads notices)
    (pending : rt'.pendingOperatorEffects = rt.pendingOperatorEffects)
    (taken : rt'.effects.taken = rt.effects.taken) : Numbered rt' := by
  have same (u : Uploads) (known : u.known = rt.uploads.known) (jobs : u.enqueues = rt.uploads.enqueues)
      (here : rt'.uploads = u) : Numbered rt' := by
    refine numbered.keep (by rw [pending]) (by rw [taken]) (.same ?_ ?_)
    · rw [here,known]
    · rw [here,jobs]
  generalize shape : rt'.uploads = uploads at accepts
  cases accepts with
  | refuse => exact same (rt.uploads.refuse id) rfl rfl shape
  | busy => exact same rt.uploads rfl rfl shape
  | claim task free own sameId stage =>
    have known : rt'.uploads.known.map UploadTask.number =
        number :: rt.uploads.known.map UploadTask.number := by
      rw [shape]
      unfold Uploads.known
      rw [ready,← own]
      rfl
    have split : (rt'.pendingOperatorEffects.map OperatorEffect.number ++
        rt'.uploads.known.map UploadTask.number).Perm
        (number :: (rt.pendingOperatorEffects.map OperatorEffect.number ++
          rt.uploads.known.map UploadTask.number)) := by
      rw [pending,known]
      exact List.perm_middle
    refine ⟨?_,?_,?_⟩
    · refine split.nodup_iff.mpr (List.nodup_cons.mpr ⟨?_,numbered.apart⟩)
      exact fun mem => (List.mem_append.mp mem).elim fresh.pending fresh.known
    · intro n mem
      rw [taken]
      rcases List.mem_cons.mp (split.subset mem) with rfl | old
      · exact fresh.taken
      · exact numbered.taken n old
    · rw [taken,pending,shape]
      intro job queued
      rcases List.mem_append.mp queued with old | new
      · exact numbered.queued job old
      · obtain rfl := List.mem_singleton.mp new
        exact ⟨fresh.taken,fresh.pending⟩

theorem executePending {rt rt' : Booth} {number : Nat} {effect : Effect} {reply : InlineReply}
    (done : Executes rt number reply effect rt') :
    rt'.pendingOperatorEffects = rt.pendingOperatorEffects := by
  cases done <;> simp

theorem executeNumbered {rt rt' : Booth} {number : Nat} {effect : Effect} {reply : InlineReply}
    (done : Executes rt number reply effect rt') (numbered : Numbered rt) (fresh : Fresh rt number)
    (ready : rt.uploads.admitting = none) : Numbered rt' := by
  have pending := executePending done
  have effects := executeEffects done
  rcases executeTurn done with same | ⟨id,notices,accepts⟩
  · exact numbered.keep (by rw [pending]) (by rw [effects]) (.same (by rw [same]) (by rw [same]))
  · exact numbered.accept fresh ready accepts pending (by rw [effects])

theorem bootNumbered (minRecordingMs : Nat) (recordingsDir : String) (accepting onHook : Bool)
    (spool : Spool) : Numbered (boot minRecordingMs recordingsDir accepting onHook spool) := by
  have none_ : (boot minRecordingMs recordingsDir accepting onHook spool).pendingOperatorEffects = [] := by
    unfold boot
    dsimp only
    split <;> rfl
  refine ⟨?_,?_,?_⟩
  · rw [none_,bootUploads]
    exact List.nodup_nil
  · rw [none_,bootUploads]
    intro n mem
    cases mem
  · rw [bootUploads]
    intro job queued
    cases queued

theorem stepNumbered {rt rt' : Booth} {label : Label} (done : rt.step label = some rt')
    (numbered : Numbered rt) : Numbered rt' := by
  have turn := uploadsTurnCases done numbered
  have step := stepCases done
  -- a step that neither takes nor resumes an effect starts no upload
  have other (takes : takesEffect label = false)
      (pending : rt'.pendingOperatorEffects = rt.pendingOperatorEffects)
      (taken : rt.effects.taken ≤ rt'.effects.taken) : Numbered rt' :=
    numbered.keep (by rw [pending]) taken (startsNone turn takes)
  have received_ {effects : Channel Emitted} (taken : rt.effects.taken ≤ effects.taken) :
      Numbered { rt with effects } :=
    numbered.keep (List.Sublist.refl _) taken (.same rfl rfl)
  have rest_ {next : OperatorEffect} {rest : List OperatorEffect}
      (waiting : rt.pendingOperatorEffects = next :: rest) :
      Numbered { rt with pendingOperatorEffects := rest } := by
    refine numbered.keep ?_ (Nat.le_refl _) (.same rfl rfl)
    rw [waiting]
    exact List.sublist_cons_self _ _
  cases step with
  | execute received live carried =>
    have ready := takenReady done (.inl ⟨_,rfl⟩)
    exact executeNumbered carried (received_ (Channel.receivedTaken received))
      (takenFresh numbered received) ready
  | resume waiting live carried =>
    have ready := takenReady done (.inr ⟨_,rfl⟩)
    exact executeNumbered carried (rest_ waiting) (resumedFresh numbered waiting) ready
  | defer received operator =>
    rename_i reply number emitted effects
    have fresh := takenFresh numbered received
    have left := received_ (Channel.receivedTaken received)
    let put : OperatorEffect := ⟨number,emitted,operator⟩
    have split : ((rt.pendingOperatorEffects ++ [put]).map OperatorEffect.number ++
        rt.uploads.known.map UploadTask.number).Perm
        (number :: (rt.pendingOperatorEffects.map OperatorEffect.number ++
          rt.uploads.known.map UploadTask.number)) := by
      rw [List.map_append,List.append_assoc]
      exact List.perm_middle
    refine ⟨?_,?_,?_⟩
    · refine split.nodup_iff.mpr (List.nodup_cons.mpr ⟨?_,numbered.apart⟩)
      exact fun mem => (List.mem_append.mp mem).elim fresh.pending fresh.known
    · intro n mem
      rcases List.mem_cons.mp (split.subset mem) with rfl | old
      · exact fresh.taken
      · exact left.taken n old
    · intro job queued
      refine ⟨(left.queued job queued).1,?_⟩
      rw [List.map_append]
      intro mem
      rcases List.mem_append.mp mem with old | new
      · exact (left.queued job queued).2 old
      · exact fresh.jobs job queued (List.mem_singleton.mp new)
  | skip received => exact received_ (Channel.receivedTaken received)
  | forget waiting => exact rest_ waiting
  | restart accepting onHook => exact bootNumbered _ _ _ _ _
  | shutdown advanced => cases shutdownCases advanced <;> exact other rfl rfl (Nat.le_refl _)
  | sense | fetch | pulseTimeout | recordingTimeout | speaker | upload =>
    exact other rfl (by simp) (by simp)
  | _ => exact other rfl rfl (Nat.le_refl _)

def Phase.late : Phase → Bool
  | .aborted | .closing | .returned => true
  | _ => false

structure UploadInvariant (rt : Booth) : Prop where
  numbered : Numbered rt
  ledger : Ledger rt.uploads
  late : rt.phase.late = true → rt.uploads.replay = .aborted

theorem turnLedger {rt : Booth} {label : Label} {uploads : Uploads} (held : UploadInvariant rt)
    (turn : UploadsTurn rt label uploads) : Ledger uploads := by
  have ledger := held.ledger
  cases turn with
  | still => exact ledger
  | accept ready jobs known accepts => exact ledger.accept ready accepts jobs known
  | spawn done => exact ledger.spawn done
  | step moved => exact ledger.step moved
  | cancel done => exact ledger.cancel done
  | join done => exact ledger.join done
  | enqueued done => exact ledger.enqueued done
  | dequeued done => exact ledger.dequeued done
  | replay done => exact ledger.replay done
  | abortReplay => exact ledger.abortReplay
  | abortTasks admitting closing =>
    exact ledger.abortTasks admitting (held.late (by rw [closing]; rfl))
  | restart => exact .idle ledger.listed ledger.kept

theorem turnAborted {rt : Booth} {label : Label} {uploads : Uploads}
    (turn : UploadsTurn rt label uploads) (aborted : rt.uploads.replay = .aborted)
    (same : ∀ accepting onHook, label ≠ .restart accepting onHook) : uploads.replay = .aborted := by
  cases turn with
  | still | abortTasks => exact aborted
  | accept ready jobs known accepts => cases accepts <;> exact aborted
  | spawn done => obtain ⟨task,_,⟨_,rfl⟩ | ⟨_,rfl⟩⟩ := spawnCases done <;> exact aborted
  | step moved => cases moved <;> exact aborted
  | cancel done =>
    obtain ⟨task,_,_,_,rfl⟩ := Uploads.cancelCases done
    exact aborted
  | join done =>
    obtain ⟨task,_,_,rfl⟩ := Uploads.joinCases done
    exact aborted
  | enqueued done =>
    obtain ⟨_,_,_,_,_,replay,_⟩ := enqueuedCases done
    exact replay.trans aborted
  | dequeued done =>
    cases (dequeuedCases done).2 with
    | finish | gone => exact aborted
    | pass entry rest owner waits =>
      rw [aborted] at waits
      cases waits
  | replay done =>
    unfold replayStep at done
    rw [aborted] at done
    cases done
  | abortReplay => rfl
  | restart => exact absurd rfl (same _ _)

theorem otherPhase {rt rt' : Booth} {label : Label} (step : BoothStep rt label rt')
    (stays : label ≠ .shutdown) (same : ∀ accepting onHook, label ≠ .restart accepting onHook) :
    rt'.phase = rt.phase := by
  cases step with
  | shutdown => exact absurd rfl stays
  | restart => exact absurd rfl (same _ _)
  | execute received live done =>
    have phase := executePhase done
    exact phase
  | resume waiting live done =>
    have phase := executePhase done
    exact phase
  | sense | fetch | pulseTimeout | recordingTimeout | speaker | upload => rw [sendPhase]
  | _ => rfl

theorem bootPhase (minRecordingMs : Nat) (recordingsDir : String) (accepting onHook : Bool)
    (spool : Spool) : (boot minRecordingMs recordingsDir accepting onHook spool).phase = .running := by
  unfold boot
  dsimp only
  split <;> rfl

theorem stepLate {rt rt' : Booth} {label : Label} (done : rt.step label = some rt')
    (held : UploadInvariant rt) (late : rt'.phase.late = true) : rt'.uploads.replay = .aborted := by
  have turn := uploadsTurnCases done held.numbered
  have step := stepCases done
  cases label with
  | restart accepting onHook =>
    cases step
    rw [show rt.restart accepting onHook = boot _ _ accepting onHook _ from rfl,bootPhase] at late
    cases late
  | shutdown =>
    cases step with
    | shutdown advanced =>
      cases shutdownCases advanced with
      | flag | deafen | silence => cases late
      | abort => rfl
      | close phase | leave phase => exact held.late (by rw [phase]; rfl)
  | _ =>
    rw [otherPhase step (by simp) (by simp)] at late
    exact turnAborted turn (held.late late) (by simp)

theorem stepUploads {rt rt' : Booth} {label : Label} (done : rt.step label = some rt')
    (held : UploadInvariant rt) : UploadInvariant rt' :=
  ⟨stepNumbered done held.numbered,turnLedger held (uploadsTurnCases done held.numbered),
    stepLate done held⟩

theorem taskNumbers {rt : Booth} (numbered : Numbered rt) :
    (UploadTask.numbers rt.uploads.tasks).Nodup := by
  have known := (List.nodup_append.mp numbered.apart).2.1
  exact known.sublist ((List.sublist_append_right _ _).map _)

theorem turnSerial {rt rt' : Booth} {label : Label} {uploads : Uploads} (held : UploadInvariant rt)
    (turn : UploadsTurn rt label uploads) (finish : RemovalsFinish rt label rt')
    (serial : rt.uploads.replay = .aborted ∨ Serial rt.uploads) :
    uploads.replay = .aborted ∨ Serial uploads := by
  have apart := taskNumbers held.numbered
  by_cases restarts : ∃ accepting onHook, label = .restart accepting onHook
  · obtain ⟨accepting,onHook,rfl⟩ := restarts
    cases turn with
    | still => exact serial
    | accept ready jobs known accepts takes => cases takes
    | restart => exact .inr (.idle _)
  rcases serial with aborted | serial
  · exact .inl (turnAborted turn aborted fun accepting onHook same => restarts ⟨accepting,onHook,same⟩)
  cases turn with
  | still => exact .inr serial
  | accept ready jobs known accepts => exact .inr (serial.accept accepts)
  | spawn done => exact .inr (serial.spawn done)
  | step moved => exact .inr (serial.step apart moved)
  | cancel done =>
    by_cases aborted : rt.uploads.replay = .aborted
    · refine .inl (turnAborted (.cancel done) aborted ?_)
      simp
    · obtain ⟨task,found,done⟩ := Option.bind_eq_some_iff.mp done
      split at done <;> cases done
      exact .inr (serial.finish (finish aborted task found))
  | join done => exact .inr (serial.join done)
  | enqueued done => exact .inr (serial.enqueued done)
  | dequeued done => exact .inr (serial.dequeued held.ledger apart done)
  | replay done => exact .inr (serial.replay done)
  | abortReplay => exact .inl rfl
  | abortTasks admitting closing => exact .inl (held.late (by rw [closing]; rfl))
  | restart => exact .inr (.idle _)

structure SameDisk (s s' : Spool) : Prop where
  entries : s'.entries = s.entries
  durable : s'.durable = s.durable
  confirmed : s'.confirmed = s.confirmed

inductive DiskTurn (rt : Booth) : Label → Spool → Prop where
  | still {label spool} (same : SameDisk rt.uploads.spool spool) : DiskTurn rt label spool
  | confirm {label spool id} (same : SameDisk (rt.uploads.spool.acknowledge id) spool)
      (acknowledges : Acknowledges rt id label) : DiskTurn rt label spool
  | enqueue {job} : DiskTurn rt (.enqueued job none) (rt.uploads.spool.enqueue job.entry)
  | remove {job spool} (queued : job ∈ rt.uploads.dequeues)
      (same : SameDisk (rt.uploads.spool.dequeue job.recordingId) spool) :
      DiskTurn rt (.dequeued job true) spool

theorem diskTurnCases {rt : Booth} {label : Label} {uploads : Uploads}
    (turn : UploadsTurn rt label uploads) : DiskTurn rt label uploads.spool := by
  cases turn with
  | still => exact .still ⟨rfl,rfl,rfl⟩
  | accept ready jobs known accepts => cases accepts <;> exact .still ⟨rfl,rfl,rfl⟩
  | spawn done =>
    obtain ⟨task,_,⟨_,rfl⟩ | ⟨_,rfl⟩⟩ := spawnCases done <;> exact .still ⟨rfl,rfl,rfl⟩
  | step moved =>
    cases moved with
    | advance | leave => exact .still ⟨rfl,rfl,rfl⟩
    | confirm task call mem own stage confirmed =>
      exact .confirm ⟨rfl,rfl,rfl⟩ ⟨task,mem,own,rfl,call,stage,uploadAccepted confirmed⟩
  | cancel done =>
    obtain ⟨task,_,_,_,rfl⟩ := Uploads.cancelCases done
    exact .still ⟨rfl,rfl,rfl⟩
  | join done =>
    obtain ⟨task,_,_,rfl⟩ := Uploads.joinCases done
    exact .still ⟨rfl,rfl,rfl⟩
  | enqueued done =>
    obtain ⟨_,_,_,_,_,_,_,⟨rfl,spool,_⟩ | ⟨_,spool,_⟩⟩ := enqueuedCases done
    · rw [spool]
      exact .enqueue
    · rw [spool]
      exact .still ⟨rfl,rfl,rfl⟩
  | @dequeued job removed _ done =>
    obtain ⟨queued,ran⟩ := dequeuedCases done
    cases removed with
    | true => cases ran <;> exact .remove queued ⟨rfl,rfl,rfl⟩
    | false => cases ran <;> exact .still ⟨rfl,rfl,rfl⟩
  | replay done =>
    cases replayStepCases done with
    | go | list | claim | pass => exact .still ⟨rfl,rfl,rfl⟩
    | confirm entry bytes call rest calls confirmed =>
      exact .confirm ⟨rfl,rfl,rfl⟩ ⟨entry,bytes,call,rest,calls,rfl,uploadAccepted confirmed⟩
  | abortReplay =>
    unfold Uploads.abortReplay
    dsimp only
    cases rt.uploads.replay.claimed <;> exact .still ⟨rfl,rfl,rfl⟩
  | abortTasks | restart => exact .still ⟨rfl,rfl,rfl⟩

theorem SameDisk.contains {s s' : Spool} (same : SameDisk s s') (id : RecordingId) :
    s'.contains id = s.contains id := by
  unfold Spool.contains
  rw [same.entries]

theorem diskRemoved {rt : Booth} {label : Label} {spool : Spool} (ledger : Ledger rt.uploads)
    (turn : DiskTurn rt label spool) {id : RecordingId}
    (there : rt.uploads.spool.contains id = true) (gone : spool.contains id = false) :
    id ∈ rt.uploads.spool.confirmed := by
  cases turn with
  | still same =>
    rw [same.contains,there] at gone
    cases gone
  | confirm same =>
    rw [same.contains] at gone
    exact absurd (there.symm.trans gone) (by decide)
  | enqueue =>
    rw [Ledger.containsEnqueued _ _ (.inl there)] at gone
    cases gone
  | @remove job _ queued same =>
    rw [same.contains] at gone
    by_cases other : id = job.recordingId
    · rw [other]
      exact ledger.removals job queued
    · rw [Ledger.containsDequeued _ there other] at gone
      cases gone

theorem diskConfirmed {rt : Booth} {label : Label} {spool : Spool} (turn : DiskTurn rt label spool)
    {id : RecordingId} (mem : id ∈ spool.confirmed) :
    id ∈ rt.uploads.spool.confirmed ∨ Acknowledges rt id label := by
  cases turn with
  | still same | remove queued same =>
    rw [same.confirmed] at mem
    exact .inl mem
  | confirm same acknowledges =>
    rw [same.confirmed] at mem
    rcases List.mem_cons.mp mem with rfl | old
    · exact .inr acknowledges
    · exact .inl old
  | enqueue => exact .inl mem

theorem diskLasting {rt : Booth} {label : Label} {spool : Spool} (turn : DiskTurn rt label spool)
    {id : RecordingId} (mem : id ∈ rt.uploads.spool.durable) : id ∈ spool.durable := by
  cases turn with
  | still same | confirm same | remove queued same =>
    rw [same.durable]
    exact mem
  | enqueue => exact List.mem_cons_of_mem _ mem

theorem uploadingDurable {u : Uploads} (ledger : Ledger u) {id : RecordingId}
    (mem : id ∈ u.uploading) : id ∈ u.spool.durable := by
  rcases List.mem_append.mp mem with front | back
  · obtain ⟨task,inside,rfl⟩ := List.mem_map.mp front
    obtain ⟨there,calls⟩ := List.mem_filter.mp inside
    refine ledger.past task (taskKnown there) ?_
    cases stage : task.stage with
    | uploading call => rfl
    | _ =>
      rw [stage] at calls
      cases calls
  · cases replay : u.replay with
    | uploading entry bytes call rest =>
      rw [replay] at back
      obtain rfl := List.mem_singleton.mp back
      exact ledger.visits entry (by rw [replay]; exact List.mem_cons_self)
    | _ =>
      rw [replay] at back
      cases back

theorem scanFinds {u u' : Uploads} {accepting : Bool} {reply : ReplayReply}
    (done : u.replayStep accepting reply = some u') (scanning : u.replay = .scanning)
    (read : reply.failed = false) {id : RecordingId} (there : u.spool.contains id = true)
    (readable : id ∉ reply.unreadable) : ∃ entry ∈ u'.replay.visiting, entry.recordingId = id := by
  obtain ⟨entry,listed,same⟩ := List.any_eq_true.mp there
  have own : entry.recordingId = id := by simpa using same
  unfold replayStep at done
  rw [scanning] at done
  dsimp only at done
  rw [read] at done
  cases done
  refine ⟨entry,Ledger.replayOrderMem.mpr (List.mem_filter.mpr ⟨listed,?_⟩),own⟩
  exact decide_eq_true (by rw [own]; exact readable)

theorem freshSerial {u : Uploads} (serial : u.replay = .aborted ∨ Serial u) : NotStale u := by
  intro entry calls
  rcases serial with aborted | serial
  · rw [aborted] at calls
    cases calls
  · refine serial.vetted entry ?_
    cases replay : u.replay with
    | uploading entry bytes call rest =>
      rw [replay] at calls
      exact calls
    | _ =>
      rw [replay] at calls
      cases calls

theorem stepDurable {rt rt' : Booth} {label : Label} (done : rt.step label = some rt')
    (held : UploadInvariant rt) (serial : rt'.uploads.replay = .aborted ∨ Serial rt'.uploads) :
    UploadsDurable rt label rt' := by
  have turn := uploadsTurnCases done held.numbered
  have disk := diskTurnCases turn
  have after := stepUploads done held
  refine ⟨?_,?_,?_,?_,?_,?_,?_,?_,freshSerial serial⟩
  · exact fun id mem => uploadingDurable after.ledger mem
  · exact fun id there gone => diskRemoved held.ledger disk there gone
  · exact fun id mem => diskConfirmed disk mem
  · rintro job rfl
    obtain ⟨uploads,ran,rfl⟩ := Option.map_eq_some_iff.mp done
    obtain ⟨_,_,_,_,_,_,_,⟨_,spool,_⟩ | ⟨failed,_⟩⟩ := enqueuedCases ran
    · show _ ∈ uploads.spool.durable
      rw [spool]
      exact List.mem_cons_self
    · cases failed
  · exact fun id mem => diskLasting disk mem
  · exact fun id mem => (after.ledger.kept id mem).symm
  · rintro reply rfl scanning read id there readable
    obtain ⟨uploads,ran,rfl⟩ := Option.map_eq_some_iff.mp done
    exact scanFinds ran scanning read there readable
  · exact after.ledger.claims.apart.sublist (uploadingHeld _)

theorem bootUpload (minRecordingMs : Nat) (recordingsDir : String) (accepting onHook : Bool)
    (entries : List SpoolEntry) :
    UploadInvariant (boot minRecordingMs recordingsDir accepting onHook (.opened entries)) := by
  refine ⟨bootNumbered _ _ _ _ _,?_,?_⟩
  · rw [bootUploads]
    exact .opened entries
  · rw [bootPhase]
    intro late
    cases late

/- In a run that aborts no upload between its confirmation and the removal of its entry, the
replay worker left running, the upload protocol is kept by every step. -/
theorem uploadsKeepDurable (minRecordingMs : Nat) (recordingsDir : String) (accepting onHook : Bool)
    (entries : List SpoolEntry) (labels : List Label)
    (finish : Transition.Along Booth.step RemovalsFinish
      (boot minRecordingMs recordingsDir accepting onHook (.opened entries)) labels) :
    Transition.Along Booth.step UploadsDurable
      (boot minRecordingMs recordingsDir accepting onHook (.opened entries)) labels := by
  refine Transition.along Booth.step
    (fun rt => UploadInvariant rt ∧ (rt.uploads.replay = .aborted ∨ Serial rt.uploads)) ?_
    ⟨bootUpload _ _ _ _ _,?_⟩ finish
  · intro rt label rt' done ⟨held,serial⟩ finishes
    have kept := turnSerial held (uploadsTurnCases done held.numbered) finishes serial
    exact ⟨⟨stepUploads done held,kept⟩,stepDurable done held kept⟩
  · rw [bootUploads]
    exact .inr (.idle _)

def offerOne : List Label :=
  answerOne ++ carryOut 3 0 ++
    [.take { file := { path := .ok "r1.flac", bytes := 4096, durationMs := some 5000 } },
      .enqueued ⟨26,⟨"r1",some "q1","r1.flac",some 4096,some 5000⟩⟩ none,.spawn,.upload 26 none,
      .upload 26 none]

def uploadOne : List Label :=
  offerOne ++ [.replay {},.replay {}] ++ List.replicate 4 (.upload 26 none)

set_option maxRecDepth 4000 in
theorem uploadOneDurable : Transition.Along Booth.step UploadsDurable
    (boot 1000 "recordings" true true (.opened []))
    (uploadOne ++ [.dequeued ⟨some 26,"r1"⟩ true,.replay {},.replay {}]) :=
  uploadsKeepDurable 1000 "recordings" true true [] _ (by decide)

set_option maxRecDepth 4000 in
/- The shutdown aborts the upload, and with it the claim, before its dequeue job has run; the
replay worker still finds the entry, and uploads it once the job has removed it. -/
theorem removalOvertaken : ¬ ∀ labels, Transition.Along Booth.step UploadsDurable
    (boot 1000 "recordings" true true (.opened [])) labels := by
  intro durable
  have run := durable (uploadOne ++ [.shutdown,.cancel 26] ++ List.replicate 3 (.replay {}) ++
    [.dequeued ⟨some 26,"r1"⟩ true])
  have fresh : Transition.Along Booth.step (fun _ _ after => NotStale after.uploads) _ _ :=
    Transition.along Booth.step (fun _ => True) (fun _ _ _ _ _ kept => ⟨trivial,kept.fresh⟩) trivial run
  revert fresh
  decide

end TelephoneBooth
