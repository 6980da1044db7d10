import TelephoneBooth.Spool
import Mathlib.Data.List.Sort

/-! Everything that uploads: the foreground tasks of `effect_task`, the blocking jobs they
leave behind when they are aborted, and the replay worker with its stale scans. -/
namespace TelephoneBooth

/- A foreground task, from its claim on. `persisting` waits for the enqueue job's answer,
`dequeuing` for the dequeue job's. -/
inductive UploadStage where
  | persisting
  | persisted (error : Option String)
  | admitted
  | uploading (call : UploadCall)
  | dequeuing
  | done
  deriving DecidableEq

structure UploadTask where
  number : Nat
  entry : SpoolEntry
  bytes : Nat
  stage : UploadStage
  deriving DecidableEq

inductive Replay where
  | resting
  | scanning
  | sweeping (rest : List SpoolEntry)
  | inspecting (entry : SpoolEntry) (rest : List SpoolEntry)
  | pending (entry : SpoolEntry) (rest : List SpoolEntry)
  | uploading (entry : SpoolEntry) (bytes : Nat) (call : UploadCall) (rest : List SpoolEntry)
  | dequeuing (entry : SpoolEntry) (rest : List SpoolEntry)
  | aborted
  deriving DecidableEq

def Replay.claimed : Replay → Option RecordingId
  | .inspecting entry _ | .pending entry _ | .uploading entry _ _ _ | .dequeuing entry _ =>
    some entry.recordingId
  | _ => none

structure EnqueueJob where
  number : Nat
  entry : SpoolEntry
  deriving DecidableEq

/- `owner` is the foreground task that waits for the job, or none for the replay worker. -/
structure DequeueJob where
  owner : Option Nat
  recordingId : RecordingId
  deriving DecidableEq

/- `admitting` is the upload `effect_task` has claimed and not yet spawned a task for.
`refused` is a ghost: recordings without a path, too short, or whose enqueue failed. -/
structure Uploads where
  spool : Spool
  admitting : Option UploadTask
  tasks : List UploadTask
  enqueues : List EnqueueJob
  dequeues : List DequeueJob
  replay : Replay
  lastAttempt : Option RecordingId
  refused : List RecordingId
  deriving DecidableEq

structure FileReply where
  path : Except String String := .ok ""
  bytes : Nat := 0
  durationMs : Option Nat := none

structure ReplayReply where
  failed : Bool := false
  unreadable : List RecordingId := []
  fileSize : Option Nat := none
  error : Option OperatorError := none
  deriving DecidableEq

def outcomeNotice (id : RecordingId) (outcome : UploadOutcome) : Notice :=
  { event := .uploadFinished id outcome }

namespace Uploads

def idle (spool : Spool) : Uploads := ⟨spool,none,[],[],[],.resting,none,[]⟩

def find (u : Uploads) (number : Nat) : Option UploadTask :=
  u.tasks.find? fun task => task.number == number

def move (u : Uploads) (task : UploadTask) (stage : UploadStage) : Uploads :=
  { u with tasks := { task with stage } :: u.tasks.erase task }

def finish (u : Uploads) (task : UploadTask) : Uploads :=
  { u.move task .done with spool := u.spool.release task.entry.recordingId }

def refuse (u : Uploads) (id : RecordingId) : Uploads := { u with refused := id :: u.refused }

def accept (u : Uploads) (minRecordingMs number : Nat) (id : RecordingId) (question : QuestionId)
    (file : FileReply) : Uploads × List Notice :=
  match file.path with
  | .error reason => (u.refuse id,[outcomeNotice id (.failed reason)])
  | .ok path =>
    if (file.durationMs.map (fun ms => decide (ms < minRecordingMs))).getD false then
      (u.refuse id,[outcomeNotice id .complete])
    else
      match u.spool.claim id with
      | none => (u,[outcomeNotice id .deferred])
      | some spool =>
        let entry : SpoolEntry := ⟨id,some question,path,some file.bytes,file.durationMs⟩
        ({ u with
            spool
            admitting := some ⟨number,entry,file.bytes,.persisting⟩
            enqueues := u.enqueues ++ [⟨number,entry⟩] },[])

/- After the spawn, `effect_task` looks at the shutdown flag once more. -/
def spawn (u : Uploads) (shuttingDown : Bool) : Option Uploads :=
  u.admitting.map fun task =>
    if shuttingDown then
      { u with admitting := none, spool := u.spool.release task.entry.recordingId }
    else { u with admitting := none, tasks := u.tasks ++ [task] }

def UploadTask.deliver (task : UploadTask) (number : Nat) (error : Option String) : UploadTask :=
  if task.number = number ∧ task.stage = .persisting then { task with stage := .persisted error }
  else task

/- The enqueue job runs, and its result reaches the task if there still is one. -/
def enqueued (u : Uploads) (job : EnqueueJob) (error : Option String) : Option Uploads :=
  if job ∈ u.enqueues then
    let left := { u with
      admitting := u.admitting.map fun task => UploadTask.deliver task job.number error
      tasks := u.tasks.map fun task => UploadTask.deliver task job.number error
      enqueues := u.enqueues.erase job }
    some (match error with
      | none => { left with spool := left.spool.enqueue job.entry }
      | some _ => left.refuse job.entry.recordingId)
  else none

def acknowledge (u : Uploads) (id : RecordingId) : Uploads :=
  { u with spool := u.spool.acknowledge id }

def step (u : Uploads) (number : Nat) (shuttingDown accepting : Bool)
    (reply : Option OperatorError) : Option (Uploads × List Notice) :=
  (u.find number).bind fun task =>
    let id := task.entry.recordingId
    match task.stage with
    | .persisting | .dequeuing | .done => none
    | .persisted (some error) => some (u.finish task,
        [outcomeNotice id (.failed s!"cannot persist pending upload: {error}")])
    | .persisted none =>
      if shuttingDown then some (u.finish task,[]) else some (u.move task .admitted,[])
    | .admitted =>
      if accepting then some (u.move task (.uploading .validate),[])
      else some (u.finish task,[outcomeNotice id .deferred])
    | .uploading call =>
      match uploadCall task.bytes task.entry.durationMs reply call with
      | .call next => some (u.move task (.uploading next),[])
      | .finished .complete =>
        let u := u.acknowledge id
        some ({ u.move task .dequeuing with dequeues := u.dequeues ++ [⟨some number,id⟩] },
          [outcomeNotice id .complete])
      | .finished outcome => some (u.finish task,[outcomeNotice id outcome])

/- Aborting a foreground task drops its claim; jobs it has spawned keep running. -/
def cancel (u : Uploads) (number : Nat) : Option Uploads :=
  (u.find number).bind fun task =>
    if task.stage = .done then none else some (u.finish task)

def join (u : Uploads) (number : Nat) : Option Uploads :=
  (u.find number).bind fun task =>
    if task.stage = .done then some { u with tasks := u.tasks.erase task } else none

/- The dequeue job runs. Its owner, if still waiting for it, drops its claim and goes on. -/
def dequeued (u : Uploads) (job : DequeueJob) (removed : Bool) : Option Uploads :=
  if job ∈ u.dequeues then
    let left := { u with
      dequeues := u.dequeues.erase job
      spool := if removed then u.spool.dequeue job.recordingId else u.spool }
    some (match job.owner, left.replay with
      | some number, _ => match left.find number with
        | some task => if task.stage = .dequeuing then left.finish task else left
        | none => left
      | none, .dequeuing entry rest =>
        { left with replay := .sweeping rest, spool := left.spool.release entry.recordingId }
      | none, _ => left)
  else none

def replayOrder (last : Option RecordingId) (entries : List SpoolEntry) : List SpoolEntry :=
  let entries := entries.insertionSort fun a b => a.recordingId ≤ b.recordingId
  match last with
  | none => entries
  | some last =>
    entries.rotate ((entries.findIdx? fun entry => decide (last < entry.recordingId)).getD 0)

def pass (u : Uploads) (entry : SpoolEntry) (replay : Replay) : Uploads :=
  { u with replay, spool := u.spool.release entry.recordingId }

def replayStep (u : Uploads) (accepting : Bool) (reply : ReplayReply) : Option Uploads :=
  match u.replay with
  | .resting => if accepting then some { u with replay := .scanning } else none
  | .scanning =>
    if reply.failed then some { u with replay := .resting }
    else
      let found := u.spool.entries.filter fun entry => entry.recordingId ∉ reply.unreadable
      some { u with replay := .sweeping (replayOrder u.lastAttempt found) }
  | .sweeping [] => some { u with replay := .resting }
  | .sweeping (entry :: rest) =>
    if accepting then
      match u.spool.claim entry.recordingId with
      | none => some { u with replay := .sweeping rest }
      | some spool => some { u with replay := .inspecting entry rest, spool }
    else some { u with replay := .resting }
  | .inspecting entry rest =>
    if reply.failed || !u.spool.contains entry.recordingId then some (u.pass entry (.sweeping rest))
    else some { u with replay := .pending entry rest }
  | .pending entry rest =>
    let u := { u with lastAttempt := some entry.recordingId }
    match entry.sizeBytes.or reply.fileSize with
    | some bytes => some { u with replay := .uploading entry bytes .validate rest }
    | none => some (u.pass entry (.sweeping rest))
  | .uploading entry bytes call rest =>
    match uploadCall bytes entry.durationMs reply.error call with
    | .call next => some { u with replay := .uploading entry bytes next rest }
    | .finished .complete =>
      let u := u.acknowledge entry.recordingId
      some { u with
        replay := .dequeuing entry rest
        dequeues := u.dequeues ++ [⟨none,entry.recordingId⟩] }
    | .finished _ => some (u.pass entry .resting)
  | .dequeuing _ _ | .aborted => none

def abortReplay (u : Uploads) : Uploads :=
  { u with
    replay := .aborted
    spool := (u.replay.claimed.map u.spool.release).getD u.spool }

def abortTasks (u : Uploads) : Uploads :=
  { u with
    tasks := []
    spool := u.spool.abandon }

end Uploads
end TelephoneBooth
