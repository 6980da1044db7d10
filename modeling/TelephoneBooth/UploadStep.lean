import TelephoneBooth.Uploads

/-! What the operations of the uploads can do, said once: a foreground task advances, leaves
with an outcome, or has its recording confirmed; the replay worker likewise. -/
namespace TelephoneBooth

def UploadStage.unreported : UploadStage → Bool
  | .persisting | .persisted _ | .admitted | .uploading _ => true
  | .dequeuing | .done => false

def UploadStage.past : UploadStage → Bool
  | .persisted none | .admitted | .uploading _ | .dequeuing => true
  | _ => false

def Replay.visiting : Replay → List SpoolEntry
  | .sweeping rest => rest
  | .inspecting entry rest | .pending entry rest | .uploading entry _ _ rest
  | .dequeuing entry rest => entry :: rest
  | _ => []

def Replay.vetted : Replay → Option SpoolEntry
  | .pending entry _ | .uploading entry _ _ _ => some entry
  | _ => none

def Replay.isDequeuing : Replay → Bool
  | .dequeuing _ _ => true
  | _ => false

namespace Uploads

theorem findUpload {u : Uploads} {number : Nat} {task : UploadTask}
    (found : u.find number = some task) : task ∈ u.tasks ∧ task.number = number := by
  refine ⟨List.mem_of_find?_eq_some found,?_⟩
  simpa using List.find?_some found

inductive AcceptStep (u : Uploads) (number : Nat) (id : RecordingId) : Uploads → List Notice → Prop where
  | refuse (outcome) : AcceptStep u number id (u.refuse id) [outcomeNotice id outcome]
  | busy (taken : id ∈ u.spool.inFlight) : AcceptStep u number id u [outcomeNotice id .deferred]
  | claim (task : UploadTask) (free : id ∉ u.spool.inFlight) (own : task.number = number)
      (same : task.entry.recordingId = id) (stage : task.stage = .persisting) :
      AcceptStep u number id { u with
        spool := { u.spool with inFlight := id :: u.spool.inFlight }
        admitting := some task
        enqueues := u.enqueues ++ [⟨number,task.entry⟩] } []

theorem acceptCases (u : Uploads) (minimum number : Nat) (id : RecordingId) (question : QuestionId)
    (file : FileReply) : AcceptStep u number id (u.accept minimum number id question file).1
      (u.accept minimum number id question file).2 := by
  unfold accept
  split
  · exact .refuse _
  split
  · exact .refuse _
  split
  · rename_i claimed
    unfold Spool.claim at claimed
    split at claimed
    · exact .busy (by assumption)
    · cases claimed
  · rename_i path _ _ _ spool claimed
    unfold Spool.claim at claimed
    split at claimed
    · cases claimed
    · cases claimed
      exact .claim ⟨number,⟨id,some question,path,some file.bytes,file.durationMs⟩,file.bytes,
        .persisting⟩ (by assumption) rfl rfl rfl

inductive UploadStep (u : Uploads) (number : Nat) (shuttingDown accepting : Bool)
    (reply : Option OperatorError) : Uploads → List Notice → Prop where
  | advance (task stage) (mem : task ∈ u.tasks) (own : task.number = number)
      (durable : task.stage.past = true) (open_ : task.stage.unreported = true)
      (past : UploadStage.past stage = true) (goes : UploadStage.unreported stage = true) :
      UploadStep u number shuttingDown accepting reply (u.move task stage) []
  | leave (task notices) (mem : task ∈ u.tasks) (own : task.number = number)
      (open_ : task.stage.unreported = true)
      (told : shuttingDown = true ∧ notices = [] ∨
        ∃ outcome, notices = [outcomeNotice task.entry.recordingId outcome]) :
      UploadStep u number shuttingDown accepting reply (u.finish task) notices
  | confirm (task call) (mem : task ∈ u.tasks) (own : task.number = number)
      (stage : task.stage = .uploading call)
      (confirmed : uploadCall task.bytes task.entry.durationMs reply call = .finished .complete) :
      UploadStep u number shuttingDown accepting reply
        { (u.acknowledge task.entry.recordingId).move task .dequeuing with
          dequeues := u.dequeues ++ [⟨some number,task.entry.recordingId⟩] }
        [outcomeNotice task.entry.recordingId .complete]

theorem uploadStepCases {u u' : Uploads} {number : Nat} {shuttingDown accepting : Bool}
    {reply : Option OperatorError} {notices : List Notice}
    (done : u.step number shuttingDown accepting reply = some (u',notices)) :
    UploadStep u number shuttingDown accepting reply u' notices := by
  obtain ⟨task,found,done⟩ := Option.bind_eq_some_iff.mp done
  obtain ⟨mem,own⟩ := findUpload found
  dsimp only at done
  split at done
  case h_1 | h_2 | h_3 => cases done
  case h_4 stage =>
    cases done
    exact .leave task _ mem own (by rw [stage]; rfl) (.inr ⟨_,rfl⟩)
  case h_5 stage =>
    split at done
    · cases done
      exact .leave task _ mem own (by rw [stage]; rfl) (.inl ⟨by assumption,rfl⟩)
    · cases done
      exact .advance task _ mem own (by rw [stage]; rfl) (by rw [stage]; rfl) rfl rfl
  case h_6 stage =>
    split at done
    · cases done
      exact .advance task _ mem own (by rw [stage]; rfl) (by rw [stage]; rfl) rfl rfl
    · cases done
      exact .leave task _ mem own (by rw [stage]; rfl) (.inr ⟨_,rfl⟩)
  case h_7 call stage =>
    split at done
    · cases done
      exact .advance task _ mem own (by rw [stage]; rfl) (by rw [stage]; rfl) rfl rfl
    · cases done
      exact .confirm task call mem own stage (by assumption)
    · cases done
      exact .leave task _ mem own (by rw [stage]; rfl) (.inr ⟨_,rfl⟩)

theorem spawnCases {u u' : Uploads} {shuttingDown : Bool} (done : u.spawn shuttingDown = some u') :
    ∃ task, u.admitting = some task ∧
      (shuttingDown = true ∧ u' = { u with
        admitting := none, spool := u.spool.release task.entry.recordingId } ∨
      shuttingDown = false ∧ u' = { u with admitting := none, tasks := u.tasks ++ [task] }) := by
  obtain ⟨task,admitting,rfl⟩ := Option.map_eq_some_iff.mp done
  refine ⟨task,admitting,?_⟩
  cases shuttingDown with
  | true => exact .inl ⟨rfl,rfl⟩
  | false => exact .inr ⟨rfl,rfl⟩

theorem cancelCases {u u' : Uploads} {number : Nat} (done : u.cancel number = some u') :
    ∃ task ∈ u.tasks, task.number = number ∧ task.stage ≠ .done ∧ u' = u.finish task := by
  obtain ⟨task,found,done⟩ := Option.bind_eq_some_iff.mp done
  obtain ⟨mem,own⟩ := findUpload found
  split at done
  · cases done
  · cases done
    exact ⟨task,mem,own,by assumption,rfl⟩

theorem joinCases {u u' : Uploads} {number : Nat} (done : u.join number = some u') :
    ∃ task ∈ u.tasks, task.stage = .done ∧ u' = { u with tasks := u.tasks.erase task } := by
  obtain ⟨task,found,done⟩ := Option.bind_eq_some_iff.mp done
  split at done
  · cases done
    exact ⟨task,(findUpload found).1,by assumption,rfl⟩
  · cases done

theorem deliverEntry (task : UploadTask) (number : Nat) (error : Option String) :
    (UploadTask.deliver task number error).entry = task.entry := by
  unfold UploadTask.deliver
  split <;> rfl

theorem deliverNumber (task : UploadTask) (number : Nat) (error : Option String) :
    (UploadTask.deliver task number error).number = task.number := by
  unfold UploadTask.deliver
  split <;> rfl

theorem deliverUnreported (task : UploadTask) (number : Nat) (error : Option String) :
    (UploadTask.deliver task number error).stage.unreported = task.stage.unreported := by
  unfold UploadTask.deliver
  split
  · rename_i waiting
    rw [waiting.2]
    rfl
  · rfl

theorem enqueuedCases {u u' : Uploads} {job : EnqueueJob} {error : Option String}
    (done : u.enqueued job error = some u') :
    job ∈ u.enqueues ∧
    u'.admitting = u.admitting.map (fun task => UploadTask.deliver task job.number error) ∧
    u'.tasks = u.tasks.map (fun task => UploadTask.deliver task job.number error) ∧
    u'.enqueues = u.enqueues.erase job ∧ u'.dequeues = u.dequeues ∧ u'.replay = u.replay ∧
    u'.lastAttempt = u.lastAttempt ∧
    (error = none ∧ u'.spool = u.spool.enqueue job.entry ∧ u'.refused = u.refused ∨
      error.isSome = true ∧ u'.spool = u.spool ∧ u'.refused = job.entry.recordingId :: u.refused) := by
  unfold enqueued at done
  split at done
  · cases error with
    | none =>
      cases done
      exact ⟨by assumption,rfl,rfl,rfl,rfl,rfl,rfl,.inl ⟨rfl,rfl,rfl⟩⟩
    | some error =>
      cases done
      exact ⟨by assumption,rfl,rfl,rfl,rfl,rfl,rfl,.inr ⟨rfl,rfl,rfl⟩⟩
  · cases done

def removal (u : Uploads) (job : DequeueJob) (removed : Bool) : Uploads :=
  { u with
    dequeues := u.dequeues.erase job
    spool := if removed then u.spool.dequeue job.recordingId else u.spool }

inductive DequeueStep (u : Uploads) (job : DequeueJob) (removed : Bool) : Uploads → Prop where
  | finish (task) (mem : task ∈ u.tasks) (owner : job.owner = some task.number)
      (stage : task.stage = .dequeuing) :
      DequeueStep u job removed ((u.removal job removed).finish task)
  | pass (entry rest) (owner : job.owner = none) (waits : u.replay = .dequeuing entry rest) :
      DequeueStep u job removed ((u.removal job removed).pass entry (.sweeping rest))
  | gone (foreground : ∀ number, job.owner = some number →
        ∀ task, u.find number = some task → task.stage ≠ .dequeuing)
      (replay : job.owner = none → ∀ entry rest, u.replay ≠ .dequeuing entry rest) :
      DequeueStep u job removed (u.removal job removed)

theorem dequeuedCases {u u' : Uploads} {job : DequeueJob} {removed : Bool}
    (done : u.dequeued job removed = some u') :
    job ∈ u.dequeues ∧ DequeueStep u job removed u' := by
  unfold dequeued at done
  split at done
  · refine ⟨by assumption,?_⟩
    cases done
    split
    · rename_i number owner
      split
      · rename_i task found
        obtain ⟨mem,own⟩ := findUpload found
        split
        · rename_i stage
          exact .finish task mem (by rw [own]; exact owner) stage
        · rename_i other
          refine .gone ?_ fun none_ => by rw [owner] at none_; cases none_
          intro number' same task' found'
          rw [owner] at same
          cases same
          rw [show u.find number = some task from found] at found'
          cases found'
          exact other
      · rename_i missing
        refine .gone ?_ fun none_ => by rw [owner] at none_; cases none_
        intro number' same task' found'
        rw [owner] at same
        cases same
        rw [show u.find number = none from missing] at found'
        cases found'
    · exact .pass _ _ (by assumption) (by assumption)
    · rename_i owner other
      refine .gone ?_ fun _ => other
      intro number same
      rw [owner] at same
      cases same
  · cases done

theorem dequeuedTasks {u u' : Uploads} {job : DequeueJob} {removed : Bool}
    (done : u.dequeued job removed = some u') : u'.admitting = u.admitting ∧
      (u'.tasks = u.tasks ∨ ∃ task ∈ u.tasks, task.stage = .dequeuing ∧
        u'.tasks = { task with stage := .done } :: u.tasks.erase task) := by
  cases (dequeuedCases done).2 with
  | finish task mem owner stage => exact ⟨rfl,.inr ⟨task,mem,stage,rfl⟩⟩
  | pass | gone => exact ⟨rfl,.inl rfl⟩

inductive ReplayStep (u : Uploads) (reply : ReplayReply) : Uploads → Prop where
  | go (replay : Replay) (lastAttempt) (claimed : replay.claimed = u.replay.claimed)
      (visits : ∀ entry ∈ replay.visiting, entry ∈ u.replay.visiting)
      (vets : ∀ entry ∈ replay.vetted,
        entry ∈ u.replay.vetted ∨ u.spool.contains entry.recordingId = true)
      (waits : u.replay.isDequeuing = false) (waits' : replay.isDequeuing = false) :
      ReplayStep u reply { u with replay, lastAttempt }
  | list (scanning : u.replay = .scanning) (succeeds : reply.failed = false) :
      ReplayStep u reply { u with replay := .sweeping (replayOrder u.lastAttempt
        (u.spool.entries.filter fun entry => entry.recordingId ∉ reply.unreadable)) }
  | claim (entry : SpoolEntry) (rest) (next : u.replay = .sweeping (entry :: rest))
      (free : entry.recordingId ∉ u.spool.inFlight) : ReplayStep u reply { u with
        replay := .inspecting entry rest
        spool := { u.spool with inFlight := entry.recordingId :: u.spool.inFlight } }
  | pass (entry : SpoolEntry) (replay : Replay) (lastAttempt)
      (claimed : u.replay.claimed = some entry.recordingId)
      (gone : replay.claimed = none)
      (visits : ∀ other ∈ replay.visiting, other ∈ u.replay.visiting)
      (vets : replay.vetted = none) (waits : u.replay.isDequeuing = false)
      (waits' : replay.isDequeuing = false) :
      ReplayStep u reply { u with
        replay, lastAttempt, spool := u.spool.release entry.recordingId }
  | confirm (entry bytes call rest) (calls : u.replay = .uploading entry bytes call rest)
      (confirmed : uploadCall bytes entry.durationMs reply.error call = .finished .complete) :
      ReplayStep u reply { (u.acknowledge entry.recordingId) with
        replay := .dequeuing entry rest
        dequeues := u.dequeues ++ [⟨none,entry.recordingId⟩] }

theorem replayStepCases {u u' : Uploads} {accepting : Bool} {reply : ReplayReply}
    (done : u.replayStep accepting reply = some u') : ReplayStep u reply u' := by
  unfold replayStep at done
  split at done
  case h_1 resting =>
    split at done <;> cases done
    exact .go .scanning u.lastAttempt (by rw [resting]; rfl) (by simp [Replay.visiting])
      (by simp [Replay.vetted]) (by rw [resting]; rfl) rfl
  case h_2 scanning =>
    split at done
    · cases done
      exact .go .resting u.lastAttempt (by rw [scanning]; rfl) (by simp [Replay.visiting])
        (by simp [Replay.vetted]) (by rw [scanning]; rfl) rfl
    · rename_i read
      cases done
      exact .list scanning (by simpa using read)
  case h_3 empty =>
    cases done
    exact .go .resting u.lastAttempt (by rw [empty]; rfl) (by simp [Replay.visiting])
      (by simp [Replay.vetted]) (by rw [empty]; rfl) rfl
  case h_4 entry rest next =>
    split at done
    · split at done
      · cases done
        refine .go (.sweeping rest) u.lastAttempt (by rw [next]; rfl) ?_ (by simp [Replay.vetted])
          (by rw [next]; rfl) rfl
        rw [next]
        exact fun other mem => List.mem_cons_of_mem _ mem
      · rename_i spool claimed
        cases done
        unfold Spool.claim at claimed
        split at claimed <;> cases claimed
        exact .claim entry rest next (by assumption)
    · cases done
      exact .go .resting u.lastAttempt (by rw [next]; rfl) (by simp [Replay.visiting])
        (by simp [Replay.vetted]) (by rw [next]; rfl) rfl
  case h_5 entry rest inspecting =>
    split at done
    · cases done
      refine .pass entry (.sweeping rest) u.lastAttempt (by rw [inspecting]; rfl) rfl ?_ rfl
        (by rw [inspecting]; rfl) rfl
      rw [inspecting]
      exact fun other mem => List.mem_cons_of_mem _ mem
    · rename_i there
      cases done
      refine .go (.pending entry rest) u.lastAttempt (by rw [inspecting]; rfl) ?_ ?_
        (by rw [inspecting]; rfl) rfl
      · rw [inspecting]
        exact fun other mem => mem
      · rintro other ⟨⟩
        simp only [Bool.or_eq_true,Bool.not_eq_true',not_or,Bool.not_eq_false] at there
        exact .inr there.2
  case h_6 entry rest pending =>
    split at done
    · cases done
      refine .go (.uploading entry _ .validate rest) (some entry.recordingId) (by rw [pending]; rfl)
        ?_ ?_ (by rw [pending]; rfl) rfl
      · rw [pending]
        exact fun other mem => mem
      · rw [pending]
        exact fun other mem => .inl mem
    · cases done
      refine .pass entry (.sweeping rest) (some entry.recordingId) (by rw [pending]; rfl) rfl ?_ rfl
        (by rw [pending]; rfl) rfl
      rw [pending]
      exact fun other mem => List.mem_cons_of_mem _ mem
  case h_7 entry bytes call rest uploading =>
    split at done
    · cases done
      refine .go (.uploading entry bytes _ rest) u.lastAttempt (by rw [uploading]; rfl) ?_ ?_
        (by rw [uploading]; rfl) rfl
      · rw [uploading]
        exact fun other mem => mem
      · rw [uploading]
        exact fun other mem => .inl mem
    · cases done
      exact .confirm entry bytes call rest uploading (by assumption)
    · cases done
      refine .pass entry .resting u.lastAttempt (by rw [uploading]; rfl) rfl ?_ rfl
        (by rw [uploading]; rfl) rfl
      simp [Replay.visiting]
  case h_8 | h_9 => cases done

theorem replayTasks {u u' : Uploads} {accepting : Bool} {reply : ReplayReply}
    (done : u.replayStep accepting reply = some u') :
    u'.admitting = u.admitting ∧ u'.tasks = u.tasks := by
  cases replayStepCases done <;> exact ⟨rfl,rfl⟩

end Uploads
end TelephoneBooth
