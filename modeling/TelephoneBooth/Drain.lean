import TelephoneBooth.Durability

/-! The shutdown drain. An upload the core has ordered is in the effect queue, put aside for a
free slot, or accounted for: on disk, refused, or with a job that still has to write its entry.
When `run_runtime` returns only the first two of the last three are left. -/
namespace TelephoneBooth
open Booth Uploads

def Unfit (minRecordingMs : Nat) (file : FileReply) : Prop :=
  (∃ reason, file.path = .error reason) ∨ ∃ ms, file.durationMs = some ms ∧ ms < minRecordingMs

def Refuses (rt : Booth) (id : RecordingId) : Label → Prop
  | .take reply => Unfit rt.minRecordingMs reply.file ∧ ∃ number announced effects question,
      rt.effects.receive = some ((number,⟨.uploadRecording id question,announced⟩),effects)
  | .resume reply => Unfit rt.minRecordingMs reply.file ∧ ∃ next : OperatorEffect, ∃ rest question,
      rt.pendingOperatorEffects = next :: rest ∧ next.emitted.effect = .uploadRecording id question
  | .enqueued job error => job.entry.recordingId = id ∧ error.isSome = true
  | _ => False

def Ordered (rt : Booth) (n : Nat) (id : RecordingId) : Prop :=
  ∃ question announced, rt.effects.log[n]? = some ⟨.uploadRecording id question,announced⟩

structure AnswersKept (rt : Booth) (label : Label) (after : Booth) : Prop where
  drained : label = .shutdown → after.phase = .returned → ∀ n id, Ordered after n id →
    after.uploads.spool.contains id = true ∨ id ∈ after.uploads.spool.confirmed ∨
      id ∈ after.uploads.refused
  refused : ∀ id ∈ after.uploads.refused, id ∈ rt.uploads.refused ∨ Refuses rt id label

def Accounted (u : Uploads) (id : RecordingId) : Prop :=
  id ∈ u.spool.durable ∨ id ∈ u.refused ∨ ∃ job ∈ u.enqueues, job.entry.recordingId = id

theorem acceptRefused {u : Uploads} {minimum number : Nat} {id : RecordingId} {question : QuestionId}
    {file : FileReply} {other : RecordingId}
    (mem : other ∈ (u.accept minimum number id question file).1.refused) :
    other ∈ u.refused ∨ other = id ∧ Unfit minimum file := by
  have refuse (unfit : Unfit minimum file) (mem : other ∈ (u.refuse id).refused) :
      other ∈ u.refused ∨ other = id ∧ Unfit minimum file := by
    rcases List.mem_cons.mp mem with rfl | old
    · exact .inr ⟨rfl,unfit⟩
    · exact .inl old
  unfold accept at mem
  split at mem
  · rename_i reason path
    exact refuse (.inl ⟨reason,path⟩) mem
  split at mem
  · rename_i short
    refine refuse (.inr ?_) mem
    cases duration : file.durationMs with
    | none =>
      rw [duration] at short
      cases short
    | some ms =>
      rw [duration] at short
      exact ⟨ms,rfl,of_decide_eq_true short⟩
  split at mem <;> exact .inl mem

theorem acceptAccounted {u : Uploads} {minimum number : Nat} {id : RecordingId}
    {question : QuestionId} {file : FileReply}
    (claimed : ∀ other ∈ u.spool.inFlight, Accounted u other) :
    Accounted (u.accept minimum number id question file).1 id := by
  have accepts := acceptCases u minimum number id question file
  generalize (u.accept minimum number id question file).1 = after at accepts
  generalize (u.accept minimum number id question file).2 = notices at accepts
  cases accepts with
  | refuse => exact .inr (.inl List.mem_cons_self)
  | busy taken => exact claimed id taken
  | claim task free own same =>
    exact .inr (.inr ⟨_,List.mem_append_right _ List.mem_cons_self,same⟩)

theorem turnAccounted {rt : Booth} {label : Label} {uploads : Uploads}
    (turn : UploadsTurn rt label uploads) (same : ∀ accepting onHook, label ≠ .restart accepting onHook)
    {id : RecordingId} (held : Accounted rt.uploads id) : Accounted uploads id := by
  rcases held with durable | open_
  · exact .inl (diskLasting (diskTurnCases turn) durable)
  cases turn with
  | still | abortReplay | abortTasks => exact .inr open_
  | accept ready jobs known accepts =>
    cases accepts with
    | refuse => exact .inr (open_.imp_left (List.mem_cons_of_mem _))
    | busy => exact .inr open_
    | claim =>
      exact .inr (open_.imp_right fun ⟨job,queued,own⟩ => ⟨job,List.mem_append_left _ queued,own⟩)
  | spawn done => obtain ⟨task,_,⟨_,rfl⟩ | ⟨_,rfl⟩⟩ := spawnCases done <;> exact .inr open_
  | step moved => cases moved <;> exact .inr open_
  | cancel done =>
    obtain ⟨task,_,_,_,rfl⟩ := Uploads.cancelCases done
    exact .inr open_
  | join done =>
    obtain ⟨task,_,_,rfl⟩ := Uploads.joinCases done
    exact .inr open_
  | @enqueued job _ _ done =>
    obtain ⟨_,_,_,enqueues,_,_,_,ran⟩ := enqueuedCases done
    rcases open_ with refused | ⟨other,queued,own⟩
    · refine .inr (.inl ?_)
      rcases ran with ⟨_,_,same⟩ | ⟨_,_,same⟩ <;> rw [same]
      · exact refused
      · exact List.mem_cons_of_mem _ refused
    · by_cases ended : other = job
      · subst ended
        rcases ran with ⟨_,spool,_⟩ | ⟨_,_,refused⟩
        · rw [← own,Accounted,spool]
          exact .inl List.mem_cons_self
        · rw [← own,Accounted,refused]
          exact .inr (.inl List.mem_cons_self)
      · refine .inr (.inr ⟨other,?_,own⟩)
        rw [enqueues]
        exact (List.mem_erase_of_ne ended).mpr queued
  | dequeued done => cases (dequeuedCases done).2 <;> exact .inr open_
  | replay done => cases replayStepCases done <;> exact .inr open_
  | restart => exact absurd rfl (same _ _)

theorem releasedClaim {s : Spool} {id other : RecordingId} (mem : other ∈ (s.release id).inFlight) :
    other ∈ s.inFlight := List.mem_of_mem_filter mem

theorem turnClaims {rt : Booth} {label : Label} {uploads : Uploads} (ledger : Ledger rt.uploads)
    (turn : UploadsTurn rt label uploads) {id : RecordingId} (mem : id ∈ uploads.spool.inFlight) :
    id ∈ rt.uploads.spool.inFlight ∨ Accounted uploads id := by
  cases turn with
  | still => exact .inl mem
  | accept ready jobs known accepts =>
    cases accepts with
    | refuse | busy => exact .inl mem
    | claim task free own same =>
      rcases List.mem_cons.mp mem with rfl | old
      · exact .inr (.inr (.inr ⟨_,List.mem_append_right _ List.mem_cons_self,same⟩))
      · exact .inl old
  | spawn done =>
    obtain ⟨task,_,⟨_,rfl⟩ | ⟨_,rfl⟩⟩ := spawnCases done
    · exact .inl (releasedClaim mem)
    · exact .inl mem
  | step moved =>
    cases moved with
    | advance | confirm => exact .inl mem
    | leave => exact .inl (releasedClaim mem)
  | cancel done =>
    obtain ⟨task,_,_,_,rfl⟩ := Uploads.cancelCases done
    exact .inl (releasedClaim mem)
  | join done =>
    obtain ⟨task,_,_,rfl⟩ := Uploads.joinCases done
    exact .inl mem
  | enqueued done =>
    obtain ⟨_,_,_,_,_,_,_,⟨_,spool,_⟩ | ⟨_,spool,_⟩⟩ := enqueuedCases done <;>
    · rw [spool] at mem
      exact .inl mem
  | @dequeued job removed _ done =>
    have same : (rt.uploads.removal job removed).spool.inFlight = rt.uploads.spool.inFlight := by
      cases removed <;> rfl
    cases (dequeuedCases done).2 with
    | finish | pass =>
      rw [← same]
      exact .inl (releasedClaim mem)
    | gone =>
      rw [← same]
      exact .inl mem
  | replay done =>
    cases replayStepCases done with
    | go | list | confirm => exact .inl mem
    | claim entry rest next =>
      rcases List.mem_cons.mp mem with rfl | old
      · exact .inr (.inl (ledger.visits entry (by rw [next]; exact List.mem_cons_self)))
      · exact .inl old
    | pass => exact .inl (releasedClaim mem)
  | abortReplay =>
    unfold Uploads.abortReplay at mem
    dsimp only at mem
    cases claimed : rt.uploads.replay.claimed with
    | none =>
      rw [claimed] at mem
      exact .inl mem
    | some held =>
      rw [claimed] at mem
      exact .inl (releasedClaim mem)
  | abortTasks | restart => cases mem

def Tracked (rt : Booth) (n : Nat) (id : RecordingId) : Prop :=
  rt.effects.taken ≤ n ∨
    (∃ put ∈ rt.pendingOperatorEffects, ∃ question, put.emitted.effect = .uploadRecording id question) ∨
    Accounted rt.uploads id

structure DrainInvariant (rt : Booth) : Prop where
  uploads : UploadInvariant rt
  claimed : ∀ id ∈ rt.uploads.spool.inFlight, Accounted rt.uploads id
  tracked : ∀ n id, Ordered rt n id → Tracked rt n id

theorem executeAccounted {rt rt' : Booth} {number : Nat} {effect : Effect} {reply : InlineReply}
    {id : RecordingId} {question : QuestionId} (done : Executes rt number reply effect rt')
    (claimed : ∀ id ∈ rt.uploads.spool.inFlight, Accounted rt.uploads id)
    (upload : effect = .uploadRecording id question) : Accounted rt'.uploads id := by
  cases done with
  | uploadRecording =>
    cases upload
    rw [sendUploads]
    exact acceptAccounted claimed
  | fetch fetches =>
    rw [upload] at fetches
    cases fetches
  | outward silent =>
    rw [upload] at silent
    cases silent
  | _ => cases upload

theorem stillQueued {rt rt' : Booth} {label : Label} (step : BoothStep rt label rt')
    (takes : takesEffect label = false) (quiet : isQuiet label = true) :
    rt'.effects = rt.effects ∧ rt'.pendingOperatorEffects = rt.pendingOperatorEffects := by
  cases step with
  | handle | reconcile | restart => cases quiet
  | execute | resume | defer | skip | forget => cases takes
  | shutdown advanced => cases shutdownCases advanced <;> exact ⟨rfl,rfl⟩
  | sense | fetch | pulseTimeout | recordingTimeout | speaker | upload =>
    exact ⟨sendEffects _ _,sendPendingOperatorEffects _ _⟩
  | _ => exact ⟨rfl,rfl⟩

theorem handleTracked {rt : Booth} {event : Event} {origin : Option Nat}
    (tracked : ∀ n id, Ordered rt n id → Tracked rt n id) :
    ∀ n id, Ordered (rt.handleEvent event origin) n id → Tracked (rt.handleEvent event origin) n id := by
  rintro n id ⟨question,announced,found⟩
  by_cases late : rt.effects.taken ≤ n
  · exact .inl late
  · have old : n < rt.effects.log.length := by
      have fits := rt.effects.bounded
      omega
    rw [handleEffects] at found
    unfold Channel.send at found
    rw [List.getElem?_append_left old] at found
    exact tracked n id ⟨question,announced,found⟩

theorem receivedTracked {rt rt' : Booth} {number : Nat} {emitted : Emitted}
    {effects : Channel Emitted} (received : rt.effects.receive = some ((number,emitted),effects))
    (tracked : ∀ n id, Ordered rt n id → Tracked rt n id) (same : rt'.effects = effects)
    (pending : ∀ put ∈ rt.pendingOperatorEffects, put ∈ rt'.pendingOperatorEffects)
    (uploads : ∀ id, Accounted rt.uploads id → Accounted rt'.uploads id)
    (own : ∀ id question, emitted.effect = .uploadRecording id question → Tracked rt' number id) :
    ∀ n id, Ordered rt' n id → Tracked rt' n id := by
  rintro n id ⟨question,announced,found⟩
  obtain ⟨place,here,log,taken⟩ := Channel.receiveCases received
  rw [same,log] at found
  by_cases now : n = number
  · subst now
    rw [here] at found
    cases found
    exact own id question rfl
  · rcases tracked n id ⟨question,announced,found⟩ with waits | ⟨put,mem,held⟩ | held
    · refine .inl ?_
      rw [same,taken]
      omega
    · exact .inr (.inl ⟨put,pending put mem,held⟩)
    · exact .inr (.inr (uploads id held))

theorem resumedTracked {rt rt' : Booth} {next : OperatorEffect} {rest : List OperatorEffect}
    (waiting : rt.pendingOperatorEffects = next :: rest)
    (tracked : ∀ n id, Ordered rt n id → Tracked rt n id) (same : rt'.effects = rt.effects)
    (pending : rt'.pendingOperatorEffects = rest)
    (uploads : ∀ id, Accounted rt.uploads id → Accounted rt'.uploads id)
    (own : ∀ id question, next.emitted.effect = .uploadRecording id question →
      Accounted rt'.uploads id) : ∀ n id, Ordered rt' n id → Tracked rt' n id := by
  intro n id ordered
  unfold Ordered at ordered
  rw [same] at ordered
  rcases tracked n id ordered with waits | ⟨put,mem,question,held⟩ | held
  · exact .inl (by rw [same]; exact waits)
  · rw [waiting] at mem
    rcases List.mem_cons.mp mem with rfl | later
    · exact .inr (.inr (own id question held))
    · exact .inr (.inl ⟨put,by rw [pending]; exact later,question,held⟩)
  · exact .inr (.inr (uploads id held))

theorem bootTracked (minRecordingMs : Nat) (recordingsDir : String) (accepting onHook : Bool)
    (spool : Spool) (n : Nat) (id : RecordingId) :
    Tracked (boot minRecordingMs recordingsDir accepting onHook spool) n id := by
  have none_ : (boot minRecordingMs recordingsDir accepting onHook spool).effects.taken = 0 := by
    unfold boot
    dsimp only
    split <;> rfl
  exact .inl (by rw [none_]; exact Nat.zero_le n)

theorem bootDrain (minRecordingMs : Nat) (recordingsDir : String) (accepting onHook : Bool)
    (entries : List SpoolEntry) :
    DrainInvariant (boot minRecordingMs recordingsDir accepting onHook (.opened entries)) := by
  refine ⟨bootUpload _ _ _ _ _,?_,fun n id _ => bootTracked _ _ _ _ _ n id⟩
  rw [bootUploads]
  intro id mem
  cases mem

theorem stepDrain {rt rt' : Booth} {label : Label} (done : rt.step label = some rt')
    (held : DrainInvariant rt) : DrainInvariant rt' := by
  have turn := uploadsTurnCases done held.uploads.numbered
  have step := stepCases done
  have after := stepUploads done held.uploads
  by_cases restarts : ∃ accepting onHook, label = .restart accepting onHook
  · obtain ⟨accepting,onHook,rfl⟩ := restarts
    cases step
    refine ⟨after,?_,fun n id _ => bootTracked _ _ _ _ _ n id⟩
    rw [show (rt.restart accepting onHook).uploads = _ from bootUploads _ _ _ _ _]
    intro id mem
    cases mem
  have mono (id : RecordingId) : Accounted rt.uploads id → Accounted rt'.uploads id :=
    turnAccounted turn fun accepting onHook same => restarts ⟨accepting,onHook,same⟩
  have other {effect : Effect} (other : isUpload effect = false) (id : RecordingId)
      (question : QuestionId) (upload : effect = .uploadRecording id question) : False := by
    rw [upload] at other
    cases other
  refine ⟨after,?_,?_⟩
  · intro id mem
    rcases turnClaims held.uploads.ledger turn mem with old | new
    · exact mono id (held.claimed id old)
    · exact new
  cases step with
  | handle | reconcile => exact handleTracked held.tracked
  | skip received stopping unlike =>
    exact receivedTracked received held.tracked rfl (fun _ mem => mem) mono
      fun id question upload => (other unlike id question upload).elim
  | defer received operator =>
    refine receivedTracked received held.tracked rfl ?_ mono ?_
    · exact fun _ mem => List.mem_append_left _ mem
    · exact fun id question upload =>
        .inr (.inl ⟨_,List.mem_append_right _ List.mem_cons_self,question,upload⟩)
  | execute received live carried =>
    refine receivedTracked received held.tracked (executeEffects carried) ?_ mono ?_
    · rw [executePending carried]
      exact fun _ mem => mem
    · exact fun id question upload => .inr (.inr (executeAccounted carried held.claimed upload))
  | forget waiting stopping unlike =>
    exact resumedTracked waiting held.tracked rfl rfl mono
      fun id question upload => (other unlike id question upload).elim
  | resume waiting live carried =>
    have effects := executeEffects carried
    have pending := executePending carried
    exact resumedTracked waiting held.tracked effects pending mono
      fun id question upload => executeAccounted carried held.claimed upload
  | restart accepting onHook => exact absurd ⟨accepting,onHook,rfl⟩ restarts
  | _ =>
    obtain ⟨effects,pending⟩ := stillQueued (stepCases done) rfl rfl
    intro n id ordered
    unfold Ordered at ordered
    rw [effects] at ordered
    rcases held.tracked n id ordered with waits | put | accounted
    · exact .inl (by rw [effects]; exact waits)
    · exact .inr (.inl (by rw [pending]; exact put))
    · exact .inr (.inr (mono id accounted))

theorem executeRefused {rt rt' : Booth} {number : Nat} {effect : Effect} {reply : InlineReply}
    {id : RecordingId} (done : Executes rt number reply effect rt') (mem : id ∈ rt'.uploads.refused) :
    id ∈ rt.uploads.refused ∨
      Unfit rt.minRecordingMs reply.file ∧ ∃ question, effect = .uploadRecording id question := by
  cases done with
  | uploadRecording recordingId questionId =>
    rw [sendUploads] at mem
    rcases acceptRefused mem with old | ⟨rfl,unfit⟩
    · exact .inl old
    · exact .inr ⟨unfit,questionId,rfl⟩
  | startRecording | stopRecording =>
    rw [sendUploads] at mem
    exact .inl mem
  | _ => exact .inl mem

theorem turnRefused {rt : Booth} {label : Label} {uploads : Uploads} {id : RecordingId}
    (turn : UploadsTurn rt label uploads) (other : takesEffect label = false)
    (mem : id ∈ uploads.refused) : id ∈ rt.uploads.refused ∨ Refuses rt id label := by
  cases turn with
  | accept ready jobs known accepts takes =>
    rw [other] at takes
    cases takes
  | still | abortReplay | abortTasks => exact .inl mem
  | spawn done => obtain ⟨task,_,⟨_,rfl⟩ | ⟨_,rfl⟩⟩ := spawnCases done <;> exact .inl mem
  | step moved => cases moved <;> exact .inl mem
  | cancel done =>
    obtain ⟨task,_,_,_,rfl⟩ := Uploads.cancelCases done
    exact .inl mem
  | join done =>
    obtain ⟨task,_,_,rfl⟩ := Uploads.joinCases done
    exact .inl mem
  | enqueued done =>
    obtain ⟨_,_,_,_,_,_,_,⟨_,_,refused⟩ | ⟨failed,_,refused⟩⟩ := enqueuedCases done
    · rw [refused] at mem
      exact .inl mem
    · rw [refused] at mem
      rcases List.mem_cons.mp mem with rfl | old
      · exact .inr ⟨rfl,failed⟩
      · exact .inl old
  | dequeued done => cases (dequeuedCases done).2 <;> exact .inl mem
  | replay done => cases replayStepCases done <;> exact .inl mem
  | restart => cases mem

theorem stepRefused {rt rt' : Booth} {label : Label} (done : rt.step label = some rt')
    (numbered : Numbered rt) {id : RecordingId} (mem : id ∈ rt'.uploads.refused) :
    id ∈ rt.uploads.refused ∨ Refuses rt id label := by
  have turn := uploadsTurnCases done numbered
  have step := stepCases done
  cases step with
  | @execute _ number emitted effects _ received live carried =>
    obtain ⟨effect,announced⟩ := emitted
    rcases executeRefused carried mem with old | ⟨unfit,question,rfl⟩
    · exact .inl old
    · exact .inr ⟨unfit,number,announced,effects,question,received⟩
  | resume waiting live carried =>
    rcases executeRefused carried mem with old | ⟨unfit,question,upload⟩
    · exact .inl old
    · exact .inr ⟨unfit,_,_,question,waiting,upload⟩
  | skip | defer | forget => exact .inl mem
  | _ => exact turnRefused turn rfl mem

theorem drainedKept {rt rt' : Booth} (done : rt.step .shutdown = some rt')
    (held : DrainInvariant rt) (returned : rt'.phase = .returned) {n : Nat} {id : RecordingId}
    (ordered : Ordered rt' n id) : rt'.uploads.spool.contains id = true ∨
      id ∈ rt'.uploads.spool.confirmed ∨ id ∈ rt'.uploads.refused := by
  cases shutdownCases done with
  | leave phase drained pending admitting enqueues =>
    rcases held.tracked n id ordered with waits | ⟨put,mem,_⟩ | durable | refused | ⟨job,mem,_⟩
    · obtain ⟨question,announced,found⟩ := ordered
      obtain ⟨inside,_⟩ := List.getElem?_eq_some_iff.mp found
      have drained : rt.effects.taken = rt.effects.log.length := drained
      have inside : n < rt.effects.log.length := inside
      omega
    · rw [pending] at mem
      cases mem
    · exact (held.uploads.ledger.kept id durable).imp_right .inl
    · exact .inr (.inr refused)
    · rw [enqueues] at mem
      cases mem
  | _ => cases returned

/- Whatever the operator, the disk and the scheduler do, `run_runtime` returns with an entry for
every upload the core had ordered and the booth did not refuse. -/
theorem drainKeepsAnswers (minRecordingMs : Nat) (recordingsDir : String) (accepting onHook : Bool)
    (entries : List SpoolEntry) (labels : List Label) :
    Transition.Along Booth.step AnswersKept
      (boot minRecordingMs recordingsDir accepting onHook (.opened entries)) labels := by
  refine Transition.along Booth.step DrainInvariant ?_ (bootDrain _ _ _ _ _)
    (Transition.alongAlways Booth.step _ _)
  intro rt label rt' done held _
  refine ⟨stepDrain done held,?_,fun id mem => stepRefused done held.uploads.numbered mem⟩
  rintro rfl returned n id ordered
  exact drainedKept done held returned ordered

set_option maxRecDepth 4000 in
/- A drain that finds the upload still queued. -/
example : (Transition.final Booth.step (boot 1000 "recordings" true true (.opened []))
    (answerOne ++ List.replicate 5 .shutdown ++ carryOut 3 0 ++
      [.take { file := { path := .ok "r1.flac", bytes := 4096, durationMs := some 5000 } },.spawn,
        .enqueued ⟨26,⟨"r1",some "q1","r1.flac",some 4096,some 5000⟩⟩ none] ++ carryOut 1 0 ++
      [.shutdown])).map (fun rt => (rt.phase,rt.uploads.spool.contains "r1")) =
    some (.returned,true) := by decide

def Label.restarts : Label → Bool
  | .restart _ _ => true
  | _ => false

set_option maxRecDepth 4000 in
/- The recorder has finalized "r1" for the `StopRecording` the core emitted, but its report is
still in the event queue when the shutdown drops that: the booth returns without an entry. -/
theorem finishedAnswerLost : ¬ ∀ (before after : List Label) (reply : InlineReply)
    (id : RecordingId) (rt rt' : Booth),
    Transition.final Booth.step (boot 1000 "recordings" true true (.opened [])) before = some rt →
    rt.phase = .running →
    (∃ number announced effects,
      rt.effects.receive = some ((number,⟨.stopRecording,announced⟩),effects)) →
    reply.stop = .ok (some id) → (∀ label ∈ after, label.restarts = false) →
    Transition.final Booth.step rt (.take reply :: after) = some rt' → rt'.phase = .returned →
    rt'.uploads.spool.contains id = true ∨ id ∈ rt'.uploads.spool.confirmed ∨
      id ∈ rt'.uploads.refused := by
  intro kept
  have entry := kept answerOne.dropLast.dropLast
    (List.replicate 5 .shutdown ++ carryOut 1 0 ++ [.shutdown]) { stop := .ok (some "r1") } "r1" _ _
    rfl (by decide) ⟨_,_,_,rfl⟩ rfl (by decide) rfl (by decide)
  revert entry
  decide

end TelephoneBooth
