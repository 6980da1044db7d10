import TelephoneBooth.GoingOn
import TelephoneBooth.UploadStep

/-! An upload on its way to its outcome: from the effect channel over the effects put aside to
the task that reports it, with no step of the running booth that loses it. -/
namespace TelephoneBooth
open State Event Effect Booth

inductive UploadGoesOn (rt : Booth) (id : RecordingId) : Prop where
  | waits (n emitted) (waits : rt.effects.Waits n emitted)
      (uploads : uploadsFor id emitted.effect = true)
  | aside (next) (mem : next ∈ rt.pendingOperatorEffects)
      (uploads : uploadsFor id next.emitted.effect = true)
  | admitting (task) (claimed : rt.uploads.admitting = some task) (own : task.entry.recordingId = id)
      (open_ : task.stage.unreported = true)
  | task (task) (mem : task ∈ rt.uploads.tasks) (own : task.entry.recordingId = id)
      (open_ : task.stage.unreported = true)
  | told (sent outcome) (mem : sent ∈ rt.events) (same : sent.event = uploadFinished id outcome)

theorem UploadGoesOn.keep {rt rt' : Booth} {id : RecordingId} (goes : UploadGoesOn rt id)
    (effects : rt'.effects = rt.effects)
    (aside : rt'.pendingOperatorEffects = rt.pendingOperatorEffects)
    (admitting : rt'.uploads.admitting = rt.uploads.admitting)
    (tasks : rt'.uploads.tasks = rt.uploads.tasks)
    (events : ∀ sent ∈ rt.events, sent ∈ rt'.events) : UploadGoesOn rt' id := by
  cases goes with
  | waits n emitted waits uploads => exact .waits n emitted (by rwa [effects]) uploads
  | aside next mem uploads => exact .aside next (by rwa [aside]) uploads
  | admitting task claimed own open_ => exact .admitting task (by rwa [admitting]) own open_
  | task task mem own open_ => exact .task task (by rwa [tasks]) own open_
  | told sent outcome mem same => exact .told sent outcome (events sent mem) same

theorem UploadGoesOn.move {rt rt' : Booth} {id : RecordingId} (goes : UploadGoesOn rt id)
    (effects : rt'.effects = rt.effects)
    (aside : rt'.pendingOperatorEffects = rt.pendingOperatorEffects)
    (events : ∀ sent ∈ rt.events, sent ∈ rt'.events)
    (admitting : ∀ task, rt.uploads.admitting = some task → task.entry.recordingId = id →
      task.stage.unreported = true → UploadGoesOn rt' id)
    (tasks : ∀ task ∈ rt.uploads.tasks, task.entry.recordingId = id →
      task.stage.unreported = true → UploadGoesOn rt' id) : UploadGoesOn rt' id := by
  cases goes with
  | waits n emitted waits uploads => exact .waits n emitted (by rwa [effects]) uploads
  | aside next mem uploads => exact .aside next (by rwa [aside]) uploads
  | admitting task claimed own open_ => exact admitting task claimed own open_
  | task task mem own open_ => exact tasks task mem own open_
  | told sent outcome mem same => exact .told sent outcome (events sent mem) same

theorem toldOutcome (rt : Booth) (running : rt.phase = .running) (id : RecordingId)
    (outcome : UploadOutcome) : UploadGoesOn (rt.send [outcomeNotice id outcome]) id := by
  obtain ⟨sent,inside,same⟩ := sendTells rt running (List.mem_singleton.mpr rfl)
  exact .told sent outcome inside same

theorem movedTask {u : Uploads} {other : UploadTask} (task : UploadTask) (stage : UploadStage)
    (mem : other ∈ u.tasks) : other = task ∨ other ∈ (u.move task stage).tasks := by
  by_cases same : other = task
  · exact .inl same
  · exact .inr (List.mem_cons_of_mem _ ((List.mem_erase_of_ne same).mpr mem))

theorem uploadStepGoesOn {rt : Booth} {id : RecordingId} {number : Nat}
    {reply : Option OperatorError} {uploads : Uploads} {notices : List Notice}
    (running : rt.phase = .running) (goes : UploadGoesOn rt id)
    (step : Uploads.UploadStep rt.uploads number rt.shuttingDown rt.accepting reply uploads notices) :
    UploadGoesOn ({ rt with uploads }.send notices) id := by
  have going : rt.shuttingDown = false := by simp [shuttingDown,running]
  have kept (sent : Sent) (mem : sent ∈ rt.events) :
      sent ∈ (({ rt with uploads } : Booth).send notices).events := sendKeeps notices mem
  refine goes.move (sendEffects _ _) (sendPendingOperatorEffects _ _) kept ?_ ?_
  · intro task claimed own open_
    refine .admitting task ?_ own open_
    rw [sendUploads]
    cases step with
    | advance | leave | confirm => exact claimed
  · intro task mem own open_
    cases step with
    | advance moved stage inside same durable opened past stays =>
      rcases movedTask moved stage mem with rfl | other
      · refine .task { task with stage } ?_ own stays
        rw [sendUploads]
        exact List.mem_cons_self
      · exact .task task (by rw [sendUploads]; exact other) own open_
    | leave moved notices inside same opened told =>
      rcases movedTask moved .done mem with rfl | other
      · rcases told with ⟨stopping,_⟩ | ⟨outcome,rfl⟩
        · rw [going] at stopping
          cases stopping
        · subst own
          refine toldOutcome _ ?_ _ _
          exact running
      · exact .task task (by rw [sendUploads]; exact other) own open_
    | confirm moved call inside same stage confirmed =>
      rcases movedTask moved .dequeuing mem with rfl | other
      · subst own
        refine toldOutcome _ ?_ _ _
        exact running
      · exact .task task (by rw [sendUploads]; exact other) own open_

theorem acceptGoesOn {rt rt' : Booth} {id question : String} {number : Nat} {reply : InlineReply}
    (running : rt.phase = .running)
    (done : Executes rt number reply (uploadRecording id question) rt') : UploadGoesOn rt' id := by
  cases done with
  | fetch fetches => cases fetches
  | outward silent => cases silent
  | uploadRecording =>
    have accepted := Uploads.acceptCases rt.uploads rt.minRecordingMs number id question reply.file
    generalize rt.uploads.accept rt.minRecordingMs number id question reply.file = result at accepted ⊢
    obtain ⟨uploads,notices⟩ := result
    cases accepted with
    | refuse | busy =>
      refine toldOutcome _ ?_ _ _
      exact running
    | claim task free own same stage =>
      rw [sendNone]
      exact .admitting task rfl same (by rw [stage]; rfl)

theorem executeGoesOn {rt rt' : Booth} {id : RecordingId} {number : Nat} {effect : Effect}
    {reply : InlineReply} (done : Executes rt number reply effect rt')
    (ready : rt.uploads.admitting = none) (goes : UploadGoesOn rt id) : UploadGoesOn rt' id := by
  cases done with
  | uploadRecording recordingId questionId =>
    refine goes.move (sendEffects _ _) (sendPendingOperatorEffects _ _)
      (fun sent mem => sendKeeps _ mem) ?_ ?_
    · intro task claimed
      rw [ready] at claimed
      cases claimed
    · intro task mem own open_
      refine .task task ?_ own open_
      rw [sendUploads]
      have accepted := Uploads.acceptCases rt.uploads rt.minRecordingMs number recordingId questionId
        reply.file
      generalize rt.uploads.accept rt.minRecordingMs number recordingId questionId reply.file = result
        at accepted ⊢
      obtain ⟨uploads,notices⟩ := result
      cases accepted with
      | refuse | busy | claim => exact mem
  | startRecording | stopRecording =>
    exact goes.keep (sendEffects _ _) (sendPendingOperatorEffects _ _) (by rw [sendUploads])
      (by rw [sendUploads]) (fun sent mem => sendKeeps _ mem)
  | _ => exact goes.keep rfl rfl rfl rfl (fun sent mem => mem)

theorem uploadsForCases {id : RecordingId} {effect : Effect} (uploads : uploadsFor id effect = true) :
    ∃ question, effect = uploadRecording id question := by
  cases effect with
  | uploadRecording recordingId question =>
    obtain rfl := of_decide_eq_true uploads
    exact ⟨question,rfl⟩
  | _ => cases uploads

theorem receivedGoesOn {rt : Booth} {id : RecordingId} {number : Nat} {emitted : Emitted}
    {effects : Channel Emitted} (received : rt.effects.receive = some ((number,emitted),effects))
    (goes : UploadGoesOn rt id) :
    UploadGoesOn { rt with effects } id ∨ uploadsFor id emitted.effect = true := by
  cases goes with
  | waits n other waits uploads =>
    obtain ⟨place,found,log,taken⟩ := Channel.receiveCases received
    by_cases same : n = number
    · subst same
      have there := waits.2
      rw [found] at there
      cases there
      exact .inr uploads
    · refine .inl (.waits n other ⟨?_,?_⟩ uploads)
      · have early := waits.1
        show effects.taken ≤ n
        omega
      · show effects.log[n]? = some other
        rw [log]
        exact waits.2
  | aside next mem uploads => exact .inl (.aside next mem uploads)
  | admitting task claimed own open_ => exact .inl (.admitting task claimed own open_)
  | task task mem own open_ => exact .inl (.task task mem own open_)
  | told sent outcome mem same => exact .inl (.told sent outcome mem same)

theorem resumedGoesOn {rt : Booth} {id : RecordingId} {next : OperatorEffect}
    {rest : List OperatorEffect} (waiting : rt.pendingOperatorEffects = next :: rest)
    (goes : UploadGoesOn rt id) : UploadGoesOn { rt with pendingOperatorEffects := rest } id ∨
      uploadsFor id next.emitted.effect = true := by
  cases goes with
  | aside other mem uploads =>
    rw [waiting] at mem
    rcases List.mem_cons.mp mem with rfl | later
    · exact .inr uploads
    · exact .inl (.aside other later uploads)
  | waits n other waits uploads => exact .inl (.waits n other waits uploads)
  | admitting task claimed own open_ => exact .inl (.admitting task claimed own open_)
  | task task mem own open_ => exact .inl (.task task mem own open_)
  | told sent outcome mem same => exact .inl (.told sent outcome mem same)

theorem deferredGoesOn {rt : Booth} {id : RecordingId} {effects : Channel Emitted}
    {put : OperatorEffect} (goes : UploadGoesOn { rt with effects } id ∨
      uploadsFor id put.emitted.effect = true) : UploadGoesOn { rt with
        effects, pendingOperatorEffects := rt.pendingOperatorEffects ++ [put] } id := by
  rcases goes with still | uploads
  · cases still with
    | waits n other waits uploads => exact .waits n other waits uploads
    | aside next mem uploads => exact .aside next (List.mem_append_left _ mem) uploads
    | admitting task claimed own open_ => exact .admitting task claimed own open_
    | task task mem own open_ => exact .task task mem own open_
    | told sent outcome mem same => exact .told sent outcome mem same
  · exact .aside put (List.mem_append_right _ (List.mem_singleton.mpr rfl)) uploads

theorem spawnedGoesOn {rt : Booth} {id : RecordingId} {uploads : Uploads}
    (spawned : rt.uploads.spawn false = some uploads) (goes : UploadGoesOn rt id) :
    UploadGoesOn { rt with uploads } id := by
  obtain ⟨task,admitting,⟨stopping,_⟩ | ⟨_,rfl⟩⟩ := Uploads.spawnCases spawned
  · cases stopping
  · refine goes.move rfl rfl (fun _ mem => mem) ?_ ?_
    · intro other claimed own open_
      rw [admitting] at claimed
      cases claimed
      exact .task task (List.mem_append_right _ (List.mem_singleton.mpr rfl)) own open_
    · exact fun other mem own open_ => .task other (List.mem_append_left _ mem) own open_

theorem joinedGoesOn {rt : Booth} {id : RecordingId} {number : Nat} {uploads : Uploads}
    (joined : rt.uploads.join number = some uploads) (goes : UploadGoesOn rt id) :
    UploadGoesOn { rt with uploads } id := by
  obtain ⟨task,mem,ended,rfl⟩ := Uploads.joinCases joined
  refine goes.move rfl rfl (fun _ mem => mem)
    (fun other claimed own open_ => .admitting other claimed own open_) ?_
  intro other inside own open_
  have apart : other ≠ task := by
    rintro rfl
    rw [ended] at open_
    cases open_
  exact .task other ((List.mem_erase_of_ne apart).mpr inside) own open_

theorem enqueuedGoesOn {rt : Booth} {id : RecordingId} {job : EnqueueJob} {error : Option String}
    {uploads : Uploads} (ran : rt.uploads.enqueued job error = some uploads)
    (goes : UploadGoesOn rt id) : UploadGoesOn { rt with uploads } id := by
  obtain ⟨_,admitting,tasks,_⟩ := Uploads.enqueuedCases ran
  refine goes.move rfl rfl (fun _ mem => mem) ?_ ?_
  · intro task claimed own open_
    refine .admitting (Uploads.UploadTask.deliver task job.number error) ?_ ?_ ?_
    · show uploads.admitting = _
      rw [admitting,claimed]
      rfl
    · rw [Uploads.deliverEntry]
      exact own
    · rw [Uploads.deliverUnreported]
      exact open_
  · intro task mem own open_
    refine .task (Uploads.UploadTask.deliver task job.number error) ?_ ?_ ?_
    · show _ ∈ uploads.tasks
      rw [tasks]
      exact List.mem_map_of_mem mem
    · rw [Uploads.deliverEntry]
      exact own
    · rw [Uploads.deliverUnreported]
      exact open_

theorem dequeuedGoesOn {rt : Booth} {id : RecordingId} {job : DequeueJob} {removed : Bool}
    {uploads : Uploads} (ran : rt.uploads.dequeued job removed = some uploads)
    (goes : UploadGoesOn rt id) : UploadGoesOn { rt with uploads } id := by
  obtain ⟨admitting,tasks⟩ := Uploads.dequeuedTasks ran
  refine goes.move rfl rfl (fun _ mem => mem) ?_ ?_
  · exact fun task claimed own open_ => .admitting task (admitting.trans claimed) own open_
  · intro task mem own open_
    rcases tasks with same | ⟨moved,inside,stage,same⟩
    · exact .task task (by rwa [same]) own open_
    · have apart : task ≠ moved := by
        rintro rfl
        rw [stage] at open_
        cases open_
      refine .task task ?_ own open_
      show task ∈ uploads.tasks
      rw [same]
      exact List.mem_cons_of_mem _ ((List.mem_erase_of_ne apart).mpr mem)

theorem uploadQuiet {rt rt' : Booth} {label : Label} {id : RecordingId}
    (done : rt.step label = some rt') (step : BoothStep rt label rt') (quiet : isQuiet label = true)
    (running : rt'.phase = .running) (goes : UploadGoesOn rt id) : UploadGoesOn rt' id := by
  have started := quietRunning step quiet running
  have kept (sent : Sent) (mem : sent ∈ rt.events) : sent ∈ rt'.events :=
    quietEvents step quiet running mem
  have going : rt.shuttingDown = false := by simp [shuttingDown,started]
  cases step with
  | handle | reconcile | restart => cases quiet
  | skip received stopping => exact absurd started stopping
  | forget waiting stopping => exact absurd started stopping
  | cancelFetch stopping => exact absurd started stopping
  | cancelUpload stopping => exact absurd started stopping
  | shutdown done => cases shutdownCases done <;> cases running
  | defer received operator => exact deferredGoesOn (receivedGoesOn received goes)
  | execute received live carried =>
    have ready := takenReady done (.inl ⟨_,rfl⟩)
    rcases receivedGoesOn received goes with still | uploads
    · exact executeGoesOn carried ready still
    · obtain ⟨question,same⟩ := uploadsForCases uploads
      rw [same] at carried
      refine acceptGoesOn ?_ carried
      exact started
  | resume waiting live carried =>
    have ready := takenReady done (.inr ⟨_,rfl⟩)
    rcases resumedGoesOn waiting goes with still | uploads
    · exact executeGoesOn carried ready still
    · obtain ⟨question,same⟩ := uploadsForCases uploads
      rw [same] at carried
      refine acceptGoesOn ?_ carried
      exact started
  | spawn spawned =>
    rw [going] at spawned
    exact spawnedGoesOn spawned goes
  | upload moved => exact uploadStepGoesOn started goes (Uploads.uploadStepCases moved)
  | joinUpload joined => exact joinedGoesOn joined goes
  | enqueued ran => exact enqueuedGoesOn ran goes
  | dequeued ran => exact dequeuedGoesOn ran goes
  | replay ran =>
    obtain ⟨admitting,tasks⟩ := Uploads.replayTasks ran
    exact goes.keep rfl rfl admitting tasks kept
  | sense | fetch | pulseTimeout | recordingTimeout | speaker =>
    exact goes.keep (sendEffects _ _) (sendPendingOperatorEffects _ _) (by rw [sendUploads])
      (by rw [sendUploads]) kept
  | gate | joinFetch => exact goes.keep rfl rfl rfl rfl kept

theorem uploadHandled {rt : Booth} {event : Event} {id : RecordingId} (origin : Option Nat)
    (held : (uploadWait id).waits rt.state = true → (uploadWait id).heard rt.state event = false →
      UploadGoesOn rt id)
    (waits : (uploadWait id).waits (rt.handleEvent event origin).state = true) :
    UploadGoesOn (rt.handleEvent event origin) id := by
  have owes := Wait.stepOwes (uploadLawful id) rt.state (event,rt.accepting) waits
  rcases Wait.askedCases owes with ⟨front,effect,back,same,asks,_⟩ | ⟨before,_⟩
  · have mem : effect ∈ (coreStep rt.state (event,rt.accepting)).2 := by
      rw [same]
      simp
    obtain ⟨n,emitted,_,waiting,own⟩ := emitsWaits origin mem
    exact .waits n emitted waiting (by rw [own]; exact asks)
  · obtain ⟨waited,unheard⟩ := Bool.and_eq_true_iff.mp before
    have unheard_ : (uploadWait id).heard rt.state event = false := by simpa using unheard
    cases held waited unheard_ with
    | waits n emitted waiting uploads =>
      exact .waits n emitted (Channel.sentWaits _ waiting) uploads
    | aside next mem uploads => exact .aside next mem uploads
    | admitting task claimed own open_ => exact .admitting task claimed own open_
    | task task mem own open_ => exact .task task mem own open_
    | told sent outcome mem same_ => exact .told sent outcome mem same_

end TelephoneBooth
