import TelephoneBooth.CoreStep

/-! A recorded answer leaves the core exactly once: from the step that starts the
recording, the question stays in the state until the recording finishes or fails,
and only the finishing step asks for an upload. -/
namespace TelephoneBooth
open State Event Effect

def State.answering : State → Option QuestionId
  | recording q | finishingRecording q _ | finishingTimedOutRecording q _ => some q
  | _ => none

def endsRecording : Event → Bool
  | recordingFinished _ | recordingFailed _ => true
  | _ => false

def uploadOf : Effect → Option (RecordingId × QuestionId)
  | uploadRecording r q => some (r,q)
  | _ => none

def uploadsOf (effects : List Effect) : List (RecordingId × QuestionId) :=
  effects.filterMap uploadOf

theorem uploadsAppend (xs ys : List Effect) : uploadsOf (xs ++ ys) = uploadsOf xs ++ uploadsOf ys := by
  simp [uploadsOf]

theorem uploadsLed (s t : State) : uploadsOf (ledChange s t) = [] :=
  filterMapLed (fun _ _ => rfl) s t

theorem uploadsStopIf (pending : Bool) : uploadsOf (stopIf pending) = [] := by
  cases pending <;> rfl

theorem uploadsSuppress (effects : List Effect) : uploadsOf (suppress effects) = uploadsOf effects :=
  filterMapSuppress (fun _ => rfl) (fun _ => rfl) effects

theorem uploadsDecode (digit : UInt8) : uploadsOf (decodeDigit digit).2 = [] := by
  unfold decodeDigit
  repeat' split
  all_goals rfl

theorem decodeAnswering (digit : UInt8) : (decodeDigit digit).1.answering = none := by
  unfold decodeDigit
  repeat' split
  all_goals rfl

@[simp] theorem silenceBeepAnswering (s : State) : (silenceBeep s).1.answering = s.answering :=
  silencedAlike State.answering (fun _ _ => rfl) s

theorem answeringProtected {s : State} (ended : s.isProtected = false) : s.answering = none := by
  cases s <;> first | rfl | cases ended

structure Carries (s : State) (e : Event) (s' : State) (effects : List Effect) : Prop where
  kept : endsRecording e = false → s.answering.isSome → s'.answering = s.answering
  finished : ∀ q r, s.answering = some q → e = recordingFinished r →
    uploadsOf effects = [(r,q)] ∧ s'.answering = none
  failed : ∀ q reason, s.answering = some q → e = recordingFailed reason →
    uploadsOf effects = [] ∧ s'.answering = none
  uploads : uploadsOf effects ≠ [] → s.answering.isSome ∧ ∃ r, e = recordingFinished r
  entered : ∀ q, s.answering = none → s'.answering = some q →
    s' = recording q ∧ startRecording ∈ effects

theorem stayAnswering {s : State} {e : Event} (same : handleInner s e = (s,[]))
    (ends : endsRecording e = true) : s.answering = none := by
  cases e with
  | recordingFinished r | recordingFailed reason =>
    cases s with
    | recording q => cases same
    | finishingRecording q onHook | finishingTimedOutRecording q onHook => cases onHook <;> cases same
    | _ => rfl
  | _ => cases ends

theorem Carries.silent {s e s' effects} (free : s.answering = none) (still : s'.answering = none)
    (none_ : uploadsOf effects = []) : Carries s e s' effects := by
  constructor <;> simp [free,still,none_]

theorem armCarries {s e s' effects} (arm : Arm s e s' effects) : Carries s e s' effects := by
  cases arm
  case stay same =>
    constructor
    · intro _ _; rfl
    · rintro q r under rfl; simp [stayAnswering same rfl] at under
    · rintro q reason under rfl; simp [stayAnswering same rfl] at under
    · intro some_; simp [uploadsOf] at some_
    · intro q free under; simp [free] at under
  case power effect button =>
    rcases button with ⟨rfl,rfl⟩ | ⟨rfl,rfl⟩ <;> constructor <;> simp_all [uploadsOf,uploadOf]
  case dial digit dials =>
    have free : s.answering = none := by cases dials <;> rfl
    exact .silent free (decodeAnswering digit) (uploadsDecode digit)
  case rest rests =>
    cases rests <;> exact .silent rfl rfl rfl
  case fail fails =>
    cases fails <;> first
      | exact .silent rfl rfl rfl
      | (constructor <;> simp [State.answering,uploadsOf,uploadOf,endsRecording])
  case uploadedBeeping done => exact .silent rfl rfl rfl
  case silentUploaded done => exact .silent rfl rfl rfl
  case hangUpReset recording_ finishing timedOut =>
    have free : s.answering = none := by cases s <;> simp_all [State.answering]
    exact .silent free rfl rfl
  -- most arms neither start from an answer nor lead to one
  all_goals first
    | exact .silent rfl rfl rfl
    | (constructor <;> simp [State.answering,endsRecording,uploadsOf,uploadOf,List.filterMap_cons])

theorem settleEnds {s : State} {e e' : Event} (settled : settle s e = some e') :
    e' = e ∨ endsRecording e' = false ∧ endsRecording e = false := by
  cases settleCases settled with
  | same => exact .inl rfl
  | @outcome r outcome => cases outcome <;> exact .inr ⟨rfl,rfl⟩

theorem Carries.unsettle {s e e' s' effects} (carries : Carries s e' s' effects)
    (settled : settle s e = some e') : Carries s e s' effects := by
  rcases settleEnds settled with rfl | ⟨after,before⟩
  · exact carries
  · constructor
    · intro _ under; exact carries.kept after under
    · rintro q r _ rfl; cases before
    · rintro q reason _ rfl; cases before
    · intro some_
      obtain ⟨_,r,rfl⟩ := carries.uploads some_
      cases after
    · exact carries.entered

theorem Carries.paused {s e n effects} (pending : Bool)
    (carries : Carries (silenceBeep s).1 e n effects) :
    Carries s e (silenceBeep n).1 (stopIf pending ++ suppress effects) := by
  have uploads : uploadsOf (stopIf pending ++ suppress effects) = uploadsOf effects := by
    rw [uploadsAppend,uploadsStopIf,uploadsSuppress]; rfl
  have kept := carries.kept
  have finished := carries.finished
  have failed := carries.failed
  have uploaded := carries.uploads
  have entered := carries.entered
  rw [silenceBeepAnswering] at kept uploaded
  simp only [silenceBeepAnswering] at finished failed entered
  constructor
  · simpa using kept
  · simpa [uploads] using finished
  · simpa [uploads] using failed
  · simpa [uploads] using uploaded
  · intro q free under
    rw [silenceBeepAnswering] at under
    obtain ⟨rfl,started⟩ := entered q free under
    exact ⟨rfl,List.mem_append_right _ (List.mem_filter.mpr ⟨started,rfl⟩)⟩

theorem Carries.front {s e s' effects} (front : List Effect) (none_ : uploadsOf front = [])
    (carries : Carries s e s' effects) : Carries s e s' (front ++ effects) := by
  have same : uploadsOf (front ++ effects) = uploadsOf effects := by
    rw [uploadsAppend,none_]; rfl
  constructor
  · exact carries.kept
  · rw [same]; exact carries.finished
  · rw [same]; exact carries.failed
  · rw [same]; exact carries.uploads
  · intro q free under
    have ⟨entered,started⟩ := carries.entered q free under
    exact ⟨entered,List.mem_append_right _ started⟩

theorem turnCarries {s e accepting s' effects} (turn : Turn s e accepting s' effects) :
    Carries s e s' effects := by
  cases turn with
  | stale dropped =>
    constructor
    · intro _ _; rfl
    · rintro q r _ rfl; cases dropped
    · rintro q reason _ rfl; cases dropped
    · intro some_; exact absurd rfl some_
    · intro q free under; rw [free] at under; cases under
  | inner settled open_ same => exact (armCarries (innerArm same)).unsettle settled
  | resumedIdle paused position => subst paused; exact .silent rfl rfl rfl
  | resumedTone paused position quiet => subst paused; exact .silent rfl rfl rfl
  | resumedPulse paused position input => subst paused; exact .silent rfl rfl rfl
  | resumedDigit paused position input =>
    subst paused
    exact .silent rfl (decodeAnswering _) (by rw [uploadsAppend,uploadsDecode]; rfl)
  | stillPaused paused => subst paused; exact .silent rfl rfl rfl
  | cut idle_ playing => exact .silent (answeringProtected idle_) rfl rfl
  | kept settled safe same still => exact ((armCarries (innerArm same)).paused _).unsettle settled
  | released settled safe same ended =>
    rename_i e' n inner
    have carries := ((armCarries (innerArm same)).paused (silenceBeep s).2).unsettle settled
    have free : (silenceBeep n).1.answering = none := by
      rw [silenceBeepAnswering]; exact answeringProtected ended
    have uploads : uploadsOf (stopIf (silenceBeep s).2 ++ suppress inner ++
        [stopAudio,cancelPulseTimeout]) = uploadsOf (stopIf (silenceBeep s).2 ++ suppress inner) := by
      rw [uploadsAppend]; exact List.append_nil _
    constructor
    · intro live under
      have := carries.kept live under
      rw [free] at this
      rw [← this] at under
      cases under
    · rw [uploads]; intro q r under last; exact ⟨(carries.finished q r under last).1,rfl⟩
    · rw [uploads]; intro q reason under last; exact ⟨(carries.failed q reason under last).1,rfl⟩
    · rw [uploads]; exact carries.uploads
    · intro q free under; cases under

theorem stepCarries (s : State) (i : Input) : Carries s i.1 (coreStep s i).1 (coreStep s i).2 := by
  obtain ⟨effects,same,turn⟩ := stepTurn s i
  rw [same]
  exact (turnCarries turn).front _ (uploadsLed _ _)

/-- A step of the run entered `Recording{q}` with `StartRecording`, and nothing since has
ended that recording. -/
def UnderWay (inputs : List Input) (q : QuestionId) : Prop :=
  ∃ before start since, inputs = before ++ start :: since ∧
    (coreStep (coreRun idle before) start).1 = recording q ∧
    startRecording ∈ (coreStep (coreRun idle before) start).2 ∧
    ∀ i ∈ since, endsRecording i.1 = false

theorem runAnswering {s : State} {q : QuestionId} {inputs : List Input} (under : s.answering = some q)
    (live : ∀ i ∈ inputs, endsRecording i.1 = false) : (coreRun s inputs).answering = some q := by
  refine Machine.runInvariant coreStep (fun s => s.answering = some q)
    (fun i => endsRecording i.1 = false) ?_ under live
  intro s i open_ under
  rw [(stepCarries s i).kept open_ (by rw [under]; rfl),under]

theorem underWayAnswering {inputs : List Input} {q : QuestionId} (under : UnderWay inputs q) :
    (coreRun idle inputs).answering = some q := by
  obtain ⟨before,start,since,rfl,entered,_,live⟩ := under
  have split_ : coreRun idle (before ++ start :: since) =
      coreRun (coreStep (coreRun idle before) start).1 since := Machine.runAppend ..
  rw [split_,entered]
  exact runAnswering rfl live

theorem answeringUnderWay {inputs : List Input} {q : QuestionId}
    (under : (coreRun idle inputs).answering = some q) : UnderWay inputs q := by
  obtain ⟨before,start,since,rfl,outside,inside⟩ := Machine.lastEntry coreStep
    (fun s => s.answering.isSome) (by simp [State.answering] : ¬ (State.idle).answering.isSome)
    (by rw [show Machine.run coreStep idle inputs = coreRun idle inputs from rfl,under]; rfl)
  have free : (coreRun idle before).answering = none := Option.not_isSome_iff_eq_none.mp outside
  have started : (coreStep (coreRun idle before) start).1.answering.isSome := by
    have := inside [] List.nil_prefix
    rwa [Machine.runSnoc] at this
  obtain ⟨p,entry⟩ := Option.isSome_iff_exists.mp started
  obtain ⟨entered,emitted⟩ := (stepCarries _ start).entered p free entry
  have live : ∀ i ∈ since, endsRecording i.1 = false := by
    intro i mem
    obtain ⟨front,back,rfl⟩ := List.append_of_mem mem
    by_contra ends
    have held : (coreRun idle (before ++ start :: front)).answering.isSome :=
      inside front (List.prefix_append _ _)
    have after : (coreRun idle (before ++ start :: (front ++ [i]))).answering.isSome :=
      inside (front ++ [i]) (by simp)
    have last : coreRun idle (before ++ start :: (front ++ [i])) =
        (coreStep (coreRun idle (before ++ start :: front)) i).1 := by
      rw [← List.cons_append,← List.append_assoc]; exact Machine.runSnoc ..
    obtain ⟨p,at_⟩ := Option.isSome_iff_exists.mp held
    have carries := stepCarries (coreRun idle (before ++ start :: front)) i
    rw [last] at after
    cases e : i.1 with
    | recordingFinished r => rw [(carries.finished p r at_ e).2] at after; cases after
    | recordingFailed reason => rw [(carries.failed p reason at_ e).2] at after; cases after
    | _ => rw [e] at ends; exact ends rfl
  have split_ : coreRun idle (before ++ start :: since) =
      coreRun (coreStep (coreRun idle before) start).1 since := Machine.runAppend ..
  have same : p = q := by
    have kept := runAnswering entry live
    rw [split_] at under
    exact Option.some.inj (kept.symm.trans under)
  subst same
  exact ⟨before,start,since,rfl,entered,emitted,live⟩

/- While an answer is under way the state holds its question, its end uploads exactly it,
and no other step of any run uploads anything. -/
theorem answerUploadedOnce (inputs : List Input) (next : Input) :
    (∀ q, UnderWay inputs q →
      (coreRun idle inputs).answering = some q ∧
      (∀ r, next.1 = recordingFinished r →
        uploadsOf (coreStep (coreRun idle inputs) next).2 = [(r,q)]) ∧
      ∀ reason, next.1 = recordingFailed reason →
        uploadsOf (coreStep (coreRun idle inputs) next).2 = []) ∧
    (uploadsOf (coreStep (coreRun idle inputs) next).2 ≠ [] →
      ∃ q r, UnderWay inputs q ∧ next.1 = recordingFinished r) := by
  have carries := stepCarries (coreRun idle inputs) next
  constructor
  · intro q under
    have at_ := underWayAnswering under
    exact ⟨at_,fun r e => (carries.finished q r at_ e).1,fun reason e => (carries.failed q reason at_ e).1⟩
  · intro some_
    obtain ⟨under,r,e⟩ := carries.uploads some_
    obtain ⟨q,at_⟩ := Option.isSome_iff_exists.mp under
    exact ⟨q,r,answeringUnderWay at_,e⟩

end TelephoneBooth
