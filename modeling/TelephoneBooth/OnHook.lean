import TelephoneBooth.Handset

/-! After the caller has hung up. The booth finishes the answer it was recording, hands it
over for upload and comes to rest; nothing of that is heard. -/
namespace TelephoneBooth
open State Event Effect

inductive HungUp : State → Prop where
  | idle : HungUp idle
  | paused : HungUp (callsPaused true)
  | finishing (q) : HungUp (finishingRecording q true)
  | timedOut (q) : HungUp (finishingTimedOutRecording q true)
  | uploading (r q) : HungUp (uploading r q true)

def resting (accepting : Bool) : State := if accepting then idle else callsPaused true

def disturbs : Effect → Bool
  | play _ | startRecording | fetchRandomQuestion | fetchRandomMessage | fetchInstructions => true
  | _ => false

def Undisturbed (effects : List Effect) : Prop := ∀ effect ∈ effects, disturbs effect = false

theorem undisturbedNone : Undisturbed [] := fun _ mem => absurd mem List.not_mem_nil

theorem undisturbedAppend {xs ys : List Effect} (front : Undisturbed xs) (back : Undisturbed ys) :
    Undisturbed (xs ++ ys) := fun effect mem =>
  (List.mem_append.mp mem).elim (front effect) (back effect)

theorem undisturbedLed (s t : State) : Undisturbed (ledChange s t) := by
  intro effect mem
  obtain ⟨colour,pattern,rfl⟩ := ledChangeMem mem
  rfl

theorem undisturbedStopIf (pending : Bool) : Undisturbed (stopIf pending) := by
  cases pending <;> simp [Undisturbed,stopIf,disturbs]

theorem undisturbedSuppress {effects : List Effect} (silent : Undisturbed effects) :
    Undisturbed (suppress effects) := fun effect mem => silent effect (List.mem_filter.mp mem).1

theorem HungUp.onHook {s : State} (hung : HungUp s) : s.onHook = true := by cases hung <;> rfl

theorem HungUp.silenced {s : State} (hung : HungUp s) : silenceBeep s = (s,false) := by
  cases hung <;> rfl

theorem hangUpEffects (s : State) : (hangUp s).2 ≠ [] := by cases s <;> simp [hangUp]

theorem armHungUp {s e s' effects} (arm : Arm s e s' effects) (hung : HungUp s ∨ e = hookOn)
    (down : e ≠ hookOff) : HungUp s' ∧ Undisturbed effects := by
  cases arm
  case stay same =>
    rcases hung with hung | rfl
    · exact ⟨hung,undisturbedNone⟩
    · exact absurd (congrArg Prod.snd same) (hangUpEffects s)
  case power effect button =>
    rcases button with ⟨rfl,rfl⟩ | ⟨rfl,rfl⟩
    all_goals
      rcases hung with hung | hung
      · exact ⟨hung,by simp [Undisturbed,disturbs]⟩
      · cases hung
  case hangUpRecording => exact ⟨.finishing _,by simp [Undisturbed,disturbs]⟩
  case hangUpFinishing => exact ⟨.finishing _,by simp [Undisturbed,disturbs]⟩
  case hangUpTimedOut => exact ⟨.timedOut _,by simp [Undisturbed,disturbs]⟩
  case hangUpReset => exact ⟨.idle,by simp [Undisturbed,disturbs]⟩
  case liftFinishing | liftTimedOut | liftUploading => exact absurd rfl down
  case rest rests =>
    cases rests <;> rcases hung with hung | hung <;> cases hung
    exact absurd rfl down
  case fail fails => cases fails <;> rcases hung with hung | hung <;> cases hung
  case dial dials => cases dials <;> rcases hung with hung | hung <;> cases hung
  case uploadedBeeping done =>
    rcases done with rfl | rfl <;> rcases hung with hung | hung <;> cases hung
  case silentUploaded done => exact ⟨.idle,by simp [Undisturbed,disturbs]⟩
  all_goals
    rcases hung with hung | hung <;> cases hung <;>
      exact ⟨by constructor,by simp [Undisturbed,disturbs]⟩

theorem hookAfterDown {s : State} {e : Event} (hung : HungUp s ∨ e = hookOn) (down : e ≠ hookOff) :
    hookAfter s e = true := by
  rcases hung with hung | rfl
  · rw [hookAfterLevel]
    cases e <;> first | exact hung.onHook | exact absurd rfl down | rfl
  · rfl

theorem settledHang {s : State} {e e' : Event} (settled : settle s e = some e') (hangs : e = hookOn) :
    e' = hookOn := by
  subst hangs
  cases settled
  rfl

theorem settledDown {s : State} {e e' : Event} (settled : settle s e = some e')
    (down : e ≠ hookOff) : e' ≠ hookOff := by
  rintro rfl
  refine down (settledSame settled fun outcome => ?_)
  cases outcome <;> simp [UploadOutcome.event]

theorem settledHungUp {s : State} {e e' : Event} (settled : settle s e = some e')
    (hung : HungUp s ∨ e = hookOn) : HungUp (silenceBeep s).1 ∨ e' = hookOn := by
  rcases hung with hung | hangs
  · rw [hung.silenced]
    exact .inl hung
  · exact .inr (settledHang settled hangs)

theorem turnHungUp {s e accepting s' effects} (turn : Turn s e accepting s' effects)
    (hung : HungUp s ∨ e = hookOn) (down : e ≠ hookOff) : HungUp s' ∧ Undisturbed effects := by
  have position : hookAfter s e = true := hookAfterDown hung down
  cases turn with
  | stale dropped =>
    rcases hung with hung | rfl
    · exact ⟨hung,undisturbedNone⟩
    · cases dropped
  | inner settled open_ same =>
    exact armHungUp (innerArm same) (hung.imp id fun hangs => settledHang settled hangs)
      (settledDown settled down)
  | resumedIdle paused => exact ⟨.idle,by simp [Undisturbed,disturbs]⟩
  | resumedTone paused lifted | resumedPulse paused lifted | resumedDigit paused lifted =>
    rw [position] at lifted
    cases lifted
  | stillPaused paused => rw [position]; exact ⟨.paused,undisturbedNone⟩
  | cut idle_ playing => rw [position]; exact ⟨.paused,by simp [Undisturbed,disturbs]⟩
  | kept settled safe same still =>
    obtain ⟨rested,silent⟩ :=
      armHungUp (innerArm same) (settledHungUp settled hung) (settledDown settled down)
    rw [rested.silenced]
    exact ⟨rested,undisturbedAppend (undisturbedStopIf _) (undisturbedSuppress silent)⟩
  | released settled safe same ended =>
    obtain ⟨rested,silent⟩ :=
      armHungUp (innerArm same) (settledHungUp settled hung) (settledDown settled down)
    have still := hookAfterDown (hung.imp id fun hangs => settledHang settled hangs)
      (settledDown settled down)
    rw [still]
    exact ⟨.paused,undisturbedAppend (undisturbedAppend (undisturbedStopIf _) (undisturbedSuppress silent))
      (by simp [Undisturbed,disturbs])⟩

theorem stepHungUp {s : State} {i : Input} (hung : HungUp s ∨ i.1 = hookOn) (down : i.1 ≠ hookOff) :
    HungUp (coreStep s i).1 ∧ Undisturbed (coreStep s i).2 := by
  obtain ⟨effects,same,turn⟩ := stepTurn s i
  obtain ⟨rested,silent⟩ := turnHungUp turn hung down
  rw [same]
  exact ⟨rested,undisturbedAppend (undisturbedLed _ _) silent⟩

inductive EndsUpload (r : RecordingId) : Event → Prop where
  | hungUp : EndsUpload r hookOn
  | own (outcome) : EndsUpload r (uploadFinished r outcome)
  | untagged (outcome : UploadOutcome) : EndsUpload r outcome.event

def LeavesOnHook (s : State) (i : Input) : Prop :=
  match s with
  | finishingRecording q _ | finishingTimedOutRecording q _ =>
    ((coreStep s i).1 ≠ s ↔
      (∃ r, i.1 = recordingFinished r) ∨ ∃ reason, i.1 = recordingFailed reason) ∧
    (∀ r, i.1 = recordingFinished r → (coreStep s i).1 = uploading r q true) ∧
    ∀ reason, i.1 = recordingFailed reason → (coreStep s i).1 = resting i.2
  | uploading r _ _ =>
    ((coreStep s i).1 ≠ s ↔ EndsUpload r i.1) ∧
    (EndsUpload r i.1 → (coreStep s i).1 = resting i.2)
  | _ => (coreStep s i).1 = idle ∨ (coreStep s i).1 = callsPaused true

inductive Finishing (q : QuestionId) : State → Prop where
  | stopped : Finishing q (finishingRecording q true)
  | timedOut : Finishing q (finishingTimedOutRecording q true)

theorem finishingStep {s : State} {q : QuestionId} (finishing : Finishing q s) (e : Event)
    (accepting : Bool) (down : e ≠ hookOff) : (coreStep s (e,accepting)).1 =
      match e with
      | recordingFinished r => uploading r q true
      | recordingFailed _ => resting accepting
      | _ => s := by
  cases finishing <;> cases e <;> cases accepting <;> first
    | rfl
    | exact absurd rfl down

theorem uploadingStep (r : RecordingId) (q : QuestionId) (e : Event) (accepting : Bool)
    (down : e ≠ hookOff) :
    (EndsUpload r e → (coreStep (uploading r q true) (e,accepting)).1 = resting accepting) ∧
    (¬ EndsUpload r e → (coreStep (uploading r q true) (e,accepting)).1 = uploading r q true) := by
  constructor
  · rintro (_ | outcome | outcome)
    · cases accepting <;> rfl
    · have own : settle (uploading r q true) (uploadFinished r outcome) = some outcome.event :=
        if_pos rfl
      simp only [coreStep,handleWithCallAvailability,handleAvailable,own]
      cases outcome <;> cases accepting <;> rfl
    · cases outcome <;> cases accepting <;> rfl
  · intro other
    cases e with
    | uploadFinished r' outcome =>
      have foreign : settle (uploading r q true) (uploadFinished r' outcome) = none := by
        refine if_neg fun same => other ?_
        cases same
        exact .own outcome
      simp only [coreStep,handleWithCallAvailability,handleAvailable,foreign]
    | hookOff => exact absurd rfl down
    | hookOn => exact absurd .hungUp other
    | uploadComplete => exact absurd (.untagged .complete) other
    | uploadDeferred => exact absurd (.untagged .deferred) other
    | uploadFailed reason => exact absurd (.untagged (.failed reason)) other
    | _ => cases accepting <;> rfl

theorem restingApart (accepting : Bool) {s : State} (busy : s.isProtected = true) :
    resting accepting ≠ s := by
  rintro rfl
  cases accepting <;> cases busy

theorem finishingLeaves {s : State} {q : QuestionId} (finishing : Finishing q s) (e : Event)
    (accepting : Bool) (down : e ≠ hookOff) :
    ((coreStep s (e,accepting)).1 ≠ s ↔
      (∃ r, e = recordingFinished r) ∨ ∃ reason, e = recordingFailed reason) ∧
    (∀ r, e = recordingFinished r → (coreStep s (e,accepting)).1 = uploading r q true) ∧
    ∀ reason, e = recordingFailed reason → (coreStep s (e,accepting)).1 = resting accepting := by
  rw [finishingStep finishing e accepting down]
  have busy : s.isProtected = true := by cases finishing <;> rfl
  cases e with
  | recordingFinished r =>
    refine ⟨⟨fun _ => .inl ⟨r,rfl⟩,fun _ same => ?_⟩,fun _ same => ?_,fun _ same => ?_⟩
    · cases finishing <;> cases same
    · cases same
      rfl
    · cases same
  | recordingFailed reason =>
    exact ⟨⟨fun _ => .inr ⟨reason,rfl⟩,fun _ => restingApart accepting busy⟩,
      fun _ same => (by cases same),fun _ _ => rfl⟩
  | _ => simp

theorem leavesOnHook {s : State} (hung : HungUp s) (i : Input) (down : i.1 ≠ hookOff) :
    LeavesOnHook s i := by
  obtain ⟨e,accepting⟩ := i
  cases hung with
  | idle | paused =>
    cases accepting <;> cases e <;> first
      | exact .inl rfl
      | exact .inr rfl
      | exact absurd rfl down
  | finishing q => exact finishingLeaves .stopped e accepting down
  | timedOut q => exact finishingLeaves .timedOut e accepting down
  | uploading r q =>
    obtain ⟨ends,stays⟩ := uploadingStep r q e accepting down
    refine ⟨⟨fun left => ?_,fun ended => ?_⟩,ends⟩
    · by_contra other
      exact left (stays other)
    · rw [ends ended]
      exact restingApart accepting rfl

theorem runHungUp {s : State} (hung : HungUp s) {inputs : List Input}
    (down : ∀ i ∈ inputs, i.1 ≠ hookOff) :
    Machine.Throughout coreStep HungUp s inputs ∧
    Machine.EachStep coreStep (fun s i => Undisturbed (coreStep s i).2 ∧ LeavesOnHook s i) s inputs := by
  induction inputs generalizing s with
  | nil => exact ⟨hung,trivial⟩
  | cons i rest ih =>
    have still := down i List.mem_cons_self
    obtain ⟨rested,silent⟩ := stepHungUp (.inl hung) still
    obtain ⟨states,steps⟩ := ih rested fun j mem => down j (List.mem_cons_of_mem _ mem)
    exact ⟨⟨hung,states⟩,⟨silent,leavesOnHook hung i still⟩,steps⟩

def AtRest (s : State) : Prop := s = idle ∨ s = callsPaused true

theorem staysAtRest {s : State} (rested : AtRest s) (i : Input) (down : i.1 ≠ hookOff) :
    AtRest (coreStep s i).1 := by
  rcases rested with rfl | rfl
  · exact leavesOnHook .idle i down
  · exact leavesOnHook .paused i down

theorem restingAtRest (accepting : Bool) : AtRest (resting accepting) := by
  cases accepting
  · exact .inr rfl
  · exact .inl rfl

theorem hangUpForgets (s : State) (accepting : Bool) :
    (coreStep s (hookOn,accepting)).1.uploadInFlight = none := by
  cases s with
  | uploadingTimedOut r q pending => cases pending <;> cases accepting <;> rfl
  | _ => cases accepting <;> rfl

theorem answerThenUpload {s : State} (hung : HungUp s) (forgot : s.uploadInFlight = none)
    {e : Event} {r : RecordingId}
    (answer : e = recordingFinished r ∨ ∃ reason, e = recordingFailed reason)
    (outcome : UploadOutcome) (first second : Bool) :
    AtRest (coreRun s [(e,first),(uploadFinished r outcome,second)]) := by
  have down : e ≠ hookOff := by rcases answer with rfl | ⟨reason,rfl⟩ <;> simp
  have uploads : ∀ q, AtRest (coreStep (uploading r q true) (uploadFinished r outcome,second)).1 := by
    intro q
    rw [(uploadingStep r q _ second (by simp)).1 (.own outcome)]
    exact restingAtRest second
  have waited : ∀ {q}, Finishing q s →
      AtRest (coreRun s [(e,first),(uploadFinished r outcome,second)]) := by
    intro q finishing
    have next := finishingStep finishing e first down
    show AtRest (coreStep (coreStep s (e,first)).1 (uploadFinished r outcome,second)).1
    rw [next]
    rcases answer with rfl | ⟨reason,rfl⟩
    · exact uploads q
    · exact staysAtRest (restingAtRest first) _ (by simp)
  cases hung with
  | idle => exact staysAtRest (staysAtRest (.inl rfl) (e,first) down) _ (by simp)
  | paused => exact staysAtRest (staysAtRest (.inr rfl) (e,first) down) _ (by simp)
  | finishing q => exact waited .stopped
  | timedOut q => exact waited .timedOut
  | uploading r q => cases forgot

theorem hungUpComesToRest (s : State) (accepting : Bool) :
    (∀ inputs : List Input, (∀ i ∈ inputs, i.1 ≠ hookOff) →
      Undisturbed (coreStep s (hookOn,accepting)).2 ∧
      Machine.Throughout coreStep HungUp (coreStep s (hookOn,accepting)).1 inputs ∧
      Machine.EachStep coreStep (fun s i => Undisturbed (coreStep s i).2 ∧ LeavesOnHook s i)
        (coreStep s (hookOn,accepting)).1 inputs) ∧
    ∀ (e : Event) (r : RecordingId) (outcome : UploadOutcome) (first second : Bool),
      (e = recordingFinished r ∨ ∃ reason, e = recordingFailed reason) →
      AtRest (coreRun s [(hookOn,accepting),(e,first),(uploadFinished r outcome,second)]) := by
  obtain ⟨rested,silent⟩ := @stepHungUp s (hookOn,accepting) (.inr rfl) (by simp)
  refine ⟨fun inputs down => ⟨silent,runHungUp rested down⟩,?_⟩
  intro e r outcome first second answer
  exact answerThenUpload rested (hangUpForgets s accepting) answer outcome first second

theorem hangUpAnswerRests :
    Machine.Throughout coreStep HungUp (coreStep (recording "q") (hookOn,true)).1
      [(recordingFinished "r",false),(tick,true),(uploadFinished "r" .complete,true)] ∧
    AtRest (coreRun (recording "q")
      [(hookOn,true),(recordingFinished "r",false),(uploadFinished "r" .complete,true)]) := by
  obtain ⟨runs,ends⟩ := hungUpComesToRest (recording "q") true
  refine ⟨(runs _ ?_).2.1,ends _ _ _ _ _ (.inl rfl)⟩
  intro i mem
  simp only [List.mem_cons,List.not_mem_nil,or_false] at mem
  rcases mem with rfl | rfl | rfl <;> simp

def RepeatsQuietly (s : State) : Prop :=
  (s.onHook = true → (coreStep s (hookOn,true)).1 = s) ∧
  (s.onHook = false → coreStep s (hookOff,true) = (s,[]))

theorem ledUnchanged (s : State) : ledChange s s = [] := if_neg fun changed => changed rfl

theorem repeatsQuietlyIff {s : State} (playing : ∀ h, s ≠ callsPaused h) :
    RepeatsQuietly s ↔ ∀ r q, s ≠ uploading r q true := by
  constructor
  · rintro ⟨hangs,_⟩ r q rfl
    cases hangs rfl
  · intro other
    refine ⟨fun down => ?_,fun up => ?_⟩
    · cases s with
      | callsPaused h => exact absurd rfl (playing h)
      | uploading r q h =>
        obtain rfl : h = true := down
        exact absurd rfl (other r q)
      | idle => rfl
      | finishingRecording q h | finishingTimedOutRecording q h =>
        obtain rfl : h = true := down
        rfl
      | _ => cases down
    · have still : handleInner s hookOff = (s,[]) := by
        cases s with
        | callsPaused h => exact absurd rfl (playing h)
        | idle => cases up
        | uploading r q h | finishingRecording q h | finishingTimedOutRecording q h =>
          obtain rfl : h = false := up
          rfl
        | _ => rfl
      have open_ : handleAvailable s hookOff true = (s,[]) := (handleSettledOpen playing).trans still
      simp only [coreStep,handleWithCallAvailability,open_,ledUnchanged,List.append_nil]

def reconcileHook (s : State) : Input := (if s.onHook then hookOn else hookOff,true)

def rebuiltStep (s : State) : Option Input → State × List Effect
  | some i => coreStep s i
  | none => coreStep s (reconcileHook s)

def RebuiltAway (s : State) (i : Option Input) : Prop :=
  i = none → (∀ h, s ≠ callsPaused h) ∧ ∀ r q, s ≠ uploading r q true

theorem reconciledSame {s : State} (quiet : RepeatsQuietly s) :
    (coreStep s (reconcileHook s)).1 = s := by
  cases position : s.onHook with
  | true => simpa [reconcileHook,position] using quiet.1 position
  | false =>
    have nothing := quiet.2 position
    simp [reconcileHook,position,nothing]

theorem rebuildsUnseen {s : State} {inputs : List (Option Input)}
    (away : Machine.EachStep rebuiltStep RebuiltAway s inputs) :
    Machine.run rebuiltStep s inputs = coreRun s inputs.reduceOption := by
  induction inputs generalizing s with
  | nil => rfl
  | cons i rest ih =>
    obtain ⟨here,later⟩ := away
    have whole := ih later
    cases i with
    | some i => exact whole
    | none =>
      obtain ⟨playing,waits⟩ := here rfl
      have same : (rebuiltStep s none).1 = s := reconciledSame ((repeatsQuietlyIff playing).mpr waits)
      rw [same] at whole
      exact (congrArg (Machine.run rebuiltStep · rest) same).trans whole

theorem throughoutAll {holds : State → Prop} (all : ∀ s, holds s) (s : State)
    (inputs : List (Option Input)) : Machine.Throughout rebuiltStep holds s inputs := by
  induction inputs generalizing s with
  | nil => exact all s
  | cons i rest ih => exact ⟨all s,ih _⟩

/- In every state of every run the repetition is quiet exactly while no upload is waited for
on hook, and rebuilds that keep away from that wait leave no trace in the run. -/
theorem redundantHookQuiet (start : State) (inputs : List (Option Input)) :
    Machine.Throughout rebuiltStep (fun s => (∀ h, s ≠ callsPaused h) →
      (RepeatsQuietly s ↔ ∀ r q, s ≠ uploading r q true)) start inputs ∧
    (Machine.EachStep rebuiltStep RebuiltAway start inputs →
      Machine.run rebuiltStep start inputs = coreRun start inputs.reduceOption) :=
  ⟨throughoutAll (fun _ => repeatsQuietlyIff) start inputs,rebuildsUnseen⟩

theorem ringingRebuilt : Machine.run rebuiltStep idle
    [none,some (hookOff,true),none,some (digitDialed 1,true),none] = dialTone := by
  refine (redundantHookQuiet _ _).2 ?_
  refine ⟨?_,?_,?_,?_,?_,trivial⟩ <;> intro _ <;> exact ⟨nofun,nofun⟩

def answerFinished : List Input :=
  [(hookOff,true),(digitDialed 1,true),(questionReady "q",true),(playbackEnded,true),
    (playbackEnded,true),(playbackEnded,true),(hookOn,true),(recordingFinished "r",true)]

/- The repeated hang-up abandons the upload: its result will be dropped as that of another call. -/
theorem repeatedHangUpAbandons :
    coreRun idle answerFinished = uploading "r" "q" true ∧ (coreRun idle answerFinished).onHook = true ∧
    (coreStep (coreRun idle answerFinished) (hookOn,true)).1 = idle := by decide

end TelephoneBooth
