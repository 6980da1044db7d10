import TelephoneBooth.Installation

/-! `ExhibitionOperator`: every operator call of the runtime goes through the installation gate.
Any number of calls are in flight while probes, conflicts and time move the gate. -/
namespace TelephoneBooth.GatedCalls

inductive Method where
  | installationState | putSystemSnapshot
  | randomQuestion | randomQuestionWithDrawId | randomMessage | randomInstruction
  | initUpload | putUpload | completeUpload | putStatus | pushEventsJson
  deriving DecidableEq, Repr

namespace Method

def gated : Method → Bool
  | .installationState | .putSystemSnapshot => false
  | _ => true

def fetches : Method → Bool
  | .randomQuestion | .randomQuestionWithDrawId | .randomMessage | .randomInstruction => true
  | _ => false

end Method

/- `reached` is whether the call was passed on. `answer`, `before` and `after` are histories: what
came back, and what had happened when the call was made and when it returned. -/
structure GatedCall (α : Type) where
  method : Method
  reached : Bool
  result : Option (Except OperatorError α)
  answer : Option (Except OperatorError α)
  before : List Happening
  after : List Happening

structure Exhibition (α : Type) where
  life : Lifecycle
  calls : List (GatedCall α)

inductive ExhibitionLabel (α : Type) where
  | gate (label : LifecycleLabel)
  | call (method : Method)
  | answer (index : Nat) (answer : Except OperatorError α)

namespace Exhibition
variable {α : Type}

def boot (reconcile : Bool) (now : Nat) : Exhibition α := ⟨.boot reconcile now,[]⟩

def forget (answer : Except OperatorError α) : Except OperatorError Unit := answer.map fun _ => ()

def handOut (life : Lifecycle) (method : Method) : Except OperatorError α → Except OperatorError α
  | .error error => .error error
  | .ok value =>
    if method.fetches then
      match life.gate.check life.now with
      | .ok _ => .ok value
      | .error error => .error error
    else .ok value

def make (s : Exhibition α) (method : Method) : GatedCall α :=
  let refusal := if method.gated then s.life.gate.check s.life.now else .ok ()
  match refusal with
  | .ok _ => ⟨method,true,none,none,s.life.past,[]⟩
  | .error error => ⟨method,false,some (.error error),none,s.life.past,s.life.past⟩

def tell (life : Lifecycle) (method : Method) (answer : Except OperatorError α) : Option Lifecycle :=
  if method.gated then life.step (.observe (forget answer)) else some life

def step (s : Exhibition α) : ExhibitionLabel α → Option (Exhibition α)
  | .gate label => (s.life.step label).map fun life => { s with life }
  | .call method => some { s with calls := s.calls ++ [s.make method] }
  | .answer index answer => do
    let c ← s.calls[index]?
    if c.reached ∧ c.result.isNone then
      (tell s.life c.method answer).map fun life => ⟨life,s.calls.set index { c with
        result := some (handOut life c.method answer)
        answer := some answer
        after := life.past }⟩
    else none

end Exhibition

def Reopened (past : List Happening) : Prop :=
  ∀ n, .inactive n ∈ past → ∃ began ended result, .ended began ended result ∈ past ∧ n < began ∧
    (result = .ok (some .active) ∨ result = .ok none)

theorem acceptingReopened {life : Lifecycle} (held : LifecycleInvariant life)
    (accepting : life.gate.acceptingCalls life.now = true) : Reopened life.past := by
  have open_ : life.gate.state.mode ≠ .betweenExhibitions := by
    rcases acceptingCases accepting with mode | ⟨mode,_⟩ <;> simp [mode]
  intro n conflict
  obtain ⟨began,ended,result,mem,after,opened⟩ := held.sticky n conflict open_
  refine ⟨began,ended,result,mem,after,?_⟩
  unfold reopens at opened
  split at opened
  · exact .inl rfl
  · exact .inr rfl
  · cases opened

structure CallSound {α : Type} (c : GatedCall α) : Prop where
  ungated : c.method.gated = false → c.reached = true
  admitted : c.method.gated = true → c.reached = true → Reopened c.before
  refused : c.reached = false → c.answer = none ∧ ∃ error, c.result = some (.error error)
  passed : c.reached = true → c.result = c.answer ∨ c.method.fetches = true ∧
    ∃ value error, c.answer = some (.ok value) ∧ c.result = some (.error error)
  clip : c.method.fetches = true → ∀ value, c.result = some (.ok value) → Reopened c.after
  conflict : c.method.gated = true → ∀ detail, c.answer = some (.error (.installationInactive detail)) →
    ∃ n, .inactive n ∈ c.after ∧ .inactive n ∉ c.before

namespace Exhibition
variable {α : Type}

theorem checkAccepts {gate : InstallationGate} {now : Nat} (passed : gate.check now = .ok ()) :
    gate.acceptingCalls now = true := by
  unfold InstallationGate.acceptingCalls
  rw [passed]

theorem makeSound {s : Exhibition α} (held : LifecycleInvariant s.life) (method : Method) :
    CallSound (s.make method) ∧ (s.make method).before = s.life.past := by
  unfold make
  cases gated : method.gated with
  | false =>
    refine ⟨⟨fun _ => rfl,?_,fun no_ => (by cases no_),fun _ => .inl rfl,
      fun _ _ same => (by cases same),
      fun _ _ same => (by cases same)⟩,rfl⟩
    exact fun yes => absurd (gated.symm.trans yes) (by simp)
  | true =>
    simp only [if_true]
    cases checked : s.life.gate.check s.life.now with
    | ok _ =>
      refine ⟨⟨fun _ => rfl,fun _ _ => ?_,fun no_ => (by cases no_),fun _ => .inl rfl,
        fun _ _ same => (by cases same),fun _ _ same => (by cases same)⟩,rfl⟩
      exact acceptingReopened held (checkAccepts checked)
    | error error =>
      refine ⟨⟨?_,fun _ yes => (by cases yes),fun _ => ⟨rfl,error,rfl⟩,fun yes => (by cases yes),
        fun _ _ same => (by cases same),fun _ _ same => (by cases same)⟩,rfl⟩
      exact fun no_ => absurd (gated.symm.trans no_) (by simp)

theorem handOutCases (life : Lifecycle) (method : Method) (answer : Except OperatorError α) :
    handOut life method answer = answer ∨ method.fetches = true ∧
      ∃ value error, answer = .ok value ∧ handOut life method answer = .error error := by
  unfold handOut
  cases answer with
  | error error => exact .inl rfl
  | ok value =>
    cases fetches : method.fetches with
    | false => exact .inl rfl
    | true =>
      cases checked : life.gate.check life.now with
      | ok _ => exact .inl rfl
      | error error => exact .inr ⟨rfl,value,error,rfl,rfl⟩

theorem handOutClip {life : Lifecycle} {method : Method} {answer : Except OperatorError α} {value : α}
    (fetches : method.fetches = true) (clip : handOut life method answer = .ok value) :
    life.gate.acceptingCalls life.now = true := by
  unfold handOut at clip
  cases answer with
  | error error => cases clip
  | ok _ =>
    simp only [fetches,if_true] at clip
    cases checked : life.gate.check life.now with
    | ok _ => exact checkAccepts checked
    | error error =>
      rw [checked] at clip
      cases clip

structure CallsSound (s : Exhibition α) : Prop where
  life : LifecycleInvariant s.life
  calls : ∀ c ∈ s.calls, CallSound c
  numbered : ∀ c ∈ s.calls, ∀ n, .inactive n ∈ c.before → n < s.life.steps

theorem answerSound {s : Exhibition α} {c : GatedCall α} {life : Lifecycle}
    {answer : Except OperatorError α} (sound : CallSound c) (reached : c.reached = true)
    (numbered : ∀ n, .inactive n ∈ c.before → n < s.life.steps) (held : LifecycleInvariant life)
    (told : tell s.life c.method answer = some life) :
    CallSound { c with
      result := some (handOut life c.method answer)
      answer := some answer
      after := life.past } := by
  refine ⟨sound.ungated,sound.admitted,fun no_ => absurd (reached.symm.trans no_) (by simp),
    fun _ => ?_,fun fetches value clip => ?_,fun gated detail conflict => ?_⟩
  · rcases handOutCases life c.method answer with same | ⟨fetches,value,error,ok,refused⟩
    · exact .inl (congrArg some same)
    · exact .inr ⟨fetches,value,error,congrArg some ok,congrArg some refused⟩
  · exact acceptingReopened held (handOutClip fetches (Option.some.inj clip))
  · obtain rfl := Option.some.inj conflict
    rw [tell,if_pos gated] at told
    cases told
    refine ⟨s.life.steps,List.mem_cons_self,fun old => ?_⟩
    exact absurd (numbered _ old) (Nat.lt_irrefl _)

theorem tellHeld {life after : Lifecycle} {method : Method} {answer : Except OperatorError α}
    (told : tell life method answer = some after) (held : LifecycleInvariant life) :
    LifecycleInvariant after ∧ life.steps ≤ after.steps := by
  unfold tell at told
  split at told
  · have stepped := lifecycleStep told
    refine ⟨stepLifecycle stepped held,?_⟩
    rw [stepped.steps]
    exact Nat.le_succ _
  · cases told
    exact ⟨held,Nat.le_refl _⟩

theorem stepCalls {s t : Exhibition α} {label : ExhibitionLabel α} (taken : s.step label = some t)
    (before : CallsSound s) : CallsSound t := by
  cases label with
  | gate label =>
    obtain ⟨life,moved,same⟩ := Option.map_eq_some_iff.mp taken
    cases same
    have stepped := lifecycleStep moved
    refine ⟨stepLifecycle stepped before.life,before.calls,fun c mem n conflict => ?_⟩
    rw [stepped.steps]
    exact Nat.lt_succ_of_lt (before.numbered c mem n conflict)
  | call method =>
    cases taken
    obtain ⟨sound,past⟩ := makeSound before.life method
    refine ⟨before.life,fun c mem => ?_,fun c mem n conflict => ?_⟩ <;>
      rcases List.mem_append.mp mem with old | new
    · exact before.calls c old
    · rw [List.mem_singleton.mp new]
      exact sound
    · exact before.numbered c old n conflict
    · rw [List.mem_singleton.mp new,past] at conflict
      exact before.life.numbered n conflict
  | answer index answer =>
    obtain ⟨c,found,taken⟩ := Option.bind_eq_some_iff.mp taken
    split at taken
    · rename_i flying
      obtain ⟨life,told,same⟩ := Option.map_eq_some_iff.mp taken
      cases same
      have mem : c ∈ s.calls := List.mem_of_getElem? found
      obtain ⟨held,later⟩ := tellHeld told before.life
      have here := answerSound (before.calls c mem) flying.1 (before.numbered c mem) held told
      refine ⟨held,fun d inside => ?_,fun d inside n conflict => ?_⟩ <;>
        rcases List.mem_or_eq_of_mem_set inside with old | rfl
      · exact before.calls d old
      · exact here
      · exact Nat.lt_of_lt_of_le (before.numbered d old n conflict) later
      · exact Nat.lt_of_lt_of_le (before.numbered c mem n conflict) later
    · cases taken

/- Over every interleaving of operator calls, probes, conflicts and time: a gated call reaches the
operator, and a fetch hands out a clip, only if every conflict known by then was followed by a
probe that found the exhibition again; results are passed on unchanged but for clips withheld; a
conflict among them is recorded; system snapshots and probes always go through. -/
theorem exhibitionGatesCalls (reconcile : Bool) (now : Nat) (labels : List (ExhibitionLabel α))
    (s : Exhibition α) (ends_ : Transition.final step (boot reconcile now) labels = some s) :
    ∀ c ∈ s.calls, CallSound c :=
  (Transition.finalInvariant step CallsSound (fun _ _ _ taken before => stepCalls taken before)
    ⟨bootLifecycle reconcile now,fun _ mem => absurd mem List.not_mem_nil,
      fun _ mem => absurd mem List.not_mem_nil⟩ ends_).calls

def conflictMeanwhile : List (ExhibitionLabel String) :=
  [.gate .probeStart,.gate (.probeEnd 0 (.ok (some .active))),.call .randomMessage,.call .putStatus,
    .answer 1 (.error (.installationInactive "gap")),.answer 0 (.ok "clip"),.call .initUpload,
    .gate .probeStart,.gate (.probeEnd 0 (.ok (some .active))),.call .initUpload]

theorem conflictMeanwhileGated : ∃ s, Transition.final step (boot true 0) conflictMeanwhile = some s ∧
    (∀ c ∈ s.calls, CallSound c) ∧ s.calls.map (·.reached) = [true,true,false,true] ∧
    s.calls.head?.bind (·.result) = some (.error (.installationInactive
      "waiting for an operator to start the next exhibition")) :=
  ⟨_,rfl,exhibitionGatesCalls true 0 conflictMeanwhile _ rfl,rfl,rfl⟩

end Exhibition
end TelephoneBooth.GatedCalls
