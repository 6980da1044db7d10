import Mathlib.Data.List.Infix
import Mathlib.Logic.Basic

/-! Deterministic machines that answer every input with an output, and the rules
by which a property of one step becomes a property of a whole run. -/
namespace TelephoneBooth.Machine

variable {σ ι ω : Type*} (step : σ → ι → σ × ω)

def run (s : σ) : List ι → σ
  | [] => s
  | i :: rest => run (step s i).1 rest

theorem runAppend (s : σ) (xs ys : List ι) :
    run step s (xs ++ ys) = run step (run step s xs) ys := by
  induction xs generalizing s with
  | nil => rfl
  | cons i rest ih => exact ih _

theorem runSnoc (s : σ) (xs : List ι) (i : ι) :
    run step s (xs ++ [i]) = (step (run step s xs) i).1 := by
  rw [runAppend]; rfl

theorem runInvariant (holds : σ → Prop) (allowed : ι → Prop)
    (keeps : ∀ s i, allowed i → holds s → holds (step s i).1)
    {s : σ} (initial : holds s) {inputs : List ι} (all : ∀ i ∈ inputs, allowed i) :
    holds (run step s inputs) := by
  induction inputs generalizing s with
  | nil => exact initial
  | cons i rest ih =>
    exact ih (keeps s i (all i List.mem_cons_self) initial)
      (fun j mem => all j (List.mem_cons_of_mem _ mem))

theorem lastEntry (holds : σ → Prop) {s : σ} {inputs : List ι}
    (outside : ¬ holds s) (inside : holds (run step s inputs)) :
    ∃ before i after, inputs = before ++ i :: after ∧ ¬ holds (run step s before) ∧
      ∀ part, part <+: after → holds (run step s (before ++ i :: part)) := by
  induction inputs using List.reverseRecOn with
  | nil => exact absurd inside outside
  | append_singleton front i ih =>
    by_cases early : holds (run step s front)
    · obtain ⟨before,j,after,same,absent,later⟩ := ih early
      refine ⟨before,j,after ++ [i],by simp [same],absent,?_⟩
      intro part shorter
      rcases List.prefix_concat_iff.mp shorter with rfl | inner
      · simpa [same] using inside
      · exact later part inner
    · refine ⟨front,i,[],by simp,early,?_⟩
      intro part shorter
      obtain rfl := List.prefix_nil.mp shorter
      simpa using inside

section Ghost
variable {γ : Type*} (note : γ → σ → ι → γ)

def observed (s : σ × γ) (i : ι) : (σ × γ) × ω :=
  (((step s.1 i).1,note s.2 s.1 i),(step s.1 i).2)

theorem observedRun (s : σ) (g : γ) (inputs : List ι) :
    (run (observed step note) (s,g) inputs).1 = run step s inputs := by
  induction inputs generalizing s g with
  | nil => rfl
  | cons i rest ih => exact ih _ _

end Ghost

section Throughout

def Throughout (holds : σ → Prop) : σ → List ι → Prop
  | s, [] => holds s
  | s, i :: rest => holds s ∧ Throughout holds (step s i).1 rest

def EachStep (good : σ → ι → Prop) : σ → List ι → Prop
  | _, [] => True
  | s, i :: rest => good s i ∧ EachStep good (step s i).1 rest

instance decidableEachStep {good : σ → ι → Prop} [∀ s i, Decidable (good s i)] (s : σ) :
    (inputs : List ι) → Decidable (EachStep step good s inputs)
  | [] => isTrue trivial
  | i :: rest =>
    have : Decidable (EachStep step good (step s i).1 rest) := decidableEachStep (step s i).1 rest
    inferInstanceAs (Decidable (good s i ∧ EachStep step good (step s i).1 rest))

theorem throughoutIff {holds : σ → Prop} {good : σ → ι → Prop}
    (exact_ : ∀ s i, holds s → (holds (step s i).1 ↔ good s i)) {s : σ} (initial : holds s)
    (inputs : List ι) : Throughout step holds s inputs ↔ EachStep step good s inputs := by
  induction inputs generalizing s with
  | nil => exact ⟨fun _ => trivial,fun _ => initial⟩
  | cons i rest ih =>
    constructor
    · rintro ⟨_,later⟩
      have next : holds (step s i).1 := by
        cases rest with
        | nil => exact later
        | cons => exact later.1
      exact ⟨(exact_ s i initial).mp next,(ih next).mp later⟩
    · rintro ⟨first,later⟩
      have next := (exact_ s i initial).mpr first
      exact ⟨initial,(ih next).mpr later⟩

theorem eachStepIff {holds : σ → Prop} {good better : σ → ι → Prop}
    (keeps : ∀ s i, holds s → holds (step s i).1)
    (alike : ∀ s i, holds s → (good s i ↔ better s i)) {s : σ} (initial : holds s)
    (inputs : List ι) : EachStep step good s inputs ↔ EachStep step better s inputs := by
  induction inputs generalizing s with
  | nil => exact Iff.rfl
  | cons i rest ih => exact and_congr (alike s i initial) (ih (keeps s i initial))

theorem eachStepOf {holds : σ → Prop} {good : σ → ι → Prop}
    (keeps : ∀ s i, holds s → holds (step s i).1) (gives : ∀ s i, holds s → good s i)
    {s : σ} (initial : holds s) (inputs : List ι) : EachStep step good s inputs := by
  induction inputs generalizing s with
  | nil => exact trivial
  | cons i rest ih => exact ⟨gives s i initial,ih (keeps s i initial)⟩

theorem observedSteps {γ : Type*} (note : γ → σ → ι → γ) (good : σ → ι → Prop) (s : σ) (g : γ)
    (inputs : List ι) : EachStep (observed step note) (fun s i => good s.1 i) (s,g) inputs ↔
      EachStep step good s inputs := by
  induction inputs generalizing s g with
  | nil => exact Iff.rfl
  | cons i rest ih => exact and_congr_right fun _ => ih _ _

end Throughout

section Lockstep
variable {κ : Type*} (left right : κ → ι) (inside : σ → Prop) (related : σ → σ → Prop)
  (alike : ω → ω → Prop)

/- Two runs on paired inputs answer alike at every step up to the one at which they leave
`inside`; they leave it together and stay related until they do. -/
def Lockstep : σ → σ → List κ → Prop
  | _, _, [] => True
  | s, t, k :: rest =>
    alike (step s (left k)).2 (step t (right k)).2 ∧
    (inside (step s (left k)).1 ↔ inside (step t (right k)).1) ∧
    (inside (step s (left k)).1 →
      related (step s (left k)).1 (step t (right k)).1 ∧
      Lockstep (step s (left k)).1 (step t (right k)).1 rest)

theorem runLockstep
    (keeps : ∀ s t k, inside s → inside t → related s t →
      alike (step s (left k)).2 (step t (right k)).2 ∧
      (inside (step s (left k)).1 ↔ inside (step t (right k)).1) ∧
      (inside (step s (left k)).1 → related (step s (left k)).1 (step t (right k)).1))
    {s t : σ} (here : inside s) (there : inside t) (initial : related s t) (inputs : List κ) :
    Lockstep step left right inside related alike s t inputs := by
  induction inputs generalizing s t with
  | nil => exact True.intro
  | cons k rest ih =>
    obtain ⟨answers,together,stays⟩ := keeps s t k here there initial
    exact ⟨answers,together,fun still =>
      ⟨stays still,ih still (together.mp still) (stays still)⟩⟩

end Lockstep

end TelephoneBooth.Machine
