import Mathlib.Logic.Basic

/-! Partial transition functions and what holds along a run of them. A run is a list of
labels; it ends where a label is not enabled. -/
namespace TelephoneBooth.Transition

variable {σ ℓ : Type*} (step : σ → ℓ → Option σ)

def Along (holds : σ → ℓ → σ → Prop) : σ → List ℓ → Prop
  | _, [] => True
  | s, label :: rest =>
    match step s label with
    | none => True
    | some t => holds s label t ∧ Along holds t rest

instance (holds : σ → ℓ → σ → Prop) [decides : ∀ s label t, Decidable (holds s label t)] :
    ∀ s labels, Decidable (Along step holds s labels)
  | _, [] => isTrue trivial
  | s, label :: rest =>
    match enabled : step s label with
    | none => isTrue (by simp [Along,enabled])
    | some t =>
      have := instDecidableAlong holds t rest
      decidable_of_iff (holds s label t ∧ Along step holds t rest) (by simp [Along,enabled])

/- The state a run ends in, when every label of it is enabled. -/
def final : σ → List ℓ → Option σ
  | s, [] => some s
  | s, label :: rest => (step s label).bind fun t => final t rest

theorem along (invariant : σ → Prop) {allowed promise : σ → ℓ → σ → Prop}
    (keeps : ∀ s label t, step s label = some t → invariant s → allowed s label t →
      invariant t ∧ promise s label t)
    {s : σ} (initial : invariant s) {labels : List ℓ} (run : Along step allowed s labels) :
    Along step promise s labels := by
  induction labels generalizing s with
  | nil => trivial
  | cons label rest ih =>
    unfold Along at run ⊢
    cases enabled : step s label with
    | none => trivial
    | some t =>
      rw [enabled] at run
      obtain ⟨kept,held⟩ := keeps s label t enabled initial run.1
      exact ⟨held,ih kept run.2⟩

theorem alongAlways (s : σ) (labels : List ℓ) : Along step (fun _ _ _ => True) s labels := by
  induction labels generalizing s with
  | nil => trivial
  | cons label rest ih =>
    unfold Along
    split
    · trivial
    · exact ⟨trivial,ih _⟩

theorem alongLabels {allowed : ℓ → Prop} {labels : List ℓ} (all : ∀ label ∈ labels, allowed label)
    (s : σ) : Along step (fun _ label _ => allowed label) s labels := by
  induction labels generalizing s with
  | nil => trivial
  | cons label rest ih =>
    unfold Along
    split
    · trivial
    · exact ⟨all label List.mem_cons_self,
        ih (fun other mem => all other (List.mem_cons_of_mem _ mem)) _⟩

theorem alongPrefix {holds : σ → ℓ → σ → Prop} {s : σ} {before after : List ℓ}
    (run : Along step holds s (before ++ after)) : Along step holds s before := by
  induction before generalizing s with
  | nil => trivial
  | cons label rest ih =>
    rw [List.cons_append] at run
    unfold Along at run ⊢
    cases enabled : step s label with
    | none => trivial
    | some t =>
      rw [enabled] at run
      exact ⟨run.1,ih run.2⟩

theorem alongFinal {promise : σ → Prop} {s t : σ} {labels : List ℓ}
    (run : Along step (fun _ _ after => promise after) s labels) (initial : promise s)
    (ends_ : final step s labels = some t) : promise t := by
  induction labels generalizing s with
  | nil =>
    obtain rfl := Option.some.inj ends_
    exact initial
  | cons label rest ih =>
    obtain ⟨next,enabled,later⟩ := Option.bind_eq_some_iff.mp ends_
    unfold Along at run
    rw [enabled] at run
    exact ih run.2 run.1 later

theorem finalCons {s t : σ} {label : ℓ} (enabled : step s label = some t) (rest : List ℓ) :
    final step s (label :: rest) = final step t rest := by
  show (step s label).bind _ = _
  rw [enabled]
  rfl

theorem finalAppend {s t : σ} {before : List ℓ} (ends_ : final step s before = some t)
    (after : List ℓ) : final step s (before ++ after) = final step t after := by
  induction before generalizing s with
  | nil =>
    obtain rfl := Option.some.inj ends_
    rfl
  | cons label rest ih =>
    obtain ⟨next,enabled,later⟩ := Option.bind_eq_some_iff.mp ends_
    exact (finalCons step enabled _).trans (ih later)

theorem finalAlong (invariant : σ → Prop) {allowed : σ → ℓ → σ → Prop}
    (keeps : ∀ s label t, step s label = some t → invariant s → allowed s label t → invariant t)
    {s t : σ} (initial : invariant s) {labels : List ℓ} (run : Along step allowed s labels)
    (ends_ : final step s labels = some t) : invariant t := by
  have held : Along step (fun _ _ after => invariant after) s labels :=
    along step invariant (fun s label t enabled holds may =>
      have kept := keeps s label t enabled holds may
      ⟨kept,kept⟩) initial run
  exact alongFinal step held initial ends_

theorem finalInvariant (invariant : σ → Prop)
    (keeps : ∀ s label t, step s label = some t → invariant s → invariant t)
    {s t : σ} (initial : invariant s) {labels : List ℓ} (ends_ : final step s labels = some t) :
    invariant t :=
  finalAlong step invariant (fun s label t enabled holds _ => keeps s label t enabled holds) initial
    (alongAlways step s labels) ends_

/- A step function that does, through `abs`, what another does, ends where the other ends. -/
theorem finalSimulates {τ : Type*} (other : τ → ℓ → Option τ) (abs : σ → τ) (invariant : σ → Prop)
    (keeps : ∀ s label t, step s label = some t → invariant s →
      invariant t ∧ other (abs s) label = some (abs t))
    {s t : σ} (initial : invariant s) {labels : List ℓ} (ends_ : final step s labels = some t) :
    final other (abs s) labels = some (abs t) := by
  induction labels generalizing s with
  | nil =>
    obtain rfl := Option.some.inj ends_
    rfl
  | cons label rest ih =>
    obtain ⟨next,enabled,later⟩ := Option.bind_eq_some_iff.mp ends_
    obtain ⟨kept,same⟩ := keeps s label next enabled initial
    rw [finalCons other same]
    exact ih kept later

theorem finalMap {ℓ' : Type*} (other : σ → ℓ' → Option σ) (read : ℓ → ℓ')
    (same : ∀ s label t, step s label = some t → other s (read label) = some t)
    {s t : σ} {labels : List ℓ} (ends_ : final step s labels = some t) :
    final other s (labels.map read) = some t := by
  induction labels generalizing s with
  | nil => exact ends_
  | cons label rest ih =>
    obtain ⟨next,enabled,later⟩ := Option.bind_eq_some_iff.mp ends_
    rw [List.map_cons,finalCons other (same s label next enabled)]
    exact ih later

theorem finalChange (holds : σ → Prop) {s t : σ} {labels : List ℓ} (before : ¬holds s)
    (ends_ : final step s labels = some t) (after : holds t) :
    ∃ front label back u v, labels = front ++ label :: back ∧ final step s front = some u ∧
      step u label = some v ∧ final step v back = some t ∧ ¬holds u ∧ holds v := by
  induction labels generalizing s with
  | nil =>
    obtain rfl := Option.some.inj ends_
    exact absurd after before
  | cons label rest ih =>
    obtain ⟨next,enabled,later⟩ := Option.bind_eq_some_iff.mp ends_
    by_cases now : holds next
    · exact ⟨[],label,rest,s,next,rfl,rfl,enabled,later,before,now⟩
    · obtain ⟨front,other,back,u,v,rfl,run,steps,back_,off,on⟩ := ih now later
      exact ⟨label :: front,other,back,u,v,rfl,(finalCons step enabled front).trans run,steps,back_,
        off,on⟩

end TelephoneBooth.Transition
