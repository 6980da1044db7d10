import TelephoneBooth.Transition

/-! Bounded retries. A loop asks again after some replies and at most `limit` times; whatever
happens, its replies are those that made it ask again and the one it ended with. A machine whose
inputs are such last replies is simulated by one that takes every reply. -/
namespace TelephoneBooth.Retry

variable {ρ σ : Type*} (again : ρ → Bool) (limit : Nat)

/- Whether the loop asks again after the reply to attempt number `attempt`, counted from one. -/
def asks (attempt : Nat) (reply : ρ) : Bool := again reply && decide (attempt < limit)

structure Loop (replies : List ρ) (reply : ρ) : Prop where
  ends : replies.getLast? = some reply
  before : ∀ early ∈ replies.dropLast, again early = true
  bounded : replies.length ≤ limit
  reason : again reply = false ∨ replies.length = limit

structure Open (attempt : Nat) (replies : List ρ) : Prop where
  asked : ∀ reply ∈ replies, again reply = true
  next : attempt = replies.length + 1
  room : attempt ≤ limit

variable {again limit}

theorem Open.start (positive : 1 ≤ limit) : Open again limit 1 [] :=
  ⟨fun _ mem => absurd mem List.not_mem_nil,rfl,positive⟩

theorem Open.empty {attempt : Nat} {replies : List ρ}
    (unfinished : Open again limit attempt replies) (first : attempt = 1) : replies = [] := by
  have next := unfinished.next
  exact List.eq_nil_of_length_eq_zero (by omega)

theorem Open.ask {attempt : Nat} {replies : List ρ} {reply : ρ}
    (unfinished : Open again limit attempt replies)
    (more : asks again limit attempt reply = true) :
    Open again limit (attempt + 1) (replies ++ [reply]) := by
  unfold asks at more
  rw [Bool.and_eq_true,decide_eq_true_eq] at more
  refine ⟨fun early mem => ?_,by simp [unfinished.next],more.2⟩
  rcases List.mem_append.mp mem with old | new
  · exact unfinished.asked early old
  · rw [List.mem_singleton.mp new]
    exact more.1

theorem Open.close {attempt : Nat} {replies : List ρ} {reply : ρ}
    (unfinished : Open again limit attempt replies)
    (done : asks again limit attempt reply = false) : Loop again limit (replies ++ [reply]) reply := by
  have next := unfinished.next
  have room := unfinished.room
  refine ⟨by simp,?_,?_,?_⟩
  · rw [List.dropLast_concat]
    exact unfinished.asked
  · rw [List.length_append,List.length_singleton]
    omega
  · unfold asks at done
    rw [Bool.and_eq_false_iff,decide_eq_false_iff_not] at done
    refine done.imp_right fun full => ?_
    rw [List.length_append,List.length_singleton]
    omega

theorem Loop.positive {replies : List ρ} {reply : ρ} (loop : Loop again limit replies reply) :
    0 < replies.length := by
  cases replies with
  | nil => cases loop.ends
  | cons => exact Nat.succ_pos _

section Simulation
variable (again limit) (step : σ → ρ → Option σ)

def retried : σ × Nat → ρ → Option (σ × Nat)
  | (s,attempt), reply => (step s reply).map fun t =>
    if asks again limit attempt reply then (s,attempt + 1) else (t,1)

variable {again limit step}

theorem retriedEq (s : σ) (attempt : Nat) (reply : ρ) :
    retried again limit step (s,attempt) reply = (step s reply).map fun t =>
      if asks again limit attempt reply then (s,attempt + 1) else (t,1) := rfl

theorem retriedSplits {s t : σ} {attempt attempt' : Nat} {before replies : List ρ}
    (positive : 1 ≤ limit) (unfinished : Open again limit attempt before)
    (ends_ : Transition.final (retried again limit step) (s,attempt) replies = some (t,attempt')) :
    ∃ (loops : List (List ρ × ρ)) (rest : List ρ),
      before ++ replies = (loops.map Prod.fst).flatten ++ rest ∧
      (∀ loop ∈ loops, Loop again limit loop.1 loop.2) ∧ Open again limit attempt' rest ∧
      Transition.final step s (loops.map Prod.snd) = some t := by
  induction replies generalizing s attempt before with
  | nil =>
    cases ends_
    exact ⟨[],before,by simp,fun _ mem => absurd mem List.not_mem_nil,unfinished,rfl⟩
  | cons reply rest ih =>
    obtain ⟨⟨middle,number⟩,stepped,later⟩ := Option.bind_eq_some_iff.mp ends_
    obtain ⟨next,enabled,same⟩ := Option.map_eq_some_iff.mp stepped
    cases more : asks again limit attempt reply with
    | true =>
      rw [more,if_pos rfl] at same
      cases same
      have := ih (unfinished.ask more) later
      rwa [List.append_assoc] at this
    | false =>
      rw [more,if_neg (by simp)] at same
      cases same
      obtain ⟨loops,open_,splits,whole,left,coarse⟩ := ih (Open.start positive) later
      refine ⟨(before ++ [reply],reply) :: loops,open_,?_,?_,left,?_⟩
      · rw [List.nil_append] at splits
        simp [splits]
      · intro loop mem
        rcases List.mem_cons.mp mem with rfl | mem
        · exact unfinished.close more
        · exact whole loop mem
      · rw [List.map_cons,Transition.finalCons step enabled]
        exact coarse

end Simulation

end TelephoneBooth.Retry
