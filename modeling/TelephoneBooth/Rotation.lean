import Mathlib.Data.List.Rotate
import Mathlib.Data.List.Sort

/-! Sweeps over keyed items in a cyclic order. A sweep starts after the key it last came to,
attempts items one by one and may stop early; items may leave between two attempts, and none
join. An item that is passed over has fewer items before it in the next sweep. -/
namespace TelephoneBooth.Rotation

variable {α β : Type*} [LinearOrder β]

def Before (last : Option β) (a b : β) : Prop :=
  match last with
  | none => a < b
  | some l => if l < b then l < a ∧ a < b else l < a ∨ a < b

instance (last : Option β) (a b : β) : Decidable (Before last a b) := by
  unfold Before
  split
  · infer_instance
  · split <;> infer_instance

theorem beforeAhead {l b : β} (ahead : l < b) (a : β) :
    Before (some l) a b ↔ l < a ∧ a < b := by
  show (if l < b then _ else _) ↔ _
  rw [if_pos ahead]

theorem beforeBehind {l b : β} (behind : ¬ l < b) (a : β) :
    Before (some l) a b ↔ l < a ∨ a < b := by
  show (if l < b then _ else _) ↔ _
  rw [if_neg behind]

theorem beforeIrrefl (last : Option β) (a : β) : ¬ Before last a a := by
  cases last with
  | none => exact lt_irrefl a
  | some l =>
    by_cases ahead : l < a
    · exact fun before => lt_irrefl a ((beforeAhead ahead a).mp before).2
    · exact fun before => ((beforeBehind ahead a).mp before).elim ahead (lt_irrefl a)

theorem beforePassed (middle b : β) : ¬ Before (some middle) middle b := by
  by_cases ahead : middle < b
  · exact fun before => lt_irrefl middle ((beforeAhead ahead middle).mp before).1
  · exact fun before => ((beforeBehind ahead middle).mp before).elim (lt_irrefl middle) ahead

theorem beforeShrinks {last : Option β} {middle a b : β} (passed : Before last middle b)
    (before : Before (some middle) a b) : Before last a b := by
  cases last with
  | none => exact ((beforeAhead passed a).mp before).2
  | some l =>
    by_cases ahead : l < b
    · obtain ⟨high,low⟩ := (beforeAhead ahead middle).mp passed
      obtain ⟨above,below⟩ := (beforeAhead low a).mp before
      exact (beforeAhead ahead a).mpr ⟨high.trans above,below⟩
    · rw [beforeBehind ahead] at passed ⊢
      by_cases low : middle < b
      · exact .inr ((beforeAhead low a).mp before).2
      · have high : l < middle := passed.resolve_right low
        exact ((beforeBehind low a).mp before).imp_left high.trans

variable (key : α → β)

def rotateAfter (last : Option β) (items : List α) : List α :=
  match last with
  | none => items
  | some l => items.rotate ((items.findIdx? fun x => decide (l < key x)).getD 0)

theorem rotateAfterPerm (last : Option β) (items : List α) :
    (rotateAfter key last items).Perm items := by
  unfold rotateAfter
  split
  · exact .refl _
  · exact List.rotate_perm _ _

theorem rotateAfterBefore (last : Option β) {items : List α}
    (sorted : items.Pairwise fun a b => key a < key b) :
    (rotateAfter key last items).Pairwise fun a b => Before last (key a) (key b) := by
  cases last with
  | none => exact sorted
  | some l =>
    change (items.rotate _).Pairwise _
    cases found : items.findIdx? fun x => decide (l < key x) with
    | none =>
      have low := List.findIdx?_eq_none_iff.mp found
      rw [Option.getD_none,List.rotate_zero]
      refine sorted.imp_of_mem fun {a b} _ mem less => ?_
      exact (beforeBehind (by simpa using low b mem) _).mpr (.inr less)
    | some i =>
      obtain ⟨inside,high,first⟩ := List.findIdx?_eq_some_iff_getElem.mp found
      have above (x) (mem : x ∈ items.drop i) : l < key x := by
        obtain ⟨j,bound,rfl⟩ := List.mem_iff_getElem.mp mem
        rw [List.getElem_drop]
        have start : l < key items[i] := of_decide_eq_true high
        rcases Nat.eq_zero_or_pos j with rfl | later
        · exact start
        · refine start.trans (List.pairwise_iff_getElem.mp sorted i (i + j) inside ?_ ?_)
          · rw [List.length_drop] at bound
            omega
          · omega
      have below (x) (mem : x ∈ items.take i) : ¬ l < key x := by
        obtain ⟨j,bound,rfl⟩ := List.mem_iff_getElem.mp mem
        rw [List.getElem_take]
        rw [List.length_take] at bound
        simpa using first j (by omega)
      rw [Option.getD_some,List.rotate_eq_drop_append_take (Nat.le_of_lt inside)]
      refine List.pairwise_append.mpr ⟨?_,?_,?_⟩
      · refine (sorted.sublist (List.drop_sublist i items)).imp_of_mem fun {a b} memA memB less => ?_
        exact (beforeAhead (above b memB) _).mpr ⟨above a memA,less⟩
      · refine (sorted.sublist (List.take_sublist i items)).imp_of_mem fun {a b} _ memB less => ?_
        exact (beforeBehind (below b memB) _).mpr (.inr less)
      · intro a memA b memB
        exact (beforeBehind (below b memB) _).mpr (.inl (above a memA))

structure Sweep (last : Option β) (items attempts : List α) (next : Option β)
    (left_ : List α) : Prop where
  order : ∃ rest, (attempts ++ rest).Perm items ∧
    (attempts ++ rest).Pairwise fun a b => Before last (key a) (key b)
  progress : items ≠ [] → attempts ≠ []
  anchor : ∀ x, attempts.getLast? = some x → next = some (key x)
  fewer : left_.Sublist items
  kept : ∀ x ∈ items, x ∉ attempts → x ∈ left_

inductive Sweeps (last : Option β) (items : List α) :
    List (List α) → Option β → List α → Prop where
  | start : Sweeps last items [] last items
  | next {history between now attempts after left_}
      (before : Sweeps last items history between now)
      (sweep : Sweep key between now attempts after left_) :
      Sweeps last items (attempts :: history) after left_

def waiting (last : Option β) (items : List α) (b : β) : List α :=
  items.filter fun x => Before last (key x) b

variable {key} {last next : Option β} {items attempts left_ : List α} {history : List (List α)}

theorem Sweep.once (sweep : Sweep key last items attempts next left_) :
    (attempts.map key).Nodup := by
  obtain ⟨rest,_,ordered⟩ := sweep.order
  have front := (List.pairwise_append.mp ordered).1
  refine List.pairwise_map.mpr (front.imp fun before same => ?_)
  rw [same] at before
  exact beforeIrrefl last _ before

theorem waitingFew {x : α} (mem : x ∈ items) :
    (waiting key last items (key x)).length < items.length := by
  refine List.length_filter_lt_length_iff_exists.mpr ⟨x,mem,?_⟩
  simpa using beforeIrrefl last (key x)

theorem Sweep.sooner (sweep : Sweep key last items attempts next left_) {x : α}
    (mem : x ∈ items) (skipped : x ∉ attempts) :
    (waiting key next left_ (key x)).length <
      (waiting key last items (key x)).length := by
  obtain ⟨rest,same,ordered⟩ := sweep.order
  have some_ : attempts ≠ [] := sweep.progress (List.ne_nil_of_mem mem)
  have latest := List.getLast?_eq_some_getLast some_
  have attempted := List.getLast_mem some_
  have later : x ∈ rest :=
    (List.mem_append.mp (same.mem_iff.mpr mem)).resolve_left skipped
  have passed : Before last (key (attempts.getLast some_)) (key x) :=
    (List.pairwise_append.mp ordered).2.2 _ attempted x later
  rw [sweep.anchor _ latest]
  have shrinks : (waiting key (some (key (attempts.getLast some_))) items (key x)) =
      (waiting key last items (key x)).filter fun y =>
        Before (some (key (attempts.getLast some_))) (key y) (key x) := by
    unfold waiting
    rw [List.filter_filter]
    refine List.filter_congr fun y _ => ?_
    rw [Bool.and_eq_left_iff_imp.mpr]
    simpa using beforeShrinks passed
  calc (waiting key (some (key (attempts.getLast some_))) left_ (key x)).length
      ≤ (waiting key (some (key (attempts.getLast some_))) items (key x)).length :=
        (sweep.fewer.filter _).length_le
    _ < (waiting key last items (key x)).length := by
        rw [shrinks]
        refine List.length_filter_lt_length_iff_exists.mpr ⟨attempts.getLast some_,?_,?_⟩
        · refine List.mem_filter.mpr ⟨same.mem_iff.mp (List.mem_append_left _ attempted),?_⟩
          simpa using passed
        · simpa using beforePassed (key (attempts.getLast some_)) (key x)

theorem Sweeps.once (sweeps : Sweeps key last items history next left_) :
    ∀ attempts ∈ history, (attempts.map key).Nodup := by
  induction sweeps with
  | start => exact nofun
  | next _ sweep ih =>
    intro attempts mem
    rcases List.mem_cons.mp mem with rfl | earlier
    · exact sweep.once
    · exact ih attempts earlier

theorem Sweeps.fair (sweeps : Sweeps key last items history next left_) {x : α} (mem : x ∈ items) :
    (∃ attempts ∈ history, x ∈ attempts) ∨
    (x ∈ left_ ∧ (waiting key next left_ (key x)).length + history.length ≤
      (waiting key last items (key x)).length) := by
  induction sweeps with
  | start => exact .inr ⟨mem,Nat.le_refl _⟩
  | @next history between now attempts after left_ before sweep ih =>
    rcases ih with ⟨earlier,there,had⟩ | ⟨pending,bound⟩
    · exact .inl ⟨earlier,List.mem_cons_of_mem _ there,had⟩
    · by_cases attempted : x ∈ attempts
      · exact .inl ⟨attempts,List.mem_cons_self,attempted⟩
      · have fewer := sweep.sooner pending attempted
        refine .inr ⟨sweep.kept x pending attempted,?_⟩
        rw [List.length_cons]
        omega

theorem Sweeps.all (sweeps : Sweeps key last items history next left_)
    (enough : items.length ≤ history.length) :
    ∀ x ∈ items, ∃ attempts ∈ history, x ∈ attempts := by
  intro x mem
  rcases sweeps.fair mem with had | ⟨_,bound⟩
  · exact had
  · have few : (waiting key last items (key x)).length < items.length := waitingFew mem
    omega

end TelephoneBooth.Rotation
