import Mathlib.Data.List.Lex
import Mathlib.Data.List.Sort

/-! Lists cut into chunks, and lists in the order of their members. The order is read off the
members alone: a list that is in order and has the right members is the sorted one. -/
namespace TelephoneBooth.Listing

section Chunks
variable {α : Type*}

def chunksFrom (size : Nat) : Nat → List α → List (List α)
  | 0, _ => []
  | more + 1, xs => if xs.isEmpty then [] else xs.take size :: chunksFrom size more (xs.drop size)

def chunks (size : Nat) (xs : List α) : List (List α) := chunksFrom size xs.length xs

theorem chunksFromFlatten {size : Nat} (positive : 0 < size) (fuel : Nat) (xs : List α)
    (enough : xs.length ≤ fuel) : (chunksFrom size fuel xs).flatten = xs := by
  induction fuel generalizing xs with
  | zero => exact (List.eq_nil_of_length_eq_zero (Nat.le_zero.mp enough)).symm
  | succ fuel ih =>
    cases xs with
    | nil => rfl
    | cons x xs =>
      have rest : ((x :: xs).drop size).length ≤ fuel := by
        rw [List.length_drop]
        omega
      rw [chunksFrom,if_neg (by simp),List.flatten_cons,ih _ rest,List.take_append_drop]

theorem chunksFlatten {size : Nat} (positive : 0 < size) (xs : List α) : (chunks size xs).flatten = xs :=
  chunksFromFlatten positive _ xs (Nat.le_refl _)

theorem chunksFromBound {size count : Nat} (fuel : Nat) (xs : List α) (fits : xs.length ≤ count * size) :
    (chunksFrom size fuel xs).length ≤ count := by
  induction fuel generalizing xs count with
  | zero => exact Nat.zero_le _
  | succ fuel ih =>
    cases xs with
    | nil => exact Nat.zero_le _
    | cons x xs =>
      cases count with
      | zero => simp at fits
      | succ count =>
        have rest : ((x :: xs).drop size).length ≤ count * size := by
          rw [List.length_drop]
          rw [Nat.succ_mul] at fits
          omega
        rw [chunksFrom,if_neg (by simp),List.length_cons]
        exact Nat.succ_le_succ (ih _ rest)

theorem chunksFromLength {size : Nat} (fuel : Nat) (xs : List α) :
    ∀ chunk ∈ chunksFrom size fuel xs, chunk.length ≤ size := by
  induction fuel generalizing xs with
  | zero => exact nofun
  | succ fuel ih =>
    intro chunk mem
    unfold chunksFrom at mem
    split at mem
    · cases mem
    · rcases List.mem_cons.mp mem with rfl | later
      · exact List.length_take_le _ _
      · exact ih _ chunk later

theorem chunksLength {size : Nat} (xs : List α) : ∀ chunk ∈ chunks size xs, chunk.length ≤ size :=
  chunksFromLength _ xs

theorem flattenLength {size : Nat} {parts : List (List α)} (short : ∀ part ∈ parts, part.length ≤ size) :
    parts.flatten.length ≤ parts.length * size := by
  induction parts with
  | nil => exact Nat.zero_le _
  | cons part rest ih =>
    have here := short part List.mem_cons_self
    have later := ih fun other mem => short other (List.mem_cons_of_mem _ mem)
    rw [List.flatten_cons,List.length_append,List.length_cons,Nat.succ_mul]
    omega

theorem chunksBound {size : Nat} (positive : 0 < size) (count : Nat) (xs : List α) :
    (chunks size xs).length ≤ count ↔ xs.length ≤ count * size := by
  refine ⟨fun few => ?_,chunksFromBound _ xs⟩
  have total := flattenLength (@chunksLength α size xs)
  rw [chunksFlatten positive] at total
  exact Nat.le_trans total (Nat.mul_le_mul_right size few)

end Chunks

theorem filterDrop {α : Type*} {xs : List α} (distinct : xs.Nodup) (count : Nat) {keep : α → Bool}
    (kept : ∀ x, keep x = true ↔ x ∉ xs.take count) : xs.filter keep = xs.drop count := by
  have parts := distinct
  rw [← List.take_append_drop count xs] at parts
  have apart := (List.nodup_append.mp parts).2.2
  have early : (xs.take count).filter keep = [] :=
    List.filter_eq_nil_iff.mpr fun x mem stays => (kept x).mp stays mem
  have late : (xs.drop count).filter keep = xs.drop count :=
    List.filter_eq_self.mpr fun x mem => (kept x).mpr fun first => apart x first x mem rfl
  calc xs.filter keep
      = (xs.take count ++ xs.drop count).filter keep := by rw [List.take_append_drop]
    _ = xs.drop count := by rw [List.filter_append,early,late,List.nil_append]

section Prefixes
variable {α : Type*} [LinearOrder α]

theorem prefixLess (p : List α) {x : List α} (more : x ≠ []) : p < p ++ x := by
  obtain ⟨c,rest,rfl⟩ := List.exists_cons_of_ne_nil more
  have shorter : List.Lex (· < ·) (p ++ []) (p ++ c :: rest) := List.Lex.append_left _ .nil p
  rwa [List.append_nil] at shorter

theorem snocLess (p : List α) {i j : α} (less : i < j) : p ++ [i] < p ++ [j] :=
  List.Lex.append_left _ (.rel less) p

theorem appendLess {p q : List α} (less : p < q) (apart : ¬ p <+: q) (x y : List α) :
    p ++ x < q ++ y := by
  have less_ : List.Lex (· < ·) p q := less
  show List.Lex (· < ·) _ _
  induction less_ with
  | nil => exact absurd (List.nil_prefix) apart
  | rel first => exact .rel first
  | @cons a p q later ih =>
    exact .cons (ih later fun inside => apart (List.cons_prefix_cons.mpr ⟨rfl,inside⟩))

end Prefixes

section Sorted
variable {κ : Type*} [LinearOrder κ]

def sorted (keys : List κ) : List κ := keys.insertionSort (· ≤ ·)

variable {keys after : List κ}

theorem sortedMem {k : κ} : k ∈ sorted keys ↔ k ∈ keys := List.mem_insertionSort _

theorem sortedIncreasing (distinct : keys.Nodup) : (sorted keys).Pairwise (· < ·) := by
  have ordered : (sorted keys).Pairwise (· ≤ ·) := List.pairwise_insertionSort _ keys
  have apart : (sorted keys).Pairwise (· ≠ ·) := (List.perm_insertionSort _ keys).nodup_iff.mpr distinct
  exact (ordered.and apart).imp fun both => lt_of_le_of_ne both.1 both.2

theorem sortedUnique {listed : List κ} (distinct : keys.Nodup) (increasing : listed.Pairwise (· < ·))
    (same : ∀ k, k ∈ listed ↔ k ∈ keys) : sorted keys = listed :=
  (sortedIncreasing distinct).eq_of_mem_iff increasing fun k => sortedMem.trans (same k).symm

theorem sortedFilter (distinct : keys.Nodup) (distinct' : after.Nodup) (keep : κ → Bool)
    (same : ∀ k, k ∈ after ↔ k ∈ keys ∧ keep k = true) : sorted after = (sorted keys).filter keep :=
  sortedUnique distinct' ((sortedIncreasing distinct).sublist List.filter_sublist) fun k => by
    rw [List.mem_filter,sortedMem,same]

theorem sortedSnoc (distinct : keys.Nodup) (distinct' : after.Nodup) {last : κ}
    (late : ∀ k ∈ keys, k < last) (same : ∀ k, k ∈ after ↔ k ∈ keys ∨ k = last) :
    sorted after = sorted keys ++ [last] := by
  refine sortedUnique distinct' ?_ fun k => ?_
  · refine List.pairwise_append.mpr ⟨sortedIncreasing distinct,List.pairwise_singleton _ _,?_⟩
    intro k mem other single
    obtain rfl := List.mem_singleton.mp single
    exact late k (sortedMem.mp mem)
  · rw [List.mem_append,sortedMem,List.mem_singleton,same]

theorem sortedReplace (distinct' : after.Nodup) {k : κ} {front back new : List κ}
    (listing : sorted keys = front ++ k :: back) (distinct : keys.Nodup)
    (increasing : new.Pairwise (· < ·)) (below : ∀ a ∈ keys, a < k → ∀ b ∈ new, a < b)
    (above : ∀ a ∈ keys, k < a → ∀ b ∈ new, b < a)
    (same : ∀ a, a ∈ after ↔ a ∈ new ∨ a ∈ keys ∧ a ≠ k) : sorted after = front ++ new ++ back := by
  have ordered := sortedIncreasing distinct
  rw [listing] at ordered
  obtain ⟨frontOrder,restOrder,frontRest⟩ := List.pairwise_append.mp ordered
  obtain ⟨kBack,backOrder⟩ := List.pairwise_cons.mp restOrder
  have member (a : κ) : a ∈ keys ↔ a ∈ front ∨ a = k ∨ a ∈ back := by
    rw [← sortedMem,listing,List.mem_append,List.mem_cons]
  have frontK (a : κ) (mem : a ∈ front) : a < k := frontRest a mem k List.mem_cons_self
  refine sortedUnique distinct' ?_ fun a => ?_
  · refine List.pairwise_append.mpr ⟨List.pairwise_append.mpr ⟨frontOrder,increasing,?_⟩,backOrder,?_⟩
    · intro a mem b inside
      exact below a ((member a).mpr (.inl mem)) (frontK a mem) b inside
    · intro b mem a inside
      rcases List.mem_append.mp mem with early | mem
      · exact frontRest b early a (List.mem_cons_of_mem _ inside)
      · exact above a ((member a).mpr (.inr (.inr inside))) (kBack a inside) b mem
  · rw [same,member,List.mem_append,List.mem_append]
    constructor
    · rintro ((early | mem) | late)
      · exact .inr ⟨.inl early,(frontK a early).ne⟩
      · exact .inl mem
      · exact .inr ⟨.inr (.inr late),(kBack a late).ne'⟩
    · rintro (mem | ⟨early | rfl | late,apart⟩)
      · exact .inl (.inr mem)
      · exact .inl (.inl early)
      · exact absurd rfl apart
      · exact .inr late

end Sorted

theorem setSplit {α : Type*} {xs : List α} {i : Nat} {x : α} (found : xs[i]? = some x) :
    ∃ front back, xs = front ++ x :: back ∧ ∀ y, xs.set i y = front ++ y :: back := by
  induction xs generalizing i with
  | nil => cases found
  | cons head tail ih =>
    cases i with
    | zero =>
      cases found
      exact ⟨[],tail,rfl,fun _ => rfl⟩
    | succ i =>
      obtain ⟨front,back,same,placed⟩ := ih found
      exact ⟨head :: front,back,by simp [same],fun y => by simp [placed y]⟩

end TelephoneBooth.Listing
