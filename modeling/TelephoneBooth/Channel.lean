import Mathlib.Data.List.Induction

/-! A first-in first-out channel that remembers what went through it. The place of an
item in the log is its number; the receiver has taken the first `taken` of them. -/
namespace TelephoneBooth

section Numbered
variable {α β : Type*} (p : α → Bool)

def numbered : Nat → List α → List Nat
  | _, [] => []
  | start, item :: rest =>
    if p item then start :: numbered (start + 1) rest else numbered (start + 1) rest

theorem numberedAppend (start : Nat) (xs ys : List α) :
    numbered p start (xs ++ ys) = numbered p start xs ++ numbered p (start + xs.length) ys := by
  induction xs generalizing start with
  | nil => rfl
  | cons item rest ih =>
    have later : start + 1 + rest.length = start + (item :: rest).length := by
      rw [List.length_cons]; omega
    simp only [List.cons_append,numbered,ih,later]
    split <;> rfl

theorem numberedMap (f : β → α) (start : Nat) (xs : List β) :
    numbered p start (xs.map f) = numbered (fun x => p (f x)) start xs := by
  induction xs generalizing start with
  | nil => rfl
  | cons item rest ih => simp only [List.map_cons,numbered,ih]

theorem numberedMem {start n : Nat} {xs : List α} :
    n ∈ numbered p start xs ↔ start ≤ n ∧ ∃ item, xs[n - start]? = some item ∧ p item = true := by
  induction xs generalizing start with
  | nil => simp [numbered]
  | cons item rest ih =>
    have tail : n ∈ numbered p (start + 1) rest ↔
        start + 1 ≤ n ∧ ∃ other, (item :: rest)[n - start]? = some other ∧ p other = true := by
      rw [ih]
      refine and_congr_right fun low => ?_
      rw [show n - start = n - (start + 1) + 1 by omega,List.getElem?_cons_succ]
    rcases Nat.lt_trichotomy n start with before | here | after
    · have out : n ∉ numbered p (start + 1) rest := fun mem => by have := (tail.mp mem).1; omega
      unfold numbered
      split <;> simp [out] <;> omega
    · subst here
      have out : n ∉ numbered p (n + 1) rest := fun mem => by have := (tail.mp mem).1; omega
      unfold numbered
      split <;> simp_all
    · unfold numbered
      have other : n ≠ start := by omega
      split <;> simp [tail,other] <;> omega

theorem numberedNone {start : Nat} {xs : List α} (none_ : ∀ item ∈ xs, p item = false) :
    numbered p start xs = [] := by
  rw [List.eq_nil_iff_forall_not_mem]
  intro n mem
  obtain ⟨_,item,found,holds⟩ := (numberedMem p).mp mem
  rw [none_ item (List.mem_of_getElem? found)] at holds
  cases holds

theorem numberedOnce (start n : Nat) (xs : List α) : (numbered p start xs).count n ≤ 1 := by
  induction xs generalizing start with
  | nil => exact Nat.zero_le 1
  | cons item rest ih =>
    unfold numbered
    split
    · rw [List.count_cons]
      by_cases here : start = n
      · have later : n ∉ numbered p (start + 1) rest := fun mem => by
          have low := ((numberedMem p).mp mem).1
          omega
        rw [List.count_eq_zero_of_not_mem later]
        split <;> omega
      · rw [if_neg (by simpa using here)]
        exact ih (start + 1)
    · exact ih (start + 1)

def latest (log : List α) : Option Nat := (numbered p 0 log).getLast?

theorem latestAppend (xs ys : List α) :
    latest p (xs ++ ys) = (numbered p xs.length ys).getLast?.or (latest p xs) := by
  rw [latest,numberedAppend,List.getLast?_append,Nat.zero_add]
  rfl

theorem latestFound {log : List α} {n : Nat} (last : latest p log = some n) :
    ∃ item, log[n]? = some item ∧ p item = true := by
  have mem := List.mem_of_getLast? last
  exact ((numberedMem p).mp mem).2

theorem latestGreatest {log : List α} {s n : Nat} {item : α} (last : latest p log = some s)
    (found : log[n]? = some item) (holds : p item = true) : n ≤ s := by
  induction log using List.reverseRecOn with
  | nil => cases found
  | append_singleton front newest ih =>
    obtain ⟨inside,same⟩ := List.getElem?_eq_some_iff.mp found
    rw [List.length_append,List.length_singleton] at inside
    rw [latestAppend] at last
    by_cases newer : p newest = true
    · rw [numbered,if_pos newer] at last
      have newest : front.length = s := Option.some.inj last
      omega
    · rw [numbered,if_neg newer] at last
      rcases Nat.lt_or_ge n front.length with old | new
      · rw [List.getElem?_append_left old] at found
        exact ih last found
      · obtain rfl : n = front.length := by omega
        rw [List.getElem?_concat_length] at found
        obtain rfl := Option.some.inj found
        exact absurd holds newer

end Numbered

structure Channel (α : Type*) where
  log : List α
  taken : Nat
  bounded : taken ≤ log.length
  deriving DecidableEq

namespace Channel
variable {α : Type*}

def empty : Channel α := ⟨[],0,Nat.le_refl 0⟩

def send (c : Channel α) (items : List α) : Channel α :=
  ⟨c.log ++ items,c.taken,by have := c.bounded; rw [List.length_append]; omega⟩

theorem takenFits {c : Channel α} {item : α} (found : c.log[c.taken]? = some item) :
    c.taken + 1 ≤ c.log.length := by
  obtain ⟨inside,_⟩ := List.getElem?_eq_some_iff.mp found
  exact inside

def receive (c : Channel α) : Option ((Nat × α) × Channel α) :=
  match found : c.log[c.taken]? with
  | none => none
  | some item => some ((c.taken,item),⟨c.log,c.taken + 1,takenFits found⟩)

def drained (c : Channel α) : Prop := c.taken = c.log.length

instance (c : Channel α) : Decidable c.drained := inferInstanceAs (Decidable (_ = _))

def Waits (c : Channel α) (n : Nat) (item : α) : Prop := c.taken ≤ n ∧ c.log[n]? = some item

def pending (p : α → Bool) (c : Channel α) : List Nat := numbered p c.taken (c.log.drop c.taken)

@[simp] theorem emptyWaits (n : Nat) (item : α) : (empty : Channel α).Waits n item ↔ False :=
  ⟨(by rintro ⟨_,found⟩; cases found),False.elim⟩

theorem receiveCases {c c' : Channel α} {n : Nat} {item : α}
    (received : c.receive = some ((n,item),c')) :
    n = c.taken ∧ c.log[n]? = some item ∧ c'.log = c.log ∧ c'.taken = n + 1 := by
  unfold receive at received
  split at received
  · cases received
  · rename_i found
    cases received
    exact ⟨rfl,found,rfl,rfl⟩

theorem receivedTaken {c c' : Channel α} {n : Nat} {item : α}
    (received : c.receive = some ((n,item),c')) : c.taken ≤ c'.taken := by
  obtain ⟨place,_,_,taken⟩ := receiveCases received
  omega

theorem pendingReceived {c c' : Channel α} {n : Nat} {item : α} (p : α → Bool)
    (received : c.receive = some ((n,item),c')) :
    c.pending p = (if p item then [n] else []) ++ c'.pending p := by
  obtain ⟨rfl,found,log,taken⟩ := receiveCases received
  obtain ⟨inside,same⟩ := List.getElem?_eq_some_iff.mp found
  simp only [pending,log,taken]
  rw [List.drop_eq_getElem_cons inside,same,numbered]
  split <;> rfl

theorem pendingSent (p : α → Bool) (c : Channel α) (items : List α) :
    (c.send items).pending p = c.pending p ++ numbered p c.log.length items := by
  have fits := c.bounded
  simp only [pending,send]
  rw [List.drop_append_of_le_length fits,numberedAppend,List.length_drop,Nat.add_sub_cancel' fits]

theorem pendingMem {c : Channel α} {p : α → Bool} {n : Nat} :
    n ∈ c.pending p ↔ ∃ item, c.Waits n item ∧ p item = true := by
  unfold pending Waits
  rw [numberedMem]
  constructor
  · rintro ⟨low,item,found,holds⟩
    rw [List.getElem?_drop,Nat.add_sub_cancel' low] at found
    exact ⟨item,⟨low,found⟩,holds⟩
  · rintro ⟨item,⟨low,found⟩,holds⟩
    refine ⟨low,item,?_,holds⟩
    rw [List.getElem?_drop,Nat.add_sub_cancel' low]
    exact found

theorem receivedWaits {c c' : Channel α} {m : Nat} {item : α}
    (received : c.receive = some ((m,item),c')) : c.Waits m item := by
  obtain ⟨place,found,_,_⟩ := receiveCases received
  exact ⟨Nat.le_of_eq place.symm,found⟩

theorem waitsReceived {c c' : Channel α} {m n : Nat} {item other : α}
    (received : c.receive = some ((m,item),c')) (waits : c'.Waits n other) :
    c.Waits n other ∧ m < n := by
  obtain ⟨place,_,log,taken⟩ := receiveCases received
  obtain ⟨later,found⟩ := waits
  rw [taken] at later
  rw [log] at found
  exact ⟨⟨by omega,found⟩,later⟩

theorem waitsSent {c : Channel α} {items : List α} {n : Nat} {item : α}
    (waits : (c.send items).Waits n item) :
    c.Waits n item ∧ n < c.log.length ∨
      c.log.length ≤ n ∧ items[n - c.log.length]? = some item := by
  obtain ⟨later,found⟩ := waits
  unfold send at later found
  rcases Nat.lt_or_ge n c.log.length with old | new
  · rw [List.getElem?_append_left old] at found
    exact .inl ⟨⟨later,found⟩,old⟩
  · rw [List.getElem?_append_right new] at found
    exact .inr ⟨new,found⟩

theorem sentFound {c : Channel α} {n : Nat} {item : α} (items : List α)
    (found : c.log[n]? = some item) : (c.send items).log[n]? = some item := by
  obtain ⟨inside,_⟩ := List.getElem?_eq_some_iff.mp found
  unfold send
  rw [List.getElem?_append_left inside]
  exact found

theorem sentWaits {c : Channel α} {n : Nat} {item : α} (items : List α) (waits : c.Waits n item) :
    (c.send items).Waits n item := ⟨waits.1,sentFound items waits.2⟩

theorem sentNew (c : Channel α) {items : List α} {n : Nat} {item : α}
    (new : items[n]? = some item) : (c.send items).Waits (c.log.length + n) item := by
  have fits := c.bounded
  refine ⟨Nat.le_trans fits (Nat.le_add_right _ _),?_⟩
  unfold send
  rw [List.getElem?_append_right (Nat.le_add_right _ _),Nat.add_sub_cancel_left]
  exact new

end Channel
end TelephoneBooth
