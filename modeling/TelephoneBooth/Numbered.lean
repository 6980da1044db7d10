import Mathlib.Data.List.Nodup

/-! Items that draw increasing numbers. Some have gone through, the others wait; where it is
always the smallest number that goes through, what is done stays in order and ahead of what
waits. A stream of items has no gap for a reader who, taking them one by one, always has all
that is numbered below the one taken. What holds the newest item of those known is kept up to
date by taking each new item that is newer. -/
namespace TelephoneBooth.Numbered

variable {α : Type*} (number : α → Nat)

structure InOrder (done waiting : List α) (newest : Nat) : Prop where
  increasing : done.Pairwise fun a b => number a < number b
  held : ∀ x ∈ done, number x ≤ newest
  waits : ∀ x ∈ waiting, number x ≤ newest
  distinct : (waiting.map number).Nodup
  behind : ∀ x ∈ done, ∀ y ∈ waiting, number x < number y

variable {number} {done waiting : List α} {newest : Nat} {item : α}

theorem inOrderStart (newest : Nat) : InOrder number ([] : List α) [] newest :=
  ⟨.nil,nofun,nofun,.nil,nofun⟩

theorem InOrder.issue (order : InOrder number done waiting newest) (next : number item = newest + 1) :
    InOrder number done (item :: waiting) (newest + 1) := by
  obtain ⟨increasing,held,waits,distinct,behind⟩ := order
  refine ⟨increasing,fun x mem => Nat.le_succ_of_le (held x mem),?_,?_,?_⟩
  · intro x mem
    rcases List.mem_cons.mp mem with rfl | old
    · exact Nat.le_of_eq next
    · exact Nat.le_succ_of_le (waits x old)
  · rw [List.map_cons,List.nodup_cons]
    refine ⟨fun mem => ?_,distinct⟩
    obtain ⟨x,old,same⟩ := List.mem_map.mp mem
    have bound := waits x old
    omega
  · intro x mem y waiting_
    rcases List.mem_cons.mp waiting_ with rfl | old
    · have bound := held x mem
      omega
    · exact behind x mem y old

theorem InOrder.moved (order : InOrder number done waiting newest) {after : List α}
    (same : after.Perm waiting) : InOrder number done after newest :=
  ⟨order.increasing,order.held,fun x mem => order.waits x (same.mem_iff.mp mem),
    (same.map number).nodup_iff.mpr order.distinct,
    fun x mem y waits => order.behind x mem y (same.mem_iff.mp waits)⟩

theorem InOrder.forget (order : InOrder number done waiting newest) {after : List α}
    (fewer : after.Sublist done) : InOrder number after waiting newest :=
  ⟨order.increasing.sublist fewer,fun x mem => order.held x (fewer.subset mem),order.waits,
    order.distinct,fun x mem => order.behind x (fewer.subset mem)⟩

theorem InOrder.takenFirst (order : InOrder number done waiting newest) {rest : List α}
    (taken : waiting.Perm (item :: rest)) (smallest : ∀ y ∈ waiting, number item ≤ number y) :
    ∀ y ∈ rest, number item < number y := by
  intro y mem
  have apart := (taken.map number).nodup_iff.mp order.distinct
  rw [List.map_cons,List.nodup_cons] at apart
  have least := smallest y (taken.mem_iff.mpr (List.mem_cons_of_mem _ mem))
  have other : number item ≠ number y := fun same => apart.1 (same ▸ List.mem_map_of_mem mem)
  omega

theorem InOrder.take (order : InOrder number done waiting newest) {rest : List α}
    (taken : waiting.Perm (item :: rest)) (smallest : ∀ y ∈ waiting, number item ≤ number y) :
    InOrder number (done ++ [item]) rest newest := by
  have first := order.takenFirst taken smallest
  have mine : item ∈ waiting := taken.mem_iff.mpr List.mem_cons_self
  have later {y} (mem : y ∈ rest) : y ∈ waiting := taken.mem_iff.mpr (List.mem_cons_of_mem _ mem)
  refine ⟨?_,?_,fun y mem => order.waits y (later mem),?_,?_⟩
  · refine List.pairwise_append.mpr ⟨order.increasing,List.pairwise_singleton _ _,?_⟩
    intro x mem y same
    rw [List.mem_singleton.mp same]
    exact order.behind x mem item mine
  · intro x mem
    rcases List.mem_append.mp mem with old | new
    · exact order.held x old
    · rw [List.mem_singleton.mp new]
      exact order.waits item mine
  · have apart := (taken.map number).nodup_iff.mp order.distinct
    exact (List.nodup_cons.mp apart).2
  · intro x mem y waits
    rcases List.mem_append.mp mem with old | new
    · exact order.behind x old y (later waits)
    · rw [List.mem_singleton.mp new]
      exact first y waits

theorem InOrder.unique (order : InOrder number done waiting newest) {x y : α}
    (here : x ∈ done ∨ x ∈ waiting) (there : y ∈ done ∨ y ∈ waiting) (same : number x = number y) :
    x = y := by
  have once : (done.map number).Nodup :=
    List.pairwise_map.mpr (order.increasing.imp fun less => Nat.ne_of_lt less)
  rcases here with old | new <;> rcases there with old' | new'
  · exact List.inj_on_of_nodup_map once old old' same
  · exact absurd same (Nat.ne_of_lt (order.behind x old y new'))
  · exact absurd same.symm (Nat.ne_of_lt (order.behind y old' x new))
  · exact List.inj_on_of_nodup_map order.distinct new new' same

theorem InOrder.early (order : InOrder number done waiting newest) {n : Nat}
    (here : done[n]? = some item) {x : α} (mem : x ∈ done) (low : number x ≤ number item) :
    x ∈ done.take (n + 1) := by
  obtain ⟨i,inside,rfl⟩ := List.mem_iff_getElem.mp mem
  obtain ⟨bound,rfl⟩ := List.getElem?_eq_some_iff.mp here
  have before : i < n + 1 := by
    by_contra late
    have above := List.pairwise_iff_getElem.mp order.increasing n i bound inside (by omega)
    omega
  refine List.mem_of_getElem? (i := i) ?_
  rw [List.getElem?_take_of_lt before]
  exact List.getElem?_eq_getElem inside

section Gapless
variable (number) (known : α → Prop)

/-- Taking the stream item by item after `got`, a reader has every known item numbered up to
the one just taken. -/
def Gapless : List α → List α → Prop
  | _, [] => True
  | got, x :: rest =>
    (∀ y, known y → number y ≤ number x → y ∈ got ∨ y = x) ∧ Gapless (got ++ [x]) rest

variable {number known} {got stream : List α}

theorem gaplessAppend {more : List α} : Gapless number known got (stream ++ more) ↔
    Gapless number known got stream ∧ Gapless number known (got ++ stream) more := by
  induction stream generalizing got with
  | nil => simp [Gapless]
  | cons x rest ih =>
    have shift : got ++ x :: rest = got ++ [x] ++ rest := by simp
    rw [List.cons_append,Gapless,Gapless,ih,and_assoc,shift]

theorem gaplessKnown {later : α → Prop} (gapless : Gapless number known got stream)
    (fresh : ∀ y, later y → known y ∨ ∀ x ∈ stream, number x < number y) :
    Gapless number later got stream := by
  induction stream generalizing got with
  | nil => trivial
  | cons x rest ih =>
    refine ⟨fun y new low => ?_,ih gapless.2 fun y new => ?_⟩
    · rcases fresh y new with old | above
      · exact gapless.1 y old low
      · exact absurd low (Nat.not_le.mpr (above x List.mem_cons_self))
    · exact (fresh y new).imp_right fun above x mem => above x (List.mem_cons_of_mem _ mem)

theorem gaplessOrdered (increasing : stream.Pairwise fun a b => number a < number b)
    (all : ∀ y, known y → y ∈ got ∨ y ∈ stream ∨ ∀ x ∈ stream, number x < number y) :
    Gapless number known got stream := by
  induction stream generalizing got with
  | nil => trivial
  | cons x rest ih =>
    obtain ⟨first,sorted⟩ := List.pairwise_cons.mp increasing
    refine ⟨fun y here low => ?_,ih sorted fun y here => ?_⟩
    · rcases all y here with had | mem | above
      · exact .inl had
      · rcases List.mem_cons.mp mem with same | later
        · exact .inr same
        · exact absurd low (Nat.not_le.mpr (first y later))
      · exact absurd low (Nat.not_le.mpr (above x List.mem_cons_self))
    · rcases all y here with had | mem | above
      · exact .inl (List.mem_append_left _ had)
      · rcases List.mem_cons.mp mem with rfl | later
        · exact .inl (List.mem_append_right _ (List.mem_singleton.mpr rfl))
        · exact .inr (.inl later)
      · exact .inr (.inr fun z mem => above z (List.mem_cons_of_mem _ mem))

end Gapless

section Newest
variable (number)

def Newest (known : α → Prop) : Option α → Prop
  | none => ∀ x, ¬ known x
  | some x => known x ∧ ∀ y, known y → number y ≤ number x

variable {number} {known later : α → Prop} {held : Option α}

theorem Newest.relabel (newest : Newest number known held) (same : ∀ y, later y ↔ known y) :
    Newest number later held := by
  cases held with
  | none => exact fun x here => newest x ((same x).mp here)
  | some x => exact ⟨(same x).mpr newest.1,fun y here => newest.2 y ((same y).mp here)⟩

theorem Newest.add (newest : Newest number known held) (grows : ∀ y, later y ↔ known y ∨ y = item) :
    Newest number later
      (if held.all fun x => decide (number x < number item) then some item else held) := by
  cases held with
  | none =>
    refine ⟨(grows item).mpr (.inr rfl),fun y here => ?_⟩
    rcases (grows y).mp here with old | rfl
    · exact absurd old (newest y)
    · exact Nat.le_refl _
  | some x =>
    obtain ⟨there,largest⟩ := newest
    by_cases newer : number x < number item
    · rw [if_pos (by simpa using newer)]
      refine ⟨(grows item).mpr (.inr rfl),fun y here => ?_⟩
      rcases (grows y).mp here with old | rfl
      · exact Nat.le_of_lt (Nat.lt_of_le_of_lt (largest y old) newer)
      · exact Nat.le_refl _
    · rw [if_neg (by simpa using newer)]
      refine ⟨(grows x).mpr (.inl there),fun y here => ?_⟩
      rcases (grows y).mp here with old | rfl
      · exact largest y old
      · exact Nat.not_lt.mp newer

theorem Newest.covers (newest : Newest number known held) {y : α} (here : known y) :
    ∃ x, held = some x ∧ number y ≤ number x := by
  cases held with
  | none => exact absurd here (newest y)
  | some x => exact ⟨x,rfl,newest.2 y here⟩

end Newest

end TelephoneBooth.Numbered
