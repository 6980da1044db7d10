import Mathlib.Data.List.Nodup
import Mathlib.Data.List.Perm.Basic

/-! Exclusive claims: a set of claimed keys and the holders that took them. As long as no
claim is taken twice and each is dropped by its own holder, no two hold the same key. -/
namespace TelephoneBooth

structure Exclusive {α : Type*} (holders claimed : List α) : Prop where
  apart : holders.Nodup
  taken : ∀ key ∈ holders, key ∈ claimed

namespace Exclusive
variable {α : Type*} {holders others claimed : List α} {key : α}

theorem none : Exclusive ([] : List α) claimed := ⟨List.nodup_nil,fun _ mem => absurd mem List.not_mem_nil⟩

theorem perm (exclusive : Exclusive holders claimed) (same : holders.Perm others) :
    Exclusive others claimed :=
  ⟨same.nodup_iff.mp exclusive.apart,fun key mem => exclusive.taken key (same.symm.subset mem)⟩

theorem less (exclusive : Exclusive holders claimed) (fewer : others.Sublist holders) :
    Exclusive others claimed :=
  ⟨exclusive.apart.sublist fewer,fun key mem => exclusive.taken key (fewer.subset mem)⟩

theorem free (exclusive : Exclusive holders claimed) (unclaimed : key ∉ claimed) : key ∉ holders :=
  fun mem => unclaimed (exclusive.taken key mem)

theorem claim (exclusive : Exclusive holders claimed) (unclaimed : key ∉ claimed) :
    Exclusive (key :: holders) (key :: claimed) := by
  refine ⟨List.nodup_cons.mpr ⟨exclusive.free unclaimed,exclusive.apart⟩,?_⟩
  intro other mem
  rcases List.mem_cons.mp mem with rfl | old
  · exact List.mem_cons_self
  · exact List.mem_cons_of_mem _ (exclusive.taken other old)

theorem release [DecidableEq α] (exclusive : Exclusive (key :: holders) claimed) :
    Exclusive holders (claimed.filter (· ≠ key)) := by
  obtain ⟨fresh,apart⟩ := List.nodup_cons.mp exclusive.apart
  refine ⟨apart,fun other mem => List.mem_filter.mpr ⟨?_,?_⟩⟩
  · exact exclusive.taken other (List.mem_cons_of_mem _ mem)
  · exact decide_eq_true fun same => fresh (same ▸ mem)

theorem once (exclusive : Exclusive holders claimed) (split : holders.Perm (key :: others)) :
    key ∉ others :=
  (List.nodup_cons.mp (exclusive.perm split).apart).1

end Exclusive
end TelephoneBooth
