import Mathlib.Data.Option.Basic
import Mathlib.Logic.Function.Basic

/-! A directory of files. A name refers to a file, and what is open refers to the file itself: a
rename moves the name, and a file that has lost its name can still be read. -/
namespace TelephoneBooth

structure Directory (ν β : Type*) where
  names : ν → Option Nat
  contents : Nat → β
  next : Nat

namespace Directory
variable {ν β : Type*}

def empty (blank : β) : Directory ν β := ⟨fun _ => none,fun _ => blank,0⟩

def find (d : Directory ν β) (name : ν) : Option β := (d.names name).map d.contents

section Steps
variable [DecidableEq ν]

/- Opens a file for writing from its start: an existing one is truncated. -/
def create (d : Directory ν β) (name : ν) (blank : β) : Directory ν β × Nat :=
  match d.names name with
  | some file => ({ d with contents := Function.update d.contents file blank },file)
  | none => (⟨Function.update d.names name (some d.next),Function.update d.contents d.next blank,
      d.next + 1⟩,d.next)

def put (d : Directory ν β) (file : Nat) (contents : β) : Directory ν β :=
  { d with contents := Function.update d.contents file contents }

/- Fails where there is nothing to rename; replaces what bears the new name. -/
def rename (d : Directory ν β) (source target : ν) : Option (Directory ν β) :=
  (d.names source).map fun file =>
    { d with names := Function.update (Function.update d.names source none) target (some file) }

def remove (d : Directory ν β) (name : ν) : Directory ν β :=
  { d with names := Function.update d.names name none }

end Steps

structure Proper (d : Directory ν β) : Prop where
  bounded : ∀ name file, d.names name = some file → file < d.next
  once : ∀ a b file, d.names a = some file → d.names b = some file → a = b

variable {d : Directory ν β}

theorem emptyProper (blank : β) : Proper (empty blank : Directory ν β) := ⟨nofun,nofun⟩

theorem Proper.apart (proper : Proper d) {a b : ν} {file other : Nat} (differ : a ≠ b)
    (here : d.names a = some file) (there : d.names b = some other) : other ≠ file := by
  rintro rfl
  exact differ (proper.once a b other here there)

variable [DecidableEq ν]

structure Created (d : Directory ν β) (name : ν) (blank : β) (after : Directory ν β) (file : Nat) :
    Prop where
  proper : Proper after
  next : d.next ≤ after.next
  named : after.names name = some file
  others : ∀ other, other ≠ name → after.names other = d.names other
  blank : after.contents file = blank
  kept : ∀ other, other < d.next → d.names name ≠ some other → after.contents other = d.contents other
  fresh : d.names name = some file ∨ d.next ≤ file

theorem createCreated (proper : Proper d) (name : ν) (blank : β) :
    Created d name blank (d.create name blank).1 (d.create name blank).2 := by
  cases here : d.names name with
  | some file =>
    have made : d.create name blank =
        ({ d with contents := Function.update d.contents file blank },file) := by
      rw [create,here]
    rw [made]
    refine ⟨⟨proper.bounded,proper.once⟩,Nat.le_refl _,here,fun _ _ => rfl,Function.update_self ..,?_,
      .inl here⟩
    intro other _ apart
    have away : other ≠ file := by
      rintro rfl
      exact apart here
    exact Function.update_of_ne away ..
  | none =>
    have made : d.create name blank = (⟨Function.update d.names name (some d.next),
        Function.update d.contents d.next blank,d.next + 1⟩,d.next) := by
      rw [create,here]
    rw [made]
    have where_ {other : ν} {file : Nat}
        (found : Function.update d.names name (some d.next) other = some file) :
        other = name ∧ file = d.next ∨ d.names other = some file := by
      rw [Function.update_apply] at found
      split at found
      · rename_i same
        exact .inl ⟨same,(Option.some.inj found).symm⟩
      · exact .inr found
    refine ⟨⟨?_,?_⟩,Nat.le_succ _,Function.update_self ..,fun other apart =>
      Function.update_of_ne apart ..,Function.update_self ..,?_,.inr (Nat.le_refl _)⟩
    · intro other file found
      rcases where_ found with ⟨_,rfl⟩ | old
      · exact Nat.lt_succ_self _
      · exact Nat.lt_succ_of_lt (proper.bounded other file old)
    · intro a b file hereA hereB
      rcases where_ hereA with ⟨sameA,newA⟩ | oldA <;> rcases where_ hereB with ⟨sameB,newB⟩ | oldB
      · rw [sameA,sameB]
      · have bound := proper.bounded b file oldB
        omega
      · have bound := proper.bounded a file oldA
        omega
      · exact proper.once a b file oldA oldB
    · intro other old _
      exact Function.update_of_ne (Nat.ne_of_lt old) ..

omit [DecidableEq ν] in
theorem putProper (proper : Proper d) (file : Nat) (contents : β) : Proper (d.put file contents) :=
  ⟨proper.bounded,proper.once⟩

theorem removeNames (name other : ν) :
    (d.remove name).names other = if other = name then none else d.names other :=
  Function.update_apply ..

theorem removeProper (proper : Proper d) (name : ν) : Proper (d.remove name) := by
  have kept {other : ν} {file : Nat} (found : (d.remove name).names other = some file) :
      d.names other = some file := by
    rw [removeNames] at found
    split at found
    · cases found
    · exact found
  exact ⟨fun other file found => proper.bounded other file (kept found),
    fun a b file here there => proper.once a b file (kept here) (kept there)⟩

structure Renamed (d : Directory ν β) (source target : ν) (file : Nat) (after : Directory ν β) :
    Prop where
  here : d.names source = some file
  next : after.next = d.next
  contents : after.contents = d.contents
  names : ∀ other, after.names other =
    if other = target then some file else if other = source then none else d.names other

theorem renameRenamed {source target : ν} {after : Directory ν β}
    (renamed : d.rename source target = some after) : ∃ file, Renamed d source target file after := by
  obtain ⟨file,here,rfl⟩ := Option.map_eq_some_iff.mp renamed
  refine ⟨file,here,rfl,rfl,fun other => ?_⟩
  exact (Function.update_apply ..).trans (by rw [Function.update_apply])

theorem Renamed.proper {source target : ν} {file : Nat} {after : Directory ν β} (proper : Proper d)
    (renamed : Renamed d source target file after) : Proper after := by
  have kept {other : ν} {old : Nat} (found : after.names other = some old) :
      other = target ∧ old = file ∨ other ≠ source ∧ d.names other = some old := by
    rw [renamed.names] at found
    split at found
    · rename_i same
      exact .inl ⟨same,(Option.some.inj found).symm⟩
    split at found
    · cases found
    · rename_i away
      exact .inr ⟨away,found⟩
  refine ⟨?_,?_⟩
  · intro other old found
    rw [renamed.next]
    rcases kept found with ⟨_,rfl⟩ | ⟨_,was⟩
    · exact proper.bounded source _ renamed.here
    · exact proper.bounded other old was
  · intro a b old hereA hereB
    rcases kept hereA with ⟨sameA,newA⟩ | ⟨awayA,oldA⟩ <;>
      rcases kept hereB with ⟨sameB,newB⟩ | ⟨awayB,oldB⟩
    · rw [sameA,sameB]
    · exact absurd (proper.once b source old oldB (newA ▸ renamed.here)) awayB
    · exact absurd (proper.once a source old oldA (newB ▸ renamed.here)) awayA
    · exact proper.once a b old oldA oldB

end Directory

end TelephoneBooth
