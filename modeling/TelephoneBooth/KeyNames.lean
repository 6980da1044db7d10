import Mathlib.Data.Bool.AllAny
import Mathlib.Data.List.Basic

/-! File names made from storage keys. A key is the list of its characters. -/
namespace TelephoneBooth

abbrev Name := List Char

instance : LawfulBEq Name := inferInstance

def hexDigit (n : Nat) : Char := Char.ofNat (if n < 10 then 48 + n else 55 + n)

def hexByte (byte : UInt8) : Name := [hexDigit (byte.toNat / 16),hexDigit (byte.toNat % 16)]

def escaped : List Char := ['/','\\',':','%','\x00','.']

def encodeChar (c : Char) : Name :=
  if c ∈ escaped then (String.utf8EncodeChar c).flatMap fun byte => '%' :: hexByte byte else [c]

def emptyName : Name := ['%','e','m','p','t','y']

def encodeKey (key : Name) : Name := if key = [] then emptyName else key.flatMap encodeChar

theorem escapeShape {c : Char} (special : c ∈ escaped) : ∃ high low, encodeChar c = ['%',high,low] ∧
    high ∉ ['e','.'] ∧ low ≠ '.' ∧ ∀ d ∈ escaped, encodeChar d = ['%',high,low] → d = c := by
  have shape : ∀ c ∈ escaped,
      encodeChar c = ['%',(encodeChar c).getD 1 '.',(encodeChar c).getD 2 '.'] ∧
      (encodeChar c).getD 1 '.' ∉ ['e','.'] ∧ (encodeChar c).getD 2 '.' ≠ '.' :=
    List.all_iff_forall_prop.mp (by decide)
  have apart : ∀ c ∈ escaped, ∀ d ∈ escaped, encodeChar d = encodeChar c → d = c := by
    have pairs : ∀ c ∈ escaped,
        escaped.all (fun d => decide (encodeChar d = encodeChar c → d = c)) = true :=
      List.all_iff_forall_prop.mp (by decide)
    exact fun c mem => List.all_iff_forall_prop.mp (pairs c mem)
  obtain ⟨same,high,low⟩ := shape c special
  exact ⟨_,_,same,high,low,fun d other alike => apart c special d other (alike.trans same.symm)⟩

theorem encodePlain {c : Char} (plain : c ∉ escaped) : encodeChar c = [c] := if_neg plain

theorem encodeCharPrefix {c d : Char} {xs ys : Name} (same : encodeChar c ++ xs = encodeChar d ++ ys) :
    c = d ∧ xs = ys := by
  by_cases special : c ∈ escaped <;> by_cases special' : d ∈ escaped
  · obtain ⟨high,low,shape,_,_,only⟩ := escapeShape special
    obtain ⟨high',low',shape',_⟩ := escapeShape special'
    rw [shape,shape'] at same
    injection same with _ rest
    injection rest with sameHigh rest
    injection rest with sameLow rest
    subst sameHigh sameLow
    exact ⟨(only d special' shape').symm,rest⟩
  · obtain ⟨high,low,shape,_⟩ := escapeShape special
    rw [shape,encodePlain special'] at same
    injection same with head
    exact absurd (head ▸ (by decide : '%' ∈ escaped)) special'
  · obtain ⟨high,low,shape,_⟩ := escapeShape special'
    rw [shape,encodePlain special] at same
    injection same with head
    exact absurd (head ▸ (by decide : '%' ∈ escaped)) special
  · rw [encodePlain special,encodePlain special'] at same
    injection same with head rest
    exact ⟨head,rest⟩

theorem encodeCharNonempty (c : Char) : encodeChar c ≠ [] := by
  by_cases special : c ∈ escaped
  · obtain ⟨high,low,shape,_⟩ := escapeShape special
    rw [shape]
    exact List.cons_ne_nil _ _
  · rw [encodePlain special]
    exact List.cons_ne_nil _ _

theorem encodeCharsInjective {xs ys : Name} (same : xs.flatMap encodeChar = ys.flatMap encodeChar) :
    xs = ys := by
  induction xs generalizing ys with
  | nil =>
    cases ys with
    | nil => rfl
    | cons d ys =>
      rw [List.flatMap_nil,List.flatMap_cons] at same
      exact absurd (List.append_eq_nil_iff.mp same.symm).1 (encodeCharNonempty d)
  | cons c xs ih =>
    cases ys with
    | nil =>
      rw [List.flatMap_nil,List.flatMap_cons] at same
      exact absurd (List.append_eq_nil_iff.mp same).1 (encodeCharNonempty c)
    | cons d ys =>
      rw [List.flatMap_cons,List.flatMap_cons] at same
      obtain ⟨rfl,rest⟩ := encodeCharPrefix same
      rw [ih rest]

theorem emptyNameApart (key : Name) : key.flatMap encodeChar ≠ emptyName := by
  intro same
  cases key with
  | nil => cases same
  | cons c rest =>
    rw [List.flatMap_cons] at same
    by_cases special : c ∈ escaped
    · obtain ⟨high,low,shape,digit,_⟩ := escapeShape special
      rw [shape] at same
      injection same with _ tail
      injection tail with head
      exact digit (head ▸ List.mem_cons_self)
    · rw [encodePlain special] at same
      injection same with head
      exact special (head ▸ by decide)

theorem encodeKeyInjective {a b : Name} (same : encodeKey a = encodeKey b) : a = b := by
  unfold encodeKey at same
  split at same <;> split at same
  · rename_i emptyA emptyB
    rw [emptyA,emptyB]
  · exact absurd same.symm (emptyNameApart b)
  · exact absurd same (emptyNameApart a)
  · exact encodeCharsInjective same

def forbidden : List Char := ['/','\\',':','.','\x00']

theorem encodeCharSafe (c : Char) : ∀ d ∈ forbidden, d ∉ encodeChar c := by
  by_cases special : c ∈ escaped
  · have safe : ∀ c ∈ escaped, forbidden.all (fun d => decide (d ∉ encodeChar c)) = true :=
      List.all_iff_forall_prop.mp (by decide)
    exact List.all_iff_forall_prop.mp (safe c special)
  · rw [encodePlain special]
    intro d bad mem
    have known : ∀ d ∈ forbidden, d ∈ escaped := List.all_iff_forall_prop.mp (by decide)
    exact special (List.mem_singleton.mp mem ▸ known d bad)

theorem encodeKeySafe (key : Name) : ∀ d ∈ forbidden, d ∉ encodeKey key := by
  intro d bad
  unfold encodeKey
  split
  · have apart : ∀ d ∈ forbidden, d ∉ emptyName := List.all_iff_forall_prop.mp (by decide)
    exact apart d bad
  · intro mem
    obtain ⟨c,_,inside⟩ := List.mem_flatMap.mp mem
    exact encodeCharSafe c d bad inside

theorem encodeKeyDot (key : Name) : '.' ∉ encodeKey key := encodeKeySafe key '.' (by decide)

end TelephoneBooth
