import Mathlib.Data.List.Basic
import Mathlib.Data.List.TakeWhile

/-! Readers of text: each takes what it reads off the front, or fails and takes nothing. -/
namespace TelephoneBooth

abbrev Reader (α : Type) := StateT (List Char) Option α

namespace Reader
variable {α β : Type}

def toDigit (radix : Nat) (c : Char) : Option Nat :=
  let value :=
    if '0' ≤ c ∧ c ≤ '9' then c.toNat - 48
    else if 'a' ≤ c ∧ c ≤ 'f' then c.toNat - 87
    else if 'A' ≤ c ∧ c ≤ 'F' then c.toNat - 55
    else radix
  if value < radix then some value else none

def isDigit (radix : Nat) (c : Char) : Bool := (toDigit radix c).isSome

def givenChar (c : Char) : Reader Unit
  | d :: rest => if d = c then some ((),rest) else none
  | [] => none

/- All digits that follow; none where there is none, where there are too many, where a leading zero
is not wanted, or where the number is above `bound`. -/
def number (radix bound : Nat) (maxDigits : Option Nat) (zeroPrefix : Bool) : Reader Nat := fun text =>
  let digits := (text.takeWhile (isDigit radix)).filterMap (toDigit radix)
  let value := digits.foldl (fun value digit => value * radix + digit) 0
  if digits = [] || maxDigits.any (· < digits.length) ||
      (!zeroPrefix && text.head? = some '0' && decide (1 < digits.length)) || decide (bound < value) then
    none
  else some (value,text.dropWhile (isDigit radix))

def separator (sep : Char) (index : Nat) (inner : Reader α) : Reader α := do
  if index > 0 then givenChar sep
  inner

def parseWith (inner : Reader α) (text : List Char) : Option α :=
  match inner text with
  | some (value,[]) => some value
  | _ => none

def Takes (allowed : Char → Prop) (p : Reader α) : Prop :=
  ∀ text value rest, p text = some (value,rest) → ∃ used, text = used ++ rest ∧ ∀ c ∈ used, allowed c

variable {allowed : Char → Prop}

theorem takesPure (value : α) : Takes allowed (pure value : Reader α) := by
  intro text value' rest taken
  cases taken
  exact ⟨[],rfl,by simp⟩

theorem takesBind {p : Reader α} {f : α → Reader β} (first : Takes allowed p)
    (second : ∀ value, Takes allowed (f value)) : Takes allowed (p >>= f) := by
  intro text value rest taken
  obtain ⟨⟨middle,left⟩,one,two⟩ := Option.bind_eq_some_iff.mp taken
  obtain ⟨used,rfl,fine⟩ := first _ _ _ one
  obtain ⟨used',rfl,fine'⟩ := second middle _ _ _ two
  refine ⟨used ++ used',(List.append_assoc ..).symm,fun c mem => ?_⟩
  exact (List.mem_append.mp mem).elim (fine c) (fine' c)

theorem takesLift (value : Option α) : Takes allowed (StateT.lift value : Reader α) := by
  intro text value' rest taken
  obtain ⟨_,_,same⟩ := Option.bind_eq_some_iff.mp taken
  cases same
  exact ⟨[],rfl,by simp⟩

theorem takesFailure : Takes allowed (failure : Reader α) := fun _ _ _ taken => by cases taken

theorem takesOrElse {p q : Reader α} (first : Takes allowed p) (second : Takes allowed q) :
    Takes allowed (p <|> q) := by
  intro text value rest taken
  have either : (p text).or (q text) = some (value,rest) := by
    rw [← taken]
    show _ = (p text <|> q text)
    cases p text <;> rfl
  rcases Option.or_eq_some_iff.mp either with one | ⟨_,two⟩
  · exact first _ _ _ one
  · exact second _ _ _ two

theorem takesGiven {c : Char} (ok : allowed c) : Takes allowed (givenChar c) := by
  intro text value rest taken
  cases text with
  | nil => cases taken
  | cons d tail =>
    rw [givenChar] at taken
    split at taken
    · rename_i same
      cases taken
      exact ⟨[d],rfl,fun e mem => by rw [List.mem_singleton.mp mem,same]; exact ok⟩
    · cases taken

theorem takesNumber {radix bound : Nat} {maxDigits : Option Nat} {zeroPrefix : Bool}
    (ok : ∀ c, isDigit radix c = true → allowed c) :
    Takes allowed (number radix bound maxDigits zeroPrefix) := by
  intro text value rest taken
  rw [number] at taken
  split at taken
  · cases taken
  · cases taken
    exact ⟨_,(List.takeWhile_append_dropWhile (p := isDigit radix) (l := text)).symm,
      fun c mem => ok c (List.mem_takeWhile_imp mem)⟩

theorem takesSeparator {sep : Char} {index : Nat} {inner : Reader α} (ok : allowed sep)
    (reads : Takes allowed inner) : Takes allowed (separator sep index inner) := by
  unfold separator
  split
  · exact takesBind (takesGiven ok) fun _ => reads
  · exact takesBind (takesPure ()) fun _ => reads

theorem parsedAllowed {inner : Reader α} (reads : Takes allowed inner) {text : List Char} {value : α}
    (parsed : parseWith inner text = some value) : ∀ c ∈ text, allowed c := by
  unfold parseWith at parsed
  split at parsed
  · rename_i taken
    obtain ⟨used,same,fine⟩ := reads _ _ _ taken
    rw [List.append_nil] at same
    exact same ▸ fine
  · cases parsed

end Reader
end TelephoneBooth
