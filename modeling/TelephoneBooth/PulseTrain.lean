import TelephoneBooth.CoreStep

/-! Trains of rotary pulses. The group counter starts again one pulse after the longest
group, so what the pause decodes depends on the length of the train modulo that period. -/
namespace TelephoneBooth
open State Event Effect

def pulseTrain (n : Nat) : List Input := List.replicate n (rotaryPulse,true)

def isFetch : Effect → Bool
  | fetchRandomQuestion | fetchRandomMessage | fetchInstructions => true
  | _ => false

def Undialed (s : State) (i : Input) : Prop :=
  (coreStep s i).2.any isFetch = false ∧ (coreStep s i).1 ≠ callUnavailable ∧
    ∀ reason, (coreStep s i).1 ≠ .error reason

def DecodesTo (digit : Option UInt8) (n : Nat) : Prop :=
  Machine.EachStep coreStep Undialed dialTone (pulseTrain n) ∧
  match digit with
  | some digit =>
    coreStep (coreRun dialTone (pulseTrain n)) (tick,true) =
      ((decodeDigit digit).1,
        ledChange (coreRun dialTone (pulseTrain n)) (decodeDigit digit).1 ++ (decodeDigit digit).2)
  | none => Undialed (coreRun dialTone (pulseTrain n)) (tick,true)

def counting (count : Nat) : State :=
  if count = 0 then dialTone else dialing (UInt8.ofNat count)

def period : Nat := maxPulsesPerDigit.toNat + 1

def countedDigit (count : Nat) : Option UInt8 :=
  if count = 0 then none
  else some (if count = maxPulsesPerDigit.toNat then 0 else UInt8.ofNat count)

theorem countedPulse : ∀ count < period,
    (coreStep (counting count) (rotaryPulse,true)).1 = counting ((count + 1) % period) := by decide

theorem undialedPulse {count : Nat} (small : count < period) :
    Undialed (counting count) (rotaryPulse,true) := by
  have fetches : ∀ count < period,
      (coreStep (counting count) (rotaryPulse,true)).2.any isFetch = false := by decide
  refine ⟨fetches count small,?_⟩
  rw [countedPulse count small]
  unfold counting
  split <;> simp

theorem countedTrain (n : Nat) : coreRun dialTone (pulseTrain n) = counting (n % period) := by
  induction n with
  | zero => rfl
  | succ n ih =>
    rw [pulseTrain,List.replicate_succ',coreRun,Machine.runSnoc]
    have next := countedPulse (n % period) (Nat.mod_lt _ (by decide))
    rw [Nat.mod_add_mod] at next
    exact (congrArg (fun s => (coreStep s (rotaryPulse,true)).1) ih).trans next

theorem undialedTrain {count : Nat} (small : count < period) (n : Nat) :
    Machine.EachStep coreStep Undialed (counting count) (pulseTrain n) := by
  induction n generalizing count with
  | zero => trivial
  | succ n ih =>
    refine ⟨undialedPulse small,?_⟩
    rw [countedPulse count small]
    exact ih (Nat.mod_lt _ (by decide))

theorem dialingTick (pulses : UInt8) : coreStep (dialing pulses) (tick,true) =
    ((decodeDigit (if pulses = 10 then 0 else pulses)).1,
      ledChange (dialing pulses) (decodeDigit (if pulses = 10 then 0 else pulses)).1 ++
        (decodeDigit (if pulses = 10 then 0 else pulses)).2) := rfl

theorem trainDecodes (n : Nat) : DecodesTo (countedDigit (n % period)) n := by
  refine ⟨undialedTrain (by decide : 0 < period) n,?_⟩
  rw [countedTrain]
  have small : n % period < period := Nat.mod_lt _ (by decide)
  by_cases none_ : n % period = 0
  · rw [none_]
    exact ⟨by decide,by decide,nofun⟩
  · have digit : ∀ count < period,
        (if UInt8.ofNat count = 10 then 0 else UInt8.ofNat count) =
          if count = maxPulsesPerDigit.toNat then 0 else UInt8.ofNat count := by decide
    rw [counting,if_neg none_,countedDigit,if_neg none_,← digit _ small]
    exact dialingTick _

def GroupLaw (n : Nat) : Prop :=
  (1 ≤ n ∧ n ≤ 9 → DecodesTo (some (UInt8.ofNat n)) n) ∧
  (n = maxPulsesPerDigit.toNat → DecodesTo (some 0) n) ∧
  (n = 0 ∨ maxPulsesPerDigit.toNat < n → DecodesTo none n)

theorem decodedShows (s : State) (digit : UInt8) :
    ¬ ((ledChange s (decodeDigit digit).1 ++ (decodeDigit digit).2).any isFetch = false ∧
      (decodeDigit digit).1 ≠ callUnavailable ∧ ∀ reason, (decodeDigit digit).1 ≠ .error reason) := by
  rintro ⟨fetches,unavailable,failed⟩
  unfold decodeDigit at fetches unavailable failed
  split at fetches
  · simp [isFetch] at fetches
  split at fetches
  · simp [isFetch] at fetches
  rename_i one two
  simp only [one,two,if_false] at unavailable failed
  split at fetches
  · rename_i middle
    exact unavailable (by rw [if_pos middle])
  split at fetches
  · simp [isFetch] at fetches
  · rename_i middle zero
    exact failed _ (by rw [if_neg middle,if_neg zero])

theorem decodedOnce {n : Nat} {digit : UInt8} (some_ : DecodesTo (some digit) n) : ¬ DecodesTo none n := by
  rintro ⟨_,silent⟩
  have step := some_.2
  simp only [Undialed,step] at silent
  exact decodedShows _ digit silent

theorem pulseGroupsDecode (n : Nat) :
    GroupLaw n ↔ n ≤ maxPulsesPerDigit.toNat ∨ n % period = 0 := by
  have decodes := trainDecodes n
  have bound : maxPulsesPerDigit.toNat = 10 := rfl
  have cycle : period = 11 := rfl
  rw [GroupLaw,bound]
  constructor
  · rintro ⟨_,_,excess⟩
    by_contra wrong
    rw [not_or] at wrong
    have counted : countedDigit (n % period) =
        some (if n % period = 10 then 0 else UInt8.ofNat (n % period)) := by
      rw [countedDigit,if_neg wrong.2,bound]
    rw [counted] at decodes
    exact decodedOnce decodes (excess (.inr (Nat.lt_of_not_le wrong.1)))
  · intro fits
    refine ⟨fun digit => ?_,fun ten => ?_,fun none_ => ?_⟩
    · have same : n % period = n := Nat.mod_eq_of_lt (by omega)
      rw [same,countedDigit,if_neg (by omega),bound,if_neg (by omega)] at decodes
      exact decodes
    · subst ten
      exact decodes
    · have whole : n % period = 0 := by
        rcases none_ with rfl | long
        · rfl
        · exact fits.resolve_left (Nat.not_le.mpr long)
      rw [whole] at decodes
      exact decodes

/- The twelfth pulse opens a new group: a train of twelve fetches a question. -/
theorem twelvePulsesDialOne :
    (coreStep (coreRun dialTone (pulseTrain 12)) (tick,true)).2.contains fetchRandomQuestion = true ∧
    12 > maxPulsesPerDigit.toNat := by decide

end TelephoneBooth
