import Mathlib.Algebra.CharP.Two
import Mathlib.Algebra.Field.ZMod
import Mathlib.RingTheory.AdjoinRoot

/-! Cyclic redundancy checks. A register of `w` bits is a polynomial over the field of two
elements; fed the bits of a message it holds the remainder of the message times `X ^ w`. -/
namespace TelephoneBooth.Remainder
open Polynomial

/- One bit goes in on the left; if it differs from the one shifted out, the polynomial is
subtracted. The leading term of the polynomial is not in `generator`. -/
def feed {w : Nat} (generator register : BitVec w) (bit : Bool) : BitVec w :=
  if (register.msb ^^ bit) = true then (register <<< 1) ^^^ generator else register <<< 1

def remainder {w : Nat} (generator : BitVec w) (bits : List Bool) : BitVec w :=
  bits.foldl (feed generator) 0

def msbFirst {w : Nat} (word : BitVec w) : List Bool :=
  ((List.range w).map word.getLsbD).reverse

theorem msbFirstLength {w : Nat} (word : BitVec w) : (msbFirst word).length = w := by
  simp [msbFirst]

theorem msbFirstAppend {m n : Nat} (high : BitVec m) (low : BitVec n) :
    msbFirst (high ++ low) = msbFirst high ++ msbFirst low := by
  have lower : (List.range n).map (high ++ low).getLsbD = (List.range n).map low.getLsbD :=
    List.map_congr_left fun i mem => by
      rw [BitVec.getLsbD_append,if_pos (List.mem_range.mp mem)]
  have upper : (List.range m).map ((high ++ low).getLsbD ∘ (n + ·)) =
      (List.range m).map high.getLsbD :=
    List.map_congr_left fun i _ => by
      rw [Function.comp_apply,BitVec.getLsbD_append,if_neg (by omega),Nat.add_sub_cancel_left]
  have parts : List.range (m + n) = List.range n ++ (List.range m).map (n + ·) := by
    rw [Nat.add_comm,List.range_add]
  rw [msbFirst,parts,List.map_append,List.map_map,lower,upper,
    List.reverse_append]
  rfl

noncomputable section Polynomials

def coefficient (bit : Bool) : ZMod 2 := if bit then 1 else 0

def poly {w : Nat} (word : BitVec w) : (ZMod 2)[X] :=
  ∑ i ∈ Finset.range w, C (coefficient (word.getLsbD i)) * X ^ i

/- The first bit of a message is its leading coefficient. -/
def message (bits : List Bool) : (ZMod 2)[X] :=
  bits.foldl (fun p bit => p * X + C (coefficient bit)) 0

def modulus {w : Nat} (generator : BitVec w) : (ZMod 2)[X] := X ^ w + poly generator

def residue {w : Nat} (generator : BitVec w) : (ZMod 2)[X] →+* AdjoinRoot (modulus generator) :=
  AdjoinRoot.mk (modulus generator)

theorem coefficientXor (a b : Bool) : coefficient (a ^^ b) = coefficient a + coefficient b := by
  cases a <;> cases b <;> decide

theorem coefficientInjective {a b : Bool} (same : coefficient a = coefficient b) : a = b := by
  cases a <;> cases b <;> first | rfl | exact absurd same (by decide)

theorem polyCoeff {w : Nat} (word : BitVec w) (i : Nat) :
    (poly word).coeff i = coefficient (word.getLsbD i) := by
  rw [poly,finsetSum_coeff]
  simp only [coeff_C_mul_X_pow]
  rw [Finset.sum_ite_eq]
  split
  · rfl
  · rename_i outside
    rw [BitVec.getLsbD_of_ge _ _ (by simpa using outside)]
    rfl

theorem polyInjective {w : Nat} {a b : BitVec w} (same : poly a = poly b) : a = b := by
  refine BitVec.eq_of_getLsbD_eq fun i _ => coefficientInjective ?_
  rw [← polyCoeff,← polyCoeff,same]

theorem polyXor {w : Nat} (a b : BitVec w) : poly (a ^^^ b) = poly a + poly b := by
  ext i
  rw [coeff_add,polyCoeff,polyCoeff,polyCoeff,BitVec.getLsbD_xor,coefficientXor]

theorem polyZero (w : Nat) : poly (0#w) = 0 := by
  ext i
  rw [polyCoeff,BitVec.getLsbD_zero,coeff_zero]
  rfl

theorem polyDegree {w : Nat} (word : BitVec w) : (poly word).degree < w := by
  refine (degree_lt_iff_coeff_zero _ _).mpr fun i beyond => ?_
  rw [polyCoeff,BitVec.getLsbD_of_ge _ _ beyond]
  rfl

theorem polyShift {w : Nat} (word : BitVec w) :
    poly word * X = poly (word <<< 1) + C (coefficient word.msb) * X ^ w := by
  ext i
  rw [coeff_add,coeff_C_mul_X_pow,polyCoeff,BitVec.getLsbD_shiftLeft]
  cases i with
  | zero =>
    rw [coeff_mul_X_zero]
    cases w with
    | zero => simp [BitVec.msb_eq_getLsbD_last,coefficient]
    | succ w => simp [coefficient]
  | succ i =>
    rw [coeff_mul_X,polyCoeff]
    rcases Nat.lt_trichotomy (i + 1) w with inside | rfl | outside
    · simp [inside,Nat.ne_of_lt inside]
    · simp [BitVec.msb_eq_getLsbD_last,coefficient]
    · have above : word.getLsbD i = false := BitVec.getLsbD_of_ge _ _ (by omega)
      simp [above,Nat.not_lt_of_gt outside,Nat.ne_of_gt outside]

theorem polyAppend {m n : Nat} (high : BitVec m) (low : BitVec n) :
    poly (high ++ low) = poly high * X ^ n + poly low := by
  ext i
  rw [coeff_add,coeff_mul_X_pow',polyCoeff,polyCoeff,polyCoeff,BitVec.getLsbD_append]
  by_cases inside : i < n
  · simp [inside]
  · have above : low.getLsbD i = false := BitVec.getLsbD_of_ge _ _ (Nat.le_of_not_lt inside)
    have zero : coefficient false = 0 := rfl
    rw [if_neg inside,if_pos (Nat.le_of_not_lt inside),above,zero,add_zero]

theorem messageSnoc (bits : List Bool) (bit : Bool) :
    message (bits ++ [bit]) = message bits * X + C (coefficient bit) := List.foldl_concat ..

theorem messageAppend (a b : List Bool) :
    message (a ++ b) = message a * X ^ b.length + message b := by
  induction b using List.reverseRecOn with
  | nil => simp [message]
  | append_singleton b bit ih =>
    rw [← List.append_assoc,messageSnoc,messageSnoc,ih,List.length_append,List.length_singleton]
    ring

theorem messageCoeff (bits : List Bool) (i : Nat) :
    (message bits).coeff i = coefficient (bits.reverse.getD i false) := by
  induction bits using List.reverseRecOn generalizing i with
  | nil => rfl
  | append_singleton bits bit ih =>
    rw [messageSnoc,coeff_add,List.reverse_append]
    cases i with
    | zero => simp
    | succ i => simp [ih]

theorem messageWord {w : Nat} (word : BitVec w) : message (msbFirst word) = poly word := by
  ext i
  rw [messageCoeff,polyCoeff,msbFirst,List.reverse_reverse,List.getD_eq_getElem?_getD]
  rcases Nat.lt_or_ge i w with inside | outside
  · simp [inside]
  · simp [outside]

section Reduction
variable {w : Nat} (generator : BitVec w)

theorem modulusMonic : (modulus generator).Monic := monic_X_pow_add (polyDegree generator)

theorem modulusDegree : (modulus generator).degree = w :=
  (degree_add_eq_left_of_degree_lt (by rw [degree_X_pow]; exact polyDegree generator)).trans
    (degree_X_pow w)

theorem residueLeading : residue generator (X ^ w) = residue generator (poly generator) := by
  refine AdjoinRoot.mk_eq_mk.mpr ?_
  rw [CharTwo.sub_eq_add]
  exact dvd_refl _

theorem residueReduced {word : BitVec w} {p : (ZMod 2)[X]}
    (same : residue generator (poly word) = residue generator p) :
    poly word = p %ₘ modulus generator := by
  have small : poly word %ₘ modulus generator = poly word :=
    (modByMonic_eq_self_iff (modulusMonic generator)).mpr
      (by rw [modulusDegree]; exact polyDegree word)
  rw [← small]
  exact modByMonic_eq_of_dvd_sub (modulusMonic generator) (AdjoinRoot.mk_eq_mk.mp same)

theorem residueFeed (register : BitVec w) (bit : Bool) :
    residue generator (poly (feed generator register bit)) =
      residue generator (poly register * X + C (coefficient bit) * X ^ w) := by
  have leaving : poly register * X + C (coefficient bit) * X ^ w =
      poly (register <<< 1) + C (coefficient (register.msb ^^ bit)) * X ^ w := by
    rw [polyShift,coefficientXor,C_add]
    ring
  rw [leaving,map_add,map_mul,residueLeading]
  unfold feed
  split
  · rename_i differ
    have one : C (coefficient true) = (1 : (ZMod 2)[X]) := rfl
    rw [differ,one,map_one,one_mul,polyXor,map_add]
  · rename_i agree
    have zero : C (coefficient false) = (0 : (ZMod 2)[X]) := C_0
    rw [Bool.eq_false_iff.mpr agree,zero,map_zero,zero_mul,add_zero]

theorem residueShifts (register : BitVec w) (k : Nat) :
    residue generator (poly ((feed generator · false)^[k] register)) =
      residue generator (poly register * X ^ k) := by
  induction k with
  | zero => rw [pow_zero,mul_one]; rfl
  | succ k ih =>
    have zero : C (coefficient false) = (0 : (ZMod 2)[X]) := C_0
    rw [Function.iterate_succ_apply',residueFeed,zero,zero_mul,add_zero,map_mul,ih,pow_succ,
      ← mul_assoc,map_mul _ _ X]

theorem residueRemainder (bits : List Bool) :
    residue generator (poly (remainder generator bits)) =
      residue generator (message bits * X ^ w) := by
  induction bits using List.reverseRecOn with
  | nil =>
    have start : remainder generator [] = 0#w := rfl
    rw [start,polyZero]
    simp [message]
  | append_singleton bits bit ih =>
    have last : remainder generator (bits ++ [bit]) = feed generator (remainder generator bits) bit :=
      List.foldl_concat ..
    rw [last,residueFeed,messageSnoc,map_add,map_mul,ih]
    simp only [map_add,map_mul]
    ring

theorem remainderReduced (bits : List Bool) :
    poly (remainder generator bits) = (message bits * X ^ w) %ₘ modulus generator :=
  residueReduced generator (residueRemainder generator bits)

theorem remainderUnique {word : BitVec w} {bits : List Bool}
    (same : residue generator (poly word) = residue generator (message bits * X ^ w)) :
    word = remainder generator bits := by
  refine polyInjective ?_
  rw [remainderReduced]
  exact residueReduced generator same

theorem remainderOwn (bits : List Bool) :
    remainder generator (bits ++ msbFirst (remainder generator bits)) = 0#w := by
  refine (remainderUnique generator ?_).symm
  have twice : residue generator (message bits * X ^ w) +
      residue generator (message bits * X ^ w) = 0 := by
    rw [← map_add,CharTwo.add_self_eq_zero,map_zero]
  rw [messageAppend,messageWord,msbFirstLength,polyZero,map_mul,map_add,residueRemainder,twice,
    zero_mul,map_zero]

end Reduction

end Polynomials

end TelephoneBooth.Remainder
