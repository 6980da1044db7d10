import TelephoneBooth.Checksum
import TelephoneBooth.Remainder

/-! The checksums of a FLAC frame as remainders: a table entry is eight shifts of the register. -/
namespace TelephoneBooth
open Polynomial Remainder

def bitsOf (bytes : List UInt8) : List Bool := bytes.flatMap fun byte => msbFirst byte.toBitVec

theorem messageByte (bytes : List UInt8) (byte : UInt8) :
    message (bitsOf (bytes ++ [byte])) = message (bitsOf bytes) * X ^ 8 + poly byte.toBitVec := by
  have last : bitsOf (bytes ++ [byte]) = bitsOf bytes ++ msbFirst byte.toBitVec := by
    simp [bitsOf]
  rw [last,messageAppend,messageWord,msbFirstLength]

theorem residueStart {w : Nat} (generator : BitVec w) (k : Nat) :
    residue generator (poly (0#w)) = residue generator (message (bitsOf []) * X ^ k) := by
  simp [polyZero,bitsOf,message]

/- The source tests the bit that is about to leave with a mask. -/
theorem feedMasked {w : Nat} (generator word : BitVec w) : feed generator word false =
    if word &&& BitVec.twoPow w (w - 1) = 0#w then word <<< 1 else (word <<< 1) ^^^ generator := by
  rw [feed,Bool.xor_false,BitVec.and_twoPow,← BitVec.msb_eq_getLsbD_last]
  cases w with
  | zero => simp [BitVec.of_length_zero]
  | succ w => cases word.msb <;> simp

section Narrow

theorem crc8BitFeeds (crc : UInt8) :
    (crc8Bit crc).toBitVec = feed crc8Poly.toBitVec crc.toBitVec false := by
  have top : crc &&& 0x80 = 0 ↔ crc.toBitVec &&& BitVec.twoPow 8 7 = 0#8 :=
    UInt8.toBitVec_inj.symm
  rw [feedMasked,crc8Bit,apply_ite UInt8.toBitVec]
  simp only [top]
  rfl

theorem crc8EntryShifts (byte : UInt8) :
    (crc8Entry byte).toBitVec = (feed crc8Poly.toBitVec · false)^[8] byte.toBitVec := by
  have entry : crc8Entry byte = crc8Bit^[8] byte := by
    have read : crc8Entry byte = crc8Bit^[8] (UInt8.ofNat byte.toNat) :=
      Vector.getElem_ofFn byte.toNat_lt
    rw [read,UInt8.ofNat_toNat]
  rw [entry]
  have turns : Function.Semiconj UInt8.toBitVec crc8Bit (feed crc8Poly.toBitVec · false) := crc8BitFeeds
  exact turns.iterate_right 8 byte

theorem crc8Residue (bytes : List UInt8) :
    residue crc8Poly.toBitVec (poly (crc8 bytes).toBitVec) =
      residue crc8Poly.toBitVec (message (bitsOf bytes) * X ^ 8) := by
  induction bytes using List.reverseRecOn with
  | nil => exact residueStart _ 8
  | append_singleton bytes byte ih =>
    have last : crc8 (bytes ++ [byte]) = crc8Entry (crc8 bytes ^^^ byte) := List.foldl_concat ..
    rw [last,crc8EntryShifts,residueShifts,messageByte,UInt8.toBitVec_xor,polyXor]
    simp only [map_mul,map_add,ih]

end Narrow

section Wide

theorem crc16BitFeeds (crc : UInt16) :
    (crc16Bit crc).toBitVec = feed crc16Poly.toBitVec crc.toBitVec false := by
  have top : crc &&& 0x8000 = 0 ↔ crc.toBitVec &&& BitVec.twoPow 16 15 = 0#16 :=
    UInt16.toBitVec_inj.symm
  rw [feedMasked,crc16Bit,apply_ite UInt16.toBitVec]
  simp only [top]
  rfl

theorem halves (word : UInt16) :
    word.toBitVec = (word >>> 8).toUInt8.toBitVec ++ word.toUInt8.toBitVec := by
  refine BitVec.eq_of_getLsbD_eq fun i fits => Eq.trans ?_ BitVec.getLsbD_append.symm
  rcases Nat.lt_or_ge i 8 with low | high
  · simp [low]
  · have rest : i - 8 < 8 := by omega
    simp [Nat.not_lt_of_ge high,rest,Nat.add_sub_cancel' high]

theorem polyHighLow (word : UInt16) : poly word.toBitVec =
    poly (word >>> 8).toUInt8.toBitVec * X ^ 8 + poly word.toUInt8.toBitVec := by
  rw [halves]
  exact polyAppend _ _

theorem polyRaised (word : UInt16) : poly (word <<< 8).toBitVec = poly word.toUInt8.toBitVec * X ^ 8 := by
  have raised : (word <<< 8).toBitVec = word.toUInt8.toBitVec ++ 0#8 := by
    refine BitVec.eq_of_getLsbD_eq fun i fits => Eq.trans ?_ BitVec.getLsbD_append.symm
    rcases Nat.lt_or_ge i 8 with low | high
    · simp [low]
    · have rest : i - 8 < 8 := by omega
      simp [Nat.not_lt_of_ge high,rest,fits,-BitVec.getLsbD_eq_getElem]
  rw [raised,← add_zero (_ * _),← polyZero 8]
  exact polyAppend _ _

theorem crc16EntryShifts (byte : UInt8) : ∃ word : UInt16,
    poly word.toBitVec = poly byte.toBitVec * X ^ 8 ∧
    (crc16Entry byte).toBitVec = (feed crc16Poly.toBitVec · false)^[8] word.toBitVec := by
  have read : crc16Entry byte = crc16Bit^[8] (UInt16.ofNat byte.toNat <<< 8) :=
    Vector.getElem_ofFn byte.toNat_lt
  have turns : Function.Semiconj UInt16.toBitVec crc16Bit (feed crc16Poly.toBitVec · false) :=
    crc16BitFeeds
  have same : (UInt16.ofNat byte.toNat).toUInt8 = byte := by simp
  refine ⟨UInt16.ofNat byte.toNat <<< 8,?_,?_⟩
  · rw [polyRaised,same]
  · rw [read]
    exact turns.iterate_right 8 _

theorem raisedByte (low high next : (ZMod 2)[X]) :
    low * X ^ 8 + (high + next) * X ^ 8 * X ^ 8 = (high * X ^ 8 + low) * X ^ 8 + next * X ^ 16 := by
  ring

theorem crc16Residue (bytes : List UInt8) :
    residue crc16Poly.toBitVec (poly (crc16 bytes).toBitVec) =
      residue crc16Poly.toBitVec (message (bitsOf bytes) * X ^ 16) := by
  induction bytes using List.reverseRecOn with
  | nil => exact residueStart _ 16
  | append_singleton bytes byte ih =>
    have last : crc16 (bytes ++ [byte]) = (crc16 bytes <<< 8) ^^^
      crc16Entry ((crc16 bytes >>> 8).toUInt8 ^^^ byte) := List.foldl_concat ..
    obtain ⟨word,index,entry⟩ := crc16EntryShifts ((crc16 bytes >>> 8).toUInt8 ^^^ byte)
    rw [UInt8.toBitVec_xor,polyXor] at index
    rw [polyHighLow] at ih
    have split_ (sent next : (ZMod 2)[X]) :
        (sent * X ^ 8 + next) * X ^ 16 = sent * X ^ 16 * X ^ 8 + next * X ^ 16 := by ring
    rw [last,UInt16.toBitVec_xor,polyXor,polyRaised,map_add,entry,residueShifts,index,← map_add,
      raisedByte,messageByte,split_,map_add,map_add,map_mul,ih,← map_mul]

end Wide

theorem crc8Modulus : modulus crc8Poly.toBitVec = X ^ 8 + X ^ 2 + X + 1 := by
  have terms : poly crc8Poly.toBitVec = 1 + X + X ^ 2 := by
    simp [poly,Finset.sum_range_succ,coefficient,crc8Poly]
  rw [modulus,terms]
  ring

theorem crc16Modulus : modulus crc16Poly.toBitVec = X ^ 16 + X ^ 15 + X ^ 2 + 1 := by
  have terms : poly crc16Poly.toBitVec = 1 + X ^ 2 + X ^ 15 := by
    simp [poly,Finset.sum_range_succ,coefficient,crc16Poly]
  rw [modulus,terms]
  ring

theorem crc8Remainder (bytes : List UInt8) :
    (crc8 bytes).toBitVec = remainder crc8Poly.toBitVec (bitsOf bytes) :=
  remainderUnique _ (crc8Residue bytes)

theorem crc16Remainder (bytes : List UInt8) :
    (crc16 bytes).toBitVec = remainder crc16Poly.toBitVec (bitsOf bytes) :=
  remainderUnique _ (crc16Residue bytes)

theorem bitsOfBytes (a b : List UInt8) : bitsOf (a ++ b) = bitsOf a ++ bitsOf b :=
  List.flatMap_append

theorem bitsOfWord (word : UInt16) : bitsOf (toBeBytes word) = msbFirst word.toBitVec := by
  have joined : msbFirst word.toBitVec =
      msbFirst (word >>> 8).toUInt8.toBitVec ++ msbFirst word.toUInt8.toBitVec := by
    rw [halves]
    exact msbFirstAppend _ _
  simp [bitsOf,toBeBytes,joined]

/- The table-driven checksums are the remainders, bit by bit and as polynomials, and a message
that carries its own checksum leaves none. -/
theorem checksumsAreRemainders (bytes : List UInt8) :
    (crc8 bytes).toBitVec = remainder crc8Poly.toBitVec (bitsOf bytes) ∧
    poly (crc8 bytes).toBitVec =
      (message (bitsOf bytes) * X ^ 8) %ₘ (X ^ 8 + X ^ 2 + X + 1) ∧
    (crc16 bytes).toBitVec = remainder crc16Poly.toBitVec (bitsOf bytes) ∧
    poly (crc16 bytes).toBitVec =
      (message (bitsOf bytes) * X ^ 16) %ₘ (X ^ 16 + X ^ 15 + X ^ 2 + 1) ∧
    crc8 (bytes ++ [crc8 bytes]) = 0 ∧ crc16 (bytes ++ toBeBytes (crc16 bytes)) = 0 := by
  refine ⟨crc8Remainder bytes,?_,crc16Remainder bytes,?_,?_,?_⟩
  · rw [crc8Remainder,remainderReduced,crc8Modulus]
  · rw [crc16Remainder,remainderReduced,crc16Modulus]
  · refine UInt8.toBitVec_inj.mp ?_
    have own : bitsOf [crc8 bytes] = msbFirst (crc8 bytes).toBitVec := List.append_nil _
    rw [crc8Remainder,bitsOfBytes,own,crc8Remainder bytes]
    exact remainderOwn _ _
  · refine UInt16.toBitVec_inj.mp ?_
    rw [crc16Remainder,bitsOfBytes,bitsOfWord,crc16Remainder bytes]
    exact remainderOwn _ _

end TelephoneBooth
