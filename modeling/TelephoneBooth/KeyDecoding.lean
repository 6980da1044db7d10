import TelephoneBooth.FileStorage
import TelephoneBooth.TextReader

/-! `decode_key`, byte by byte, and the round trip with `encode_key`. -/
namespace TelephoneBooth

def utf8Bytes (text : Name) : List UInt8 := text.flatMap String.utf8EncodeChar

def isCharBoundary (rest : List UInt8) : Bool := rest.head?.all fun b => b < 0x80 || 0xC0 ≤ b

/- `u8::from_str_radix(src, 16)`: a plus sign is taken, more than 255 is not. -/
def fromStrRadix16 (src : List UInt8) : Option UInt8 :=
  let digits := if src.length > 1 && src.head? = some '+'.toUInt8 then src.tail else src
  let value := digits.foldlM (fun (value : Nat) b =>
    (Reader.toDigit 16 (Char.ofNat b.toNat)).bind fun digit =>
      if value * 16 + digit < 256 then some (value * 16 + digit) else none) 0
  if digits = [] then none else value.map UInt8.ofNat

/- The loop over the bytes; none where the slice of two bytes is not cut at characters and the
indexing panics. -/
def decodeBytes : List UInt8 → Option (List UInt8)
  | [] => some []
  | b :: high :: low :: after =>
    if b = '%'.toUInt8 then
      if isCharBoundary (high :: low :: after) && isCharBoundary after then
        match fromStrRadix16 [high,low] with
        | some byte => (decodeBytes after).map (byte :: ·)
        | none => (decodeBytes (high :: low :: after)).map (b :: ·)
      else none
    else (decodeBytes (high :: low :: after)).map (b :: ·)
  | b :: rest => (decodeBytes rest).map (b :: ·)

/- `String::from_utf8(out).unwrap_or_default()`. -/
def fromUtf8OrDefault (out : List UInt8) : Name :=
  (out.toByteArray.utf8Decode?.map Array.toList).getD []

def decodeKey (encoded : Name) : Option Name :=
  if encoded = emptyName then some []
  else (decodeBytes (utf8Bytes encoded)).map fromUtf8OrDefault

theorem utf8Read (text : Name) : fromUtf8OrDefault (utf8Bytes text) = text := by
  show (((List.utf8Encode text).utf8Decode?).map Array.toList).getD [] = text
  rw [List.utf8Decode?_utf8Encode]
  rfl

theorem utf8Append (xs ys : Name) : utf8Bytes (xs ++ ys) = utf8Bytes xs ++ utf8Bytes ys :=
  List.flatMap_append

theorem utf8Shape (c : Char) : String.utf8EncodeChar c = [UInt8.ofNat c.toNat] ∧ c.toNat < 128 ∨
    (∀ b ∈ String.utf8EncodeChar c, 0x80 ≤ b) ∧
      ∃ b rest, String.utf8EncodeChar c = b :: rest ∧ 0xC0 ≤ b := by
  unfold String.utf8EncodeChar
  rw [show c.val.toNat = c.toNat from rfl]
  dsimp only
  split
  · rename_i small
    exact .inl ⟨rfl,by omega⟩
  · refine .inr ?_
    split
    · refine ⟨?_,_,_,rfl,?_⟩ <;> simp [UInt8.le_iff_toNat_le] <;> omega
    · split
      · refine ⟨?_,_,_,rfl,?_⟩ <;> simp [UInt8.le_iff_toNat_le] <;> omega
      · refine ⟨?_,_,_,rfl,?_⟩ <;> simp [UInt8.le_iff_toNat_le] <;> omega

theorem utf8Percent {c : Char} (other : c ≠ '%') : '%'.toUInt8 ∉ String.utf8EncodeChar c := by
  rcases utf8Shape c with ⟨single,small⟩ | ⟨high,_⟩
  · rw [single,List.mem_singleton]
    intro same
    have value := congrArg UInt8.toNat same
    rw [UInt8.toNat_ofNat',Nat.mod_eq_of_lt (Nat.lt_trans small (by decide))] at value
    exact other (Char.toNat_inj.mp value.symm)
  · exact fun mem => absurd (high _ mem) (by decide)

theorem utf8Boundary (text : Name) : isCharBoundary (utf8Bytes text) = true := by
  cases text with
  | nil => rfl
  | cons c rest =>
    rcases utf8Shape c with ⟨single,small⟩ | ⟨_,b,tail,shape,lead⟩
    · rw [utf8Bytes,List.flatMap_cons,single]
      simp [isCharBoundary,UInt8.lt_iff_toNat_lt]
      omega
    · rw [utf8Bytes,List.flatMap_cons,shape]
      simp [isCharBoundary,lead]

theorem decodeOther {b : UInt8} (other : b ≠ '%'.toUInt8) (rest : List UInt8) :
    decodeBytes (b :: rest) = (decodeBytes rest).map (b :: ·) := by
  rcases rest with _ | ⟨high,_ | ⟨low,after⟩⟩
  · rfl
  · rfl
  · rw [decodeBytes,if_neg other]

theorem decodeOthers {bytes : List UInt8} (others : '%'.toUInt8 ∉ bytes) (rest : List UInt8) :
    decodeBytes (bytes ++ rest) = (decodeBytes rest).map (bytes ++ ·) := by
  induction bytes with
  | nil => exact Option.map_id'.symm
  | cons b bytes ih =>
    have apart : b ≠ '%'.toUInt8 := fun same => others (same ▸ List.mem_cons_self)
    rw [List.cons_append,decodeOther apart,ih fun mem => others (List.mem_cons_of_mem _ mem),
      Option.map_map]
    rfl

theorem escapeBytes {c : Char} (special : c ∈ escaped) : ∃ high low byte,
    utf8Bytes (encodeChar c) = ['%'.toUInt8,high,low] ∧ isCharBoundary [high,low] = true ∧
      fromStrRadix16 [high,low] = some byte ∧ String.utf8EncodeChar c = [byte] := by
  have shape : ∀ c ∈ escaped,
      utf8Bytes (encodeChar c) = '%'.toUInt8 :: (utf8Bytes (encodeChar c)).tail ∧
      (utf8Bytes (encodeChar c)).length = 3 ∧ isCharBoundary (utf8Bytes (encodeChar c)).tail = true ∧
      fromStrRadix16 (utf8Bytes (encodeChar c)).tail = some (UInt8.ofNat c.toNat) ∧
      String.utf8EncodeChar c = [UInt8.ofNat c.toNat] :=
    List.all_iff_forall_prop.mp (by decide +kernel)
  obtain ⟨front,length,cut,read,own⟩ := shape c special
  rw [front,List.length_cons] at length
  obtain ⟨high,low,two⟩ := List.length_eq_two.mp (Nat.succ.inj length)
  rw [two] at front cut read
  exact ⟨high,low,_,front,cut,read,own⟩

theorem decodeEncodedChar (c : Char) (rest : Name) :
    decodeBytes (utf8Bytes (encodeChar c) ++ utf8Bytes rest) =
      (decodeBytes (utf8Bytes rest)).map (String.utf8EncodeChar c ++ ·) := by
  by_cases special : c ∈ escaped
  · obtain ⟨high,low,byte,bytes,cut,read,own⟩ := escapeBytes special
    rw [bytes,own]
    show decodeBytes ('%'.toUInt8 :: high :: low :: utf8Bytes rest) = _
    have cut' : isCharBoundary (high :: low :: utf8Bytes rest) = true := cut
    rw [decodeBytes,if_pos rfl,cut',utf8Boundary,Bool.and_self,if_pos rfl,read]
    rfl
  · rw [encodePlain special]
    have other : c ≠ '%' := fun same => special (same ▸ by decide)
    have plain : utf8Bytes [c] = String.utf8EncodeChar c := List.flatMap_singleton ..
    rw [plain]
    exact decodeOthers (utf8Percent other) _

theorem decodeEncoded (key : Name) : decodeBytes (utf8Bytes (key.flatMap encodeChar)) = some (utf8Bytes key) := by
  induction key with
  | nil => rfl
  | cons c rest ih =>
    rw [List.flatMap_cons,utf8Append,decodeEncodedChar,ih]
    rfl

theorem decodeEncodeKey (key : Name) : decodeKey (encodeKey key) = some key := by
  unfold decodeKey encodeKey
  by_cases empty_ : key = []
  · rw [if_pos empty_,if_pos rfl,empty_]
  · rw [if_neg empty_,if_neg (emptyNameApart key),decodeEncoded,Option.map_some,utf8Read]

/- Keys and file names: what is read back is the key, no two keys share a name, and no name leads
out of the directory or to a temporary file. -/
theorem keysMapSafely (key key' : Name) :
    decodeKey (encodeKey key) = some key ∧ (encodeKey key = encodeKey key' → key = key') ∧
    encodeKey key ≠ [] ∧ (∀ c ∈ ['/','\\',':','.','\x00'], c ∉ encodeKey key) ∧
    encodeKey key ≠ ['.'] ∧ encodeKey key ≠ ['.','.'] ∧ ¬ tempPrefix <+: encodeKey key := by
  have dotless := encodeKeyDot key
  refine ⟨decodeEncodeKey key,encodeKeyInjective,?_,encodeKeySafe key,?_,?_,?_⟩
  · unfold encodeKey
    split
    · decide
    · rename_i nonempty
      obtain ⟨c,rest,rfl⟩ := List.exists_cons_of_ne_nil nonempty
      rw [List.flatMap_cons]
      exact List.append_ne_nil_of_left_ne_nil (encodeCharNonempty c) _
  · intro same
    rw [same] at dotless
    exact dotless (by decide)
  · intro same
    rw [same] at dotless
    exact dotless (by decide)
  · rintro ⟨rest,same⟩
    rw [← same] at dotless
    exact dotless (List.mem_append_left _ (by decide))

end TelephoneBooth
