import Mathlib.Algebra.GroupWithZero.Nat
import Mathlib.Data.Bool.AllAny
import Mathlib.Data.List.SplitLengths
import TelephoneBooth.Checksum

/-! The pass over the frame headers of a FLAC stream. A computation that panics is `none`: an
index out of range, a slice past the end, an overflow of `usize` or a failed assertion. -/
namespace TelephoneBooth

def frameHeaderPrefixLen : Nat := 4
def frameFooterLen : Nat := 2

def usizeMax : Nat := 2 ^ 64 - 1
def isizeMax : Nat := 2 ^ 63 - 1

/-- The bytes of a slice; no allocation is longer than `isize::MAX`. -/
structure ByteSlice where
  bytes : List UInt8
  fits : bytes.length ≤ isizeMax

def checkedAdd (a b : Nat) : Option Nat := if a + b ≤ usizeMax then some (a + b) else none

def checkedSub (a b : Nat) : Option Nat := if b ≤ a then some (a - b) else none

/- `&bytes[..stop]` panics past the end. -/
def firstBytes (bytes : List UInt8) (stop : Nat) : Option (List UInt8) :=
  if stop ≤ bytes.length then some (bytes.take stop) else none

def putByte (bytes : List UInt8) (index : Nat) (value : UInt8) : Option (List UInt8) :=
  if index < bytes.length then some (bytes.set index value) else none

/- `bytes[index..].copy_from_slice(values)` panics on a different length as well. -/
def putTail (bytes : List UInt8) (index : Nat) (values : List UInt8) : Option (List UInt8) :=
  if index ≤ bytes.length ∧ bytes.length - index = values.length then
    some (bytes.take index ++ values)
  else none

/- `bytes.get(start..stop)`, which does not panic. -/
def getRange (bytes : List UInt8) (start stop : Nat) : Option (List UInt8) :=
  if start ≤ stop ∧ stop ≤ bytes.length then some ((bytes.drop start).take (stop - start)) else none

def sampleRateCode (rateHz : UInt32) : Option UInt8 :=
  match rateHz with
  | 88200 => some 1
  | 176400 => some 2
  | 192000 => some 3
  | 8000 => some 4
  | 16000 => some 5
  | 22050 => some 6
  | 24000 => some 7
  | 32000 => some 8
  | 44100 => some 9
  | 48000 => some 10
  | 96000 => some 11
  | _ => none

def utf8CodedNumberLen (lead : UInt8) : Option Nat :=
  if lead ≤ 0x7F then some 1
  else if 0xC0 ≤ lead ∧ lead ≤ 0xDF then some 2
  else if 0xE0 ≤ lead ∧ lead ≤ 0xEF then some 3
  else if 0xF0 ≤ lead ∧ lead ≤ 0xF7 then some 4
  else if 0xF8 ≤ lead ∧ lead ≤ 0xFB then some 5
  else if 0xFC ≤ lead ∧ lead ≤ 0xFD then some 6
  else if lead = 0xFE then some 7
  else none

/- Block-size codes 6 and 7 append a block size to the header. -/
def blockSizeLen (code : UInt8) : Nat :=
  match code with
  | 6 => 1
  | 7 => 2
  | _ => 0

/- Sample-rate codes 12 to 14 append a rate; 15 is invalid. -/
def sampleRateLen (code : UInt8) : Option Nat :=
  match code with
  | 12 => some 1
  | 13 | 14 => some 2
  | 15 => none
  | _ => some 0

/- The inner `none` is a frame that does not parse. -/
def frameHeaderLen (frame : List UInt8) : Option (Option Nat) :=
  if frame.length < frameHeaderPrefixLen + 2 then some none
  else do
    let sync ← frame[0]?
    let reserved ← frame[1]?
    let sizes ← frame[2]?
    let lead ← frame[frameHeaderPrefixLen]?
    some <|
      if sync ≠ 0xFF ∨ reserved &&& 0xFC ≠ 0xF8 then none
      else do
        let codedNumberLen ← utf8CodedNumberLen lead
        let rateLen ← sampleRateLen (sizes &&& 0x0F)
        some (frameHeaderPrefixLen + codedNumberLen + blockSizeLen (sizes >>> 4) + rateLen + 1)

inductive Preflight where
  | rewritable
  | alreadyExplicit
  | ineligible
  deriving DecidableEq

/- What the body of the check's loop finds in a frame: whether its rate is left unspecified. The
inner `none` makes the stream ineligible. -/
def checkFrame (frame : List UInt8) (code : UInt8) : Option (Option Bool) := do
  match ← frameHeaderLen frame with
  | none => some none
  | some headerLen =>
    if frame.length < headerLen + frameFooterLen then some none
    else
      let last ← checkedSub headerLen 1
      let crc ← frame[last]?
      let header ← firstBytes frame last
      let sizes ← frame[2]?
      if crc ≠ crc8 header then some none
      else if sizes &&& 0x0F = 0 then some (some true)
      else if sizes &&& 0x0F = code then some (some false)
      else some none

/- The loop of `preflight` with its two counters, which the length of the list bounds. -/
def preflightLoop (encoded : List UInt8) (code : UInt8) :
    Nat → Nat × Nat → List Nat → Option (Option (Nat × Nat))
  | _, counted, [] => some (some counted)
  | offset, (unspecified,explicit), len :: rest => do
    let stop ← checkedAdd offset len
    match getRange encoded offset stop with
    | none => some none
    | some frame =>
      match ← checkFrame frame code with
      | none => some none
      | some true => preflightLoop encoded code stop (unspecified + 1,explicit) rest
      | some false => preflightLoop encoded code stop (unspecified,explicit + 1) rest

def preflight (encoded : List UInt8) (firstFrame : Nat) (frameLengths : List Nat) (code : UInt8) :
    Option Preflight := do
  match ← preflightLoop encoded code firstFrame (0,0) frameLengths with
  | none => some .ineligible
  | some (unspecified,explicit) =>
    if unspecified = frameLengths.length then some .rewritable
    else if explicit = frameLengths.length then some .alreadyExplicit
    else some .ineligible

def rewriteFrame (frame : List UInt8) (code : UInt8) : Option (List UInt8 × Bool) := do
  match ← frameHeaderLen frame with
  | none => some (frame,false)
  | some headerLen =>
    let sizes ← frame[2]?
    if sizes &&& 0x0F ≠ 0 ∨ frame.length < headerLen + frameFooterLen then some (frame,false)
    else
      let frame ← putByte frame 2 ((sizes &&& 0xF0) ||| code)
      let crc8Index ← checkedSub headerLen 1
      let header ← firstBytes frame crc8Index
      let frame ← putByte frame crc8Index (crc8 header)
      let footerIndex ← checkedSub frame.length frameFooterLen
      let body ← firstBytes frame footerIndex
      let frame ← putTail frame footerIndex (toBeBytes (crc16 body))
      some (frame,true)

/- The mutating loop, with the number of frames rewritten; it stops at a length that does not fit. -/
def rewriteLoop (code : UInt8) : List UInt8 → Nat → Nat → List Nat → Option (List UInt8 × Nat)
  | encoded, _, rewritten, [] => some (encoded,rewritten)
  | encoded, offset, rewritten, len :: rest => do
    let stop ← checkedAdd offset len
    match getRange encoded offset stop with
    | none => some (encoded,rewritten)
    | some frame =>
      let (frame,done) ← rewriteFrame frame code
      rewriteLoop code (encoded.take offset ++ frame ++ encoded.drop stop) stop
        (if done then rewritten + 1 else rewritten) rest

def magic : List UInt8 := [0x66,0x4C,0x61,0x43]

def rewriteFrom (encoded : List UInt8) (firstFrame : Nat) (frameLengths : List Nat) (code : UInt8) :
    Option (List UInt8 × Nat) := do
  match ← preflight encoded firstFrame frameLengths code with
  | .alreadyExplicit | .ineligible => some (encoded,0)
  | .rewritable =>
    let (encoded,rewritten) ← rewriteLoop code encoded firstFrame 0 frameLengths
    -- the debug assertion
    if rewritten = frameLengths.length then some (encoded,rewritten) else none

def rewriteFrameSampleRates (encoded : List UInt8) (frameLengths : List Nat) (rateHz : UInt32) :
    Option (List UInt8 × Nat) :=
  match sampleRateCode rateHz with
  | none => some (encoded,0)
  | some code =>
    match frameLengths.foldlM checkedAdd 0 with
    | none => some (encoded,0)
    | some total =>
      match checkedSub encoded.length total with
      | none => some (encoded,0)
      | some firstFrame =>
        if magic <+: encoded then rewriteFrom encoded firstFrame frameLengths code
        else some (encoded,0)

structure HeaderBytes where
  sync : UInt8
  reserved : UInt8
  sizes : UInt8
  lead : UInt8

def HeaderBytes.headerLen (b : HeaderBytes) : Option Nat :=
  if b.sync ≠ 0xFF ∨ b.reserved &&& 0xFC ≠ 0xF8 then none
  else do
    let codedNumberLen ← utf8CodedNumberLen b.lead
    let rateLen ← sampleRateLen (b.sizes &&& 0x0F)
    some (frameHeaderPrefixLen + codedNumberLen + blockSizeLen (b.sizes >>> 4) + rateLen + 1)

structure HeaderBytes.At (b : HeaderBytes) (frame : List UInt8) : Prop where
  long : frameHeaderPrefixLen + 2 ≤ frame.length
  sync : frame[0]? = some b.sync
  reserved : frame[1]? = some b.reserved
  sizes : frame[2]? = some b.sizes
  lead : frame[frameHeaderPrefixLen]? = some b.lead

theorem headerAt {frame : List UInt8} {b : HeaderBytes} (here : b.At frame) :
    frameHeaderLen frame = some b.headerLen := by
  have long : ¬ frame.length < frameHeaderPrefixLen + 2 := Nat.not_lt.mpr here.long
  simp only [frameHeaderLen,long,if_false,here.sync,here.reserved,here.sizes,here.lead]
  rfl

theorem bytesAt {frame : List UInt8} (long : frameHeaderPrefixLen + 2 ≤ frame.length) :
    ∃ b : HeaderBytes, b.At frame := by
  have some_ (i : Nat) (low : i < 6) : ∃ byte, frame[i]? = some byte :=
    ⟨_,List.getElem?_eq_getElem (Nat.lt_of_lt_of_le low long)⟩
  obtain ⟨sync,h0⟩ := some_ 0 (by decide)
  obtain ⟨reserved,h1⟩ := some_ 1 (by decide)
  obtain ⟨sizes,h2⟩ := some_ 2 (by decide)
  obtain ⟨lead,h4⟩ := some_ 4 (by decide)
  exact ⟨⟨sync,reserved,sizes,lead⟩,long,h0,h1,h2,h4⟩

theorem headerTotal (frame : List UInt8) : ∃ found, frameHeaderLen frame = some found := by
  by_cases short : frame.length < frameHeaderPrefixLen + 2
  · exact ⟨none,if_pos short⟩
  · obtain ⟨b,here⟩ := bytesAt (Nat.not_lt.mp short)
    exact ⟨_,headerAt here⟩

theorem headerRead {frame : List UInt8} {headerLen : Nat}
    (parsed : frameHeaderLen frame = some (some headerLen)) :
    ∃ b : HeaderBytes, b.At frame ∧ b.headerLen = some headerLen := by
  have long : ¬ frame.length < frameHeaderPrefixLen + 2 := by
    intro short
    rw [frameHeaderLen,if_pos short] at parsed
    cases parsed
  obtain ⟨b,here⟩ := bytesAt (Nat.not_lt.mp long)
  refine ⟨b,here,?_⟩
  rw [headerAt here] at parsed
  exact Option.some.inj parsed

theorem codedNumberPositive {lead : UInt8} {len : Nat} (coded : utf8CodedNumberLen lead = some len) :
    1 ≤ len := by
  unfold utf8CodedNumberLen at coded
  repeat' split at coded
  all_goals cases coded <;> decide

theorem headerMinimum {b : HeaderBytes} {headerLen : Nat} (parsed : b.headerLen = some headerLen) :
    frameHeaderPrefixLen + 2 ≤ headerLen := by
  unfold HeaderBytes.headerLen at parsed
  split at parsed
  · cases parsed
  · obtain ⟨codedNumberLen,coded,rest⟩ := Option.bind_eq_some_iff.mp parsed
    obtain ⟨rateLen,_,last⟩ := Option.bind_eq_some_iff.mp rest
    have positive := codedNumberPositive coded
    have sum := Option.some.inj last
    omega

def rateCodes : List UInt8 := [1,2,3,4,5,6,7,8,9,10,11]

theorem rateCodeListed {rateHz : UInt32} {code : UInt8} (found : sampleRateCode rateHz = some code) :
    code ∈ rateCodes := by
  unfold sampleRateCode at found
  split at found
  all_goals cases found <;> decide

theorem nibbleWritten (sizes : UInt8) {code : UInt8} (listed : code ∈ rateCodes) :
    ((sizes &&& 0xF0) ||| code) >>> 4 = sizes >>> 4 ∧ ((sizes &&& 0xF0) ||| code) &&& 0x0F = code := by
  have all : ∀ n < 256, ∀ code ∈ rateCodes,
      ((UInt8.ofNat n &&& 0xF0) ||| code) >>> 4 = UInt8.ofNat n >>> 4 ∧
      ((UInt8.ofNat n &&& 0xF0) ||| code) &&& 0x0F = code := by decide +kernel
  have named := all sizes.toNat sizes.toNat_lt code listed
  rwa [UInt8.ofNat_toNat] at named

theorem rateCodeLen {code : UInt8} (listed : code ∈ rateCodes) :
    sampleRateLen code = sampleRateLen 0 ∧ code ≠ 0 := by
  have all : ∀ code ∈ rateCodes, sampleRateLen code = sampleRateLen 0 ∧ code ≠ 0 :=
    List.all_iff_forall_prop.mp (by decide)
  exact all code listed

structure Checked (frame : List UInt8) (headerLen : Nat) (sizes : UInt8) : Prop where
  parsed : frameHeaderLen frame = some (some headerLen)
  room : headerLen + frameFooterLen ≤ frame.length
  crc : frame[headerLen - 1]? = some (crc8 (frame.take (headerLen - 1)))
  sizes : frame[2]? = some sizes

theorem minimumLen {frame : List UInt8} {headerLen : Nat}
    (parsed : frameHeaderLen frame = some (some headerLen)) : 6 ≤ headerLen := by
  obtain ⟨b,_,measured⟩ := headerRead parsed
  exact headerMinimum measured

theorem checkedFrame {frame : List UInt8} {headerLen : Nat} {sizes : UInt8}
    (checked : Checked frame headerLen sizes) (code : UInt8) : checkFrame frame code = some
      (if sizes &&& 0x0F = 0 then some true else if sizes &&& 0x0F = code then some false else none) := by
  have least := minimumLen checked.parsed
  have room := checked.room
  have fits : ¬ frame.length < headerLen + frameFooterLen := Nat.not_lt.mpr room
  have last : checkedSub headerLen 1 = some (headerLen - 1) := if_pos (by omega)
  have header : firstBytes frame (headerLen - 1) = some (frame.take (headerLen - 1)) :=
    if_pos (by omega)
  simp only [checkFrame,checked.parsed,Option.bind_eq_bind,Option.bind_some,fits,if_false,last,
    checked.crc,header,checked.sizes,ne_eq,not_true_eq_false]
  split
  · rfl
  split <;> rfl

theorem checkCases (frame : List UInt8) (code : UInt8) :
    checkFrame frame code = some none ∨ ∃ headerLen sizes, Checked frame headerLen sizes := by
  obtain ⟨found,parsed⟩ := headerTotal frame
  cases found with
  | none =>
    left
    simp only [checkFrame,parsed,Option.bind_eq_bind,Option.bind_some]
  | some headerLen =>
    by_cases short : frame.length < headerLen + frameFooterLen
    · left
      simp only [checkFrame,parsed,Option.bind_eq_bind,Option.bind_some,short,if_true]
    · have least := minimumLen parsed
      have room : headerLen + frameFooterLen ≤ frame.length := Nat.not_lt.mp short
      have last : checkedSub headerLen 1 = some (headerLen - 1) := if_pos (by omega)
      have header : firstBytes frame (headerLen - 1) = some (frame.take (headerLen - 1)) :=
        if_pos (by omega)
      obtain ⟨crc,stored⟩ : ∃ crc, frame[headerLen - 1]? = some crc :=
        ⟨_,List.getElem?_eq_getElem (by omega)⟩
      obtain ⟨sizes,second⟩ : ∃ sizes, frame[2]? = some sizes :=
        ⟨_,List.getElem?_eq_getElem (by omega)⟩
      by_cases correct : crc = crc8 (frame.take (headerLen - 1))
      · exact .inr ⟨headerLen,sizes,parsed,room,stored.trans (congrArg some correct),second⟩
      · left
        simp only [checkFrame,parsed,Option.bind_eq_bind,Option.bind_some,short,if_false,last,
          stored,header,second,ne_eq,correct,not_false_eq_true,if_true]

theorem checkTotal (frame : List UInt8) (code : UInt8) : ∃ found, checkFrame frame code = some found := by
  rcases checkCases frame code with bad | ⟨headerLen,sizes,checked⟩
  · exact ⟨none,bad⟩
  · exact ⟨_,checkedFrame checked code⟩

/-- What the pass may do to a frame: the rate in the low half of byte 2 and the two checksums
over it. -/
structure Rewritten (code : UInt8) (headerLen : Nat) (before after : List UInt8) : Prop where
  parsed : frameHeaderLen before = some (some headerLen)
  parses : frameHeaderLen after = some (some headerLen)
  room : headerLen + frameFooterLen ≤ before.length
  length : after.length = before.length
  elsewhere : ∀ i, i ≠ 2 → i ≠ headerLen - 1 → i + frameFooterLen < before.length →
    after[i]? = before[i]?
  sizes : ∃ old new : UInt8, before[2]? = some old ∧ after[2]? = some new ∧ new >>> 4 = old >>> 4 ∧
    new &&& 0x0F = code
  headerCrc : after[headerLen - 1]? = some (crc8 (after.take (headerLen - 1)))
  footerCrc : after.drop (after.length - frameFooterLen) =
    toBeBytes (crc16 (after.take (after.length - frameFooterLen)))

def withRate (frame : List UInt8) (headerLen : Nat) (sizes : UInt8) : List UInt8 :=
  (frame.set 2 sizes).set (headerLen - 1) (crc8 ((frame.set 2 sizes).take (headerLen - 1)))

def withFooter (frame : List UInt8) : List UInt8 :=
  frame.take (frame.length - frameFooterLen) ++
    toBeBytes (crc16 (frame.take (frame.length - frameFooterLen)))

theorem withRateLength (frame : List UInt8) (headerLen : Nat) (sizes : UInt8) :
    (withRate frame headerLen sizes).length = frame.length := by
  simp only [withRate,List.length_set]

theorem withFooterLength {frame : List UInt8} (room : frameFooterLen ≤ frame.length) :
    (withFooter frame).length = frame.length := by
  have words (word : UInt16) : (toBeBytes word).length = frameFooterLen := rfl
  rw [withFooter,List.length_append,List.length_take,words]
  omega

theorem withFooterTake {frame : List UInt8} {n : Nat} (inside : n + frameFooterLen ≤ frame.length) :
    (withFooter frame).take n = frame.take n := by
  rw [withFooter,List.take_append_of_le_length (by rw [List.length_take]; omega),List.take_take]
  congr 1
  omega

theorem withFooterElsewhere {frame : List UInt8} {i : Nat} (inside : i + frameFooterLen < frame.length) :
    (withFooter frame)[i]? = frame[i]? := by
  rw [withFooter,List.getElem?_append_left (by rw [List.length_take]; omega),
    List.getElem?_take_of_lt (by omega)]

theorem withFooterCrc {frame : List UInt8} (room : frameFooterLen ≤ frame.length) :
    (withFooter frame).drop ((withFooter frame).length - frameFooterLen) =
      toBeBytes (crc16 ((withFooter frame).take ((withFooter frame).length - frameFooterLen))) := by
  rw [withFooterLength room,withFooterTake (by omega)]
  exact List.drop_left' (by rw [List.length_take]; omega)

theorem headerKept {before after : List UInt8} {old new : UInt8} (length : after.length = before.length)
    (elsewhere : ∀ i, i ≠ 2 → i < frameHeaderPrefixLen + 1 → after[i]? = before[i]?)
    (was : before[2]? = some old) (is_ : after[2]? = some new) (high : new >>> 4 = old >>> 4)
    (low : sampleRateLen (new &&& 0x0F) = sampleRateLen (old &&& 0x0F)) :
    frameHeaderLen after = frameHeaderLen before := by
  by_cases short : before.length < frameHeaderPrefixLen + 2
  · rw [frameHeaderLen,frameHeaderLen,length,if_pos short,if_pos short]
  · obtain ⟨b,here⟩ := bytesAt (Nat.not_lt.mp short)
    have there : HeaderBytes.At { b with sizes := new } after :=
      { long := length ▸ here.long
        sync := (elsewhere 0 (by decide) (by decide)).trans here.sync
        reserved := (elsewhere 1 (by decide) (by decide)).trans here.reserved
        sizes := is_
        lead := (elsewhere 4 (by decide) (by decide)).trans here.lead }
    obtain rfl : old = b.sizes := Option.some.inj (was.symm.trans here.sizes)
    rw [headerAt here,headerAt there]
    simp only [HeaderBytes.headerLen,high,low]

theorem rewriteFrameEq {frame : List UInt8} {headerLen : Nat} {sizes : UInt8}
    (checked : Checked frame headerLen sizes) (unspecified : sizes &&& 0x0F = 0) (code : UInt8) :
    rewriteFrame frame code =
      some (withFooter (withRate frame headerLen ((sizes &&& 0xF0) ||| code)),true) := by
  have least := minimumLen checked.parsed
  have room : headerLen + 2 ≤ frame.length := checked.room
  have eligible : ¬ (sizes &&& 0x0F ≠ 0 ∨ frame.length < headerLen + frameFooterLen) := by
    rintro (explicit | short)
    · exact explicit unspecified
    · exact Nat.not_lt.mpr room short
  generalize new : (sizes &&& 0xF0) ||| code = byte
  have first : putByte frame 2 byte = some (frame.set 2 byte) := if_pos (by omega)
  have last : checkedSub headerLen 1 = some (headerLen - 1) := if_pos (by omega)
  have header : firstBytes (frame.set 2 byte) (headerLen - 1) =
      some ((frame.set 2 byte).take (headerLen - 1)) := if_pos (by rw [List.length_set]; omega)
  have second : putByte (frame.set 2 byte) (headerLen - 1)
      (crc8 ((frame.set 2 byte).take (headerLen - 1))) = some (withRate frame headerLen byte) :=
    if_pos (by rw [List.length_set]; omega)
  have long : (withRate frame headerLen byte).length = frame.length := withRateLength _ _ _
  have footer : checkedSub (withRate frame headerLen byte).length frameFooterLen =
      some ((withRate frame headerLen byte).length - frameFooterLen) :=
    if_pos (by rw [long]; unfold frameFooterLen; omega)
  have body : firstBytes (withRate frame headerLen byte)
      ((withRate frame headerLen byte).length - frameFooterLen) = some ((withRate frame headerLen
        byte).take ((withRate frame headerLen byte).length - frameFooterLen)) :=
    if_pos (Nat.sub_le _ _)
  have third (word : UInt16) : putTail (withRate frame headerLen byte)
      ((withRate frame headerLen byte).length - frameFooterLen) (toBeBytes word) =
      some ((withRate frame headerLen byte).take
        ((withRate frame headerLen byte).length - frameFooterLen) ++ toBeBytes word) := by
    have words : (toBeBytes word).length = 2 := rfl
    refine if_pos ⟨Nat.sub_le _ _,?_⟩
    rw [words,long]
    unfold frameFooterLen
    omega
  simp only [rewriteFrame,checked.parsed,Option.bind_eq_bind,Option.bind_some,checked.sizes,eligible,
    if_false,new,first,last,header,second,footer,body,third]
  rfl

section Rewrite
variable {frame : List UInt8} {headerLen : Nat} {sizes code : UInt8}
  (checked : Checked frame headerLen sizes) (unspecified : sizes &&& 0x0F = 0)
  (listed : code ∈ rateCodes)
include checked unspecified listed

theorem rewriteFrameRewrites : ∃ after, rewriteFrame frame code = some (after,true) ∧
    Rewritten code headerLen frame after := by
  refine ⟨_,rewriteFrameEq checked unspecified code,?_⟩
  have least := minimumLen checked.parsed
  have room : headerLen + 2 ≤ frame.length := checked.room
  obtain ⟨high,low⟩ := nibbleWritten sizes listed
  generalize (sizes &&& 0xF0) ||| code = byte at high low
  have long : (withRate frame headerLen byte).length = frame.length := withRateLength _ _ _
  have fits : frameFooterLen ≤ (withRate frame headerLen byte).length := by
    rw [long]
    unfold frameFooterLen
    omega
  have length : (withFooter (withRate frame headerLen byte)).length = frame.length :=
    (withFooterLength fits).trans long
  have elsewhere (i : Nat) (two : i ≠ 2) (crc : i ≠ headerLen - 1)
      (inside : i + frameFooterLen < frame.length) :
      (withFooter (withRate frame headerLen byte))[i]? = frame[i]? := by
    rw [withFooterElsewhere (by rw [long]; exact inside),withRate,List.getElem?_set_ne crc.symm,
      List.getElem?_set_ne two.symm]
  have second : (withFooter (withRate frame headerLen byte))[2]? = some byte := by
    rw [withFooterElsewhere (by rw [long]; unfold frameFooterLen; omega),withRate,
      List.getElem?_set_ne (by omega),List.getElem?_set_self (by omega)]
  have taken : (withFooter (withRate frame headerLen byte)).take (headerLen - 1) =
      (frame.set 2 byte).take (headerLen - 1) := by
    rw [withFooterTake (by rw [long]; unfold frameFooterLen; omega),withRate,
      List.take_set_of_le (le_refl _)]
  exact
    { parsed := checked.parsed
      parses := by
        refine (headerKept length (fun i two low => ?_) checked.sizes second high ?_).trans checked.parsed
        · unfold frameHeaderPrefixLen at low
          exact elsewhere i two (by omega) (by unfold frameFooterLen; omega)
        · rw [low,unspecified]
          exact (rateCodeLen listed).1
      room := checked.room
      length := length
      elsewhere := elsewhere
      sizes := ⟨sizes,byte,checked.sizes,second,high,low⟩
      headerCrc := by
        rw [taken,withFooterElsewhere (by rw [long]; unfold frameFooterLen; omega),withRate,
          List.getElem?_set_self (by rw [List.length_set]; omega)]
      footerCrc := withFooterCrc fits }

end Rewrite

theorem rewrittenExplicit {code : UInt8} {headerLen : Nat} {before after : List UInt8}
    (rewritten : Rewritten code headerLen before after) (listed : code ∈ rateCodes) :
    checkFrame after code = some (some false) := by
  obtain ⟨_,sizes,_,second,_,low⟩ := rewritten.sizes
  have room : headerLen + frameFooterLen ≤ after.length := rewritten.length ▸ rewritten.room
  have checked : Checked after headerLen sizes := ⟨rewritten.parses,room,rewritten.headerCrc,second⟩
  rw [checkedFrame checked,low,if_neg (rateCodeLen listed).2,if_pos rfl]

def survey (code : UInt8) : Nat × Nat → List (List UInt8) → Option (Option (Nat × Nat))
  | counted, [] => some (some counted)
  | (unspecified,explicit), frame :: rest => do
    match ← checkFrame frame code with
    | none => some none
    | some true => survey code (unspecified + 1,explicit) rest
    | some false => survey code (unspecified,explicit + 1) rest

theorem getFrame (done frame rest : List UInt8) :
    getRange (done ++ (frame ++ rest)) done.length (done.length + frame.length) = some frame := by
  have long : (done ++ (frame ++ rest)).length = done.length + (frame.length + rest.length) := by
    rw [List.length_append,List.length_append]
  refine (if_pos ⟨Nat.le_add_right _ _,by omega⟩).trans (congrArg some ?_)
  rw [List.drop_left,Nat.add_sub_cancel_left,List.take_left]

theorem checkedAddFits {a b : Nat} (fits : a + b ≤ usizeMax) : checkedAdd a b = some (a + b) :=
  if_pos fits

section Frames
variable {code : UInt8} {done frame : List UInt8} {frames : List (List UInt8)}

theorem nextFrame (fits : (done ++ (frame :: frames).flatten).length ≤ usizeMax) :
    checkedAdd done.length frame.length = some (done ++ frame).length ∧
    getRange (done ++ (frame :: frames).flatten) done.length (done ++ frame).length = some frame ∧
    done ++ (frame :: frames).flatten = (done ++ frame) ++ frames.flatten := by
  have same : done ++ (frame :: frames).flatten = (done ++ frame) ++ frames.flatten := by
    rw [List.flatten_cons,List.append_assoc]
  have long : (done ++ frame).length = done.length + frame.length := List.length_append
  refine ⟨?_,?_,same⟩
  · rw [same,List.length_append,long] at fits
    rw [long]
    exact checkedAddFits (by omega)
  · rw [long,List.flatten_cons]
    exact getFrame done frame _

theorem preflightFrames (fits : (done ++ frames.flatten).length ≤ usizeMax) (counted : Nat × Nat) :
    preflightLoop (done ++ frames.flatten) code done.length counted (frames.map List.length) =
      survey code counted frames := by
  induction frames generalizing done counted with
  | nil => rfl
  | cons frame frames ih =>
    obtain ⟨unspecified,explicit⟩ := counted
    obtain ⟨stop,here,same⟩ := nextFrame fits
    rw [same] at fits
    simp only [List.map_cons,preflightLoop,survey,stop,here,Option.bind_eq_bind,Option.bind_some]
    obtain ⟨found,checked⟩ := checkTotal frame code
    rw [checked,same]
    cases found with
    | none => rfl
    | some left =>
      cases left with
      | true => exact ih fits _
      | false => exact ih fits _

theorem surveyTotal (code : UInt8) (counted : Nat × Nat) (frames : List (List UInt8)) :
    ∃ found, survey code counted frames = some found ∧ ∀ u e, found = some (u,e) →
      u + e = counted.1 + counted.2 + frames.length ∧ counted.2 ≤ e ∧
      (e = counted.2 → ∀ frame ∈ frames, checkFrame frame code = some (some true)) := by
  induction frames generalizing counted with
  | nil =>
    refine ⟨some counted,rfl,fun u e same => ?_⟩
    obtain rfl := Option.some.inj same
    exact ⟨rfl,le_rfl,fun _ frame mem => absurd mem List.not_mem_nil⟩
  | cons frame frames ih =>
    obtain ⟨found,checked⟩ := checkTotal frame code
    cases found with
    | none =>
      refine ⟨none,?_,fun _ _ same => by cases same⟩
      simp only [survey,checked,Option.bind_eq_bind,Option.bind_some]
    | some left =>
      cases left with
      | true =>
        obtain ⟨found,surveyed,counts⟩ := ih (counted.1 + 1,counted.2)
        refine ⟨found,?_,fun u e same => ?_⟩
        · simp only [survey,checked,Option.bind_eq_bind,Option.bind_some]
          exact surveyed
        · obtain ⟨sum,least,all⟩ := counts u e same
          refine ⟨by rw [sum,List.length_cons]; omega,least,fun none_ other mem => ?_⟩
          rcases List.mem_cons.mp mem with rfl | later
          · exact checked
          · exact all none_ other later
      | false =>
        obtain ⟨found,surveyed,counts⟩ := ih (counted.1,counted.2 + 1)
        refine ⟨found,?_,fun u e same => ?_⟩
        · simp only [survey,checked,Option.bind_eq_bind,Option.bind_some]
          exact surveyed
        · obtain ⟨sum,least,_⟩ := counts u e same
          have more : counted.2 + 1 ≤ e := least
          exact ⟨by rw [sum,List.length_cons]; omega,by omega,fun none_ => by omega⟩

theorem surveyExplicit {counted : Nat × Nat}
    (all : ∀ frame ∈ frames, checkFrame frame code = some (some false)) :
    survey code counted frames = some (some (counted.1,counted.2 + frames.length)) := by
  induction frames generalizing counted with
  | nil => rfl
  | cons frame frames ih =>
    obtain ⟨unspecified,explicit⟩ := counted
    simp only [survey,all frame List.mem_cons_self,Option.bind_eq_bind,Option.bind_some]
    rw [ih fun other mem => all other (List.mem_cons_of_mem _ mem),List.length_cons]
    have sum : explicit + 1 + frames.length = explicit + (frames.length + 1) := by omega
    rw [sum]

theorem rewriteFrames (listed : code ∈ rateCodes)
    (all : ∀ frame ∈ frames, checkFrame frame code = some (some true))
    (fits : (done ++ frames.flatten).length ≤ usizeMax) (rewritten : Nat) :
    ∃ after, List.Forall₂ (fun old new => ∃ headerLen, Rewritten code headerLen old new) frames after ∧
      rewriteLoop code (done ++ frames.flatten) done.length rewritten (frames.map List.length) =
        some (done ++ after.flatten,rewritten + frames.length) := by
  induction frames generalizing done rewritten with
  | nil => exact ⟨[],.nil,rfl⟩
  | cons frame frames ih =>
    obtain ⟨stop,here,same⟩ := nextFrame fits
    have passed := all frame List.mem_cons_self
    obtain ⟨headerLen,sizes,checked⟩ : ∃ headerLen sizes, Checked frame headerLen sizes := by
      rcases checkCases frame code with bad | found
      · cases bad.symm.trans passed
      · exact found
    have unspecified : sizes &&& 0x0F = 0 := by
      by_contra explicit
      rw [checkedFrame checked,if_neg explicit] at passed
      split at passed <;> cases passed
    obtain ⟨new,written,rewrites⟩ := rewriteFrameRewrites checked unspecified listed
    have before : (done ++ (frame :: frames).flatten).take done.length = done := List.take_left
    have after : (done ++ (frame :: frames).flatten).drop (done ++ frame).length = frames.flatten := by
      rw [same]
      exact List.drop_left
    have long : (done ++ new).length = (done ++ frame).length := by
      rw [List.length_append,List.length_append,rewrites.length]
    have still : ((done ++ new) ++ frames.flatten).length ≤ usizeMax := by
      rw [List.length_append,long,← List.length_append,← same]
      exact fits
    obtain ⟨others,pairs,later⟩ := ih (fun other mem => all other (List.mem_cons_of_mem _ mem)) still
      (rewritten + 1)
    refine ⟨new :: others,.cons ⟨headerLen,rewrites⟩ pairs,?_⟩
    simp only [List.map_cons,rewriteLoop,stop,here,written,Option.bind_eq_bind,Option.bind_some,
      if_true,before,after]
    rw [← long,later,List.flatten_cons,List.append_assoc,List.length_cons,Nat.add_right_comm]
    rfl

theorem preflightTotal (fits : (done ++ frames.flatten).length ≤ usizeMax) :
    ∃ outcome, preflight (done ++ frames.flatten) done.length (frames.map List.length) code =
      some outcome ∧ (outcome = .rewritable →
        ∀ frame ∈ frames, checkFrame frame code = some (some true)) := by
  obtain ⟨found,surveyed,counts⟩ := surveyTotal code (0,0) frames
  unfold preflight
  rw [preflightFrames fits,surveyed]
  cases found with
  | none => exact ⟨.ineligible,rfl,fun same => by cases same⟩
  | some counted =>
    obtain ⟨u,e⟩ := counted
    obtain ⟨sum,_,all⟩ := counts u e rfl
    simp only [List.length_map,Option.bind_eq_bind,Option.bind_some]
    by_cases every : u = frames.length
    · exact ⟨.rewritable,if_pos every,fun _ => all (by omega)⟩
    · rw [if_neg every]
      split
      · exact ⟨_,rfl,fun same => by cases same⟩
      · exact ⟨_,rfl,fun same => by cases same⟩

theorem preflightExplicit (fits : (done ++ frames.flatten).length ≤ usizeMax) (some_ : frames ≠ [])
    (all : ∀ frame ∈ frames, checkFrame frame code = some (some false)) :
    preflight (done ++ frames.flatten) done.length (frames.map List.length) code =
      some .alreadyExplicit := by
  unfold preflight
  rw [preflightFrames fits,surveyExplicit all]
  have long : 0 < frames.length := List.length_pos_iff.mpr some_
  have short : ¬ 0 = frames.length := by omega
  simp only [List.length_map,Option.bind_eq_bind,Option.bind_some,short,if_false,Nat.zero_add,if_true]

end Frames

def framesOf (frameLengths : List Nat) (encoded : List UInt8) : List (List UInt8) :=
  frameLengths.splitLengths (encoded.drop (encoded.length - frameLengths.sum))

def metadataOf (frameLengths : List Nat) (encoded : List UInt8) : List UInt8 :=
  encoded.take (encoded.length - frameLengths.sum)

theorem framesCut {frameLengths : List Nat} {encoded : List UInt8}
    (inside : frameLengths.sum ≤ encoded.length) :
    metadataOf frameLengths encoded ++ (framesOf frameLengths encoded).flatten = encoded ∧
    (framesOf frameLengths encoded).map List.length = frameLengths ∧
    (metadataOf frameLengths encoded).length = encoded.length - frameLengths.sum := by
  have cut : (encoded.drop (encoded.length - frameLengths.sum)).length = frameLengths.sum := by
    rw [List.length_drop]
    omega
  refine ⟨?_,List.map_splitLengths_length _ _ cut.ge,?_⟩
  · rw [framesOf,List.flatten_splitLengths _ _ cut.le]
    exact List.take_append_drop _ _
  · rw [metadataOf,List.length_take]
    omega

theorem splitFrames (frames : List (List UInt8)) :
    (frames.map List.length).splitLengths frames.flatten = frames := by
  induction frames with
  | nil => rfl
  | cons frame frames ih =>
    rw [List.map_cons,List.splitLengths_cons,List.flatten_cons,List.take_left,List.drop_left,ih]

theorem framesJoined (done : List UInt8) (frames : List (List UInt8)) :
    framesOf (frames.map List.length) (done ++ frames.flatten) = frames ∧
    metadataOf (frames.map List.length) (done ++ frames.flatten) = done := by
  have first : (done ++ frames.flatten).length - (frames.map List.length).sum = done.length := by
    rw [List.length_append,List.length_flatten,Nat.add_sub_cancel]
  unfold framesOf metadataOf
  rw [first,List.drop_left,List.take_left]
  exact ⟨splitFrames frames,rfl⟩

theorem checkedSum {frameLengths : List Nat} {start : Nat} (low : start ≤ usizeMax) :
    frameLengths.foldlM checkedAdd start =
      if start + frameLengths.sum ≤ usizeMax then some (start + frameLengths.sum) else none := by
  induction frameLengths generalizing start with
  | nil => exact (if_pos low).symm
  | cons len rest ih =>
    rw [List.foldlM_cons,List.sum_cons,← Nat.add_assoc]
    by_cases fits : start + len ≤ usizeMax
    · rw [checkedAddFits fits]
      exact ih fits
    · rw [checkedAdd,if_neg fits,if_neg (by omega)]
      rfl

theorem rewriteStream {rateHz : UInt32} {code : UInt8} {done : List UInt8} {frames : List (List UInt8)}
    (coded : sampleRateCode rateHz = some code) (fits : (done ++ frames.flatten).length ≤ usizeMax) :
    rewriteFrameSampleRates (done ++ frames.flatten) (frames.map List.length) rateHz =
      if magic <+: done ++ frames.flatten then
        rewriteFrom (done ++ frames.flatten) done.length (frames.map List.length) code
      else some (done ++ frames.flatten,0) := by
  have long : (done ++ frames.flatten).length = done.length + (frames.map List.length).sum := by
    rw [List.length_append,List.length_flatten]
  have total : (frames.map List.length).foldlM checkedAdd 0 = some (frames.map List.length).sum := by
    rw [checkedSum (Nat.zero_le _),Nat.zero_add]
    exact if_pos (by omega)
  have first : checkedSub (done ++ frames.flatten).length (frames.map List.length).sum =
      some done.length := by
    rw [checkedSub,long,Nat.add_sub_cancel]
    exact if_pos (Nat.le_add_left _ _)
  simp only [rewriteFrameSampleRates,coded,total,first]

theorem explicitKept {rateHz : UInt32} {code : UInt8} {done : List UInt8} {frames : List (List UInt8)}
    (coded : sampleRateCode rateHz = some code) (fits : (done ++ frames.flatten).length ≤ usizeMax)
    (all : ∀ frame ∈ frames, checkFrame frame code = some (some false)) :
    rewriteFrameSampleRates (done ++ frames.flatten) (frames.map List.length) rateHz =
      some (done ++ frames.flatten,0) := by
  rw [rewriteStream coded fits]
  split
  · unfold rewriteFrom
    cases frames with
    | nil => rfl
    | cons frame frames =>
      rw [preflightExplicit fits (List.cons_ne_nil _ _) all]
      rfl
  · rfl

theorem rewrittenAll {code : UInt8} {before after : List (List UInt8)} (listed : code ∈ rateCodes)
    (pairs : List.Forall₂ (fun old new => ∃ headerLen, Rewritten code headerLen old new) before after) :
    after.map List.length = before.map List.length ∧
    ∀ frame ∈ after, checkFrame frame code = some (some false) := by
  induction pairs with
  | nil => exact ⟨rfl,fun frame mem => absurd mem List.not_mem_nil⟩
  | cons pair pairs ih =>
    obtain ⟨headerLen,rewritten⟩ := pair
    refine ⟨by rw [List.map_cons,List.map_cons,rewritten.length,ih.1],fun frame mem => ?_⟩
    rcases List.mem_cons.mp mem with rfl | later
    · exact rewrittenExplicit rewritten listed
    · exact ih.2 frame later

structure FramesRewritten (frameLengths : List Nat) (rateHz : UInt32) (before after : List UInt8) :
    Prop where
  inside : frameLengths.sum ≤ before.length
  metadata : metadataOf frameLengths after = metadataOf frameLengths before
  frames : ∃ code, sampleRateCode rateHz = some code ∧
    List.Forall₂ (fun old new => ∃ headerLen, Rewritten code headerLen old new)
      (framesOf frameLengths before) (framesOf frameLengths after)

theorem streamRewritten {rateHz : UInt32} {code : UInt8} {done : List UInt8}
    {frames : List (List UInt8)} (coded : sampleRateCode rateHz = some code)
    (fits : (done ++ frames.flatten).length ≤ usizeMax)
    (changed : rewriteFrameSampleRates (done ++ frames.flatten) (frames.map List.length) rateHz ≠
      some (done ++ frames.flatten,0)) :
    ∃ after, rewriteFrameSampleRates (done ++ frames.flatten) (frames.map List.length) rateHz =
        some (after,frames.length) ∧ after.length = (done ++ frames.flatten).length ∧
      FramesRewritten (frames.map List.length) rateHz (done ++ frames.flatten) after ∧
      rewriteFrameSampleRates after (frames.map List.length) rateHz = some (after,0) := by
  have listed := rateCodeListed coded
  have stream := rewriteStream coded fits
  have begins : magic <+: done ++ frames.flatten := by
    by_contra other
    exact changed (stream.trans (if_neg other))
  rw [if_pos begins] at stream
  obtain ⟨outcome,checked,eligible⟩ := @preflightTotal code done frames fits
  have accepted : outcome = .rewritable := by
    cases outcome with
    | rewritable => rfl
    | alreadyExplicit | ineligible =>
      refine absurd (stream.trans ?_) changed
      rw [rewriteFrom,checked]
      rfl
  have all := eligible accepted
  obtain ⟨new,pairs,written⟩ := rewriteFrames listed all fits 0
  obtain ⟨lengths,explicit⟩ := rewrittenAll listed pairs
  have long : (done ++ new.flatten).length = (done ++ frames.flatten).length := by
    rw [List.length_append,List.length_append,List.length_flatten,List.length_flatten,lengths]
  obtain ⟨oldFrames,oldMetadata⟩ := framesJoined done frames
  obtain ⟨newFrames,newMetadata⟩ := framesJoined done new
  rw [lengths] at newFrames newMetadata
  refine ⟨done ++ new.flatten,?_,long,?_,?_⟩
  · rw [stream,rewriteFrom,checked,accepted]
    simp only [Option.bind_eq_bind,Option.bind_some,written,Nat.zero_add,List.length_map,if_true]
  · refine ⟨?_,newMetadata.trans oldMetadata.symm,code,coded,?_⟩
    · rw [List.length_append,List.length_flatten]
      exact Nat.le_add_left _ _
    · rw [oldFrames,newFrames]
      exact pairs
  · rw [← lengths]
    exact explicitKept coded (long ▸ fits) explicit

/- The pass ends without a panic. It changes nothing, or it rewrites every frame within the
bytes named above; a second pass finds nothing to do. -/
theorem frameHeadersRewritten (encoded : ByteSlice) (frameLengths : List Nat) (rateHz : UInt32) :
    ∃ after rewritten,
      rewriteFrameSampleRates encoded.bytes frameLengths rateHz = some (after,rewritten) ∧
      after.length = encoded.bytes.length ∧
      (rewritten = 0 ∧ after = encoded.bytes ∨
        rewritten = frameLengths.length ∧
          FramesRewritten frameLengths rateHz encoded.bytes after) ∧
      rewriteFrameSampleRates after frameLengths rateHz = some (after,0) := by
  by_cases same : rewriteFrameSampleRates encoded.bytes frameLengths rateHz = some (encoded.bytes,0)
  · exact ⟨encoded.bytes,0,same,rfl,.inl ⟨rfl,rfl⟩,same⟩
  have fits : encoded.bytes.length ≤ usizeMax := encoded.fits.trans (by decide)
  cases coded : sampleRateCode rateHz with
  | none => exact absurd (by simp only [rewriteFrameSampleRates,coded]) same
  | some code =>
    have inside : frameLengths.sum ≤ encoded.bytes.length := by
      by_contra outside
      refine same ?_
      simp only [rewriteFrameSampleRates,coded,checkedSum (Nat.zero_le usizeMax),Nat.zero_add]
      by_cases overflow : frameLengths.sum ≤ usizeMax
      · rw [if_pos overflow]
        simp only [checkedSub,outside,if_false]
      · rw [if_neg overflow]
    obtain ⟨joined,lengths,_⟩ := framesCut inside
    have cut := @streamRewritten rateHz code (metadataOf frameLengths encoded.bytes)
      (framesOf frameLengths encoded.bytes) coded
    rw [joined,lengths] at cut
    obtain ⟨after,written,long,rewrites,again⟩ := cut fits same
    refine ⟨after,_,written,long,.inr ⟨?_,rewrites⟩,again⟩
    rw [← lengths,List.length_map,lengths]

/- The synthetic frame of the source's tests, behind the magic number. -/
example : (rewriteFrameSampleRates
    (magic ++ [0xFF,0xF8,0xC0,0x08,0x00] ++ [crc8 [0xFF,0xF8,0xC0,0x08,0x00],0xAB,0x00,0x00])
    [9] 48000).map Prod.snd = some 1 := by decide +kernel

end TelephoneBooth
