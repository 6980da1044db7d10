import Mathlib.Data.List.Basic
import Mathlib.Logic.Function.Iterate

/-! The two checksums of a FLAC frame, each folded through a table with one entry a byte. -/
namespace TelephoneBooth

def crc8Poly : UInt8 := 0x07
def crc16Poly : UInt16 := 0x8005

def crc8Bit (crc : UInt8) : UInt8 := if crc &&& 0x80 = 0 then crc <<< 1 else (crc <<< 1) ^^^ crc8Poly

def crc16Bit (crc : UInt16) : UInt16 :=
  if crc &&& 0x8000 = 0 then crc <<< 1 else (crc <<< 1) ^^^ crc16Poly

def crc8Table : Vector UInt8 256 := Vector.ofFn fun i => crc8Bit^[8] (UInt8.ofNat i)

def crc16Table : Vector UInt16 256 := Vector.ofFn fun i => crc16Bit^[8] (UInt16.ofNat i <<< 8)

def crc8Entry (byte : UInt8) : UInt8 := crc8Table.get ⟨byte.toNat,byte.toNat_lt⟩

def crc16Entry (byte : UInt8) : UInt16 := crc16Table.get ⟨byte.toNat,byte.toNat_lt⟩

def crc8 (bytes : List UInt8) : UInt8 := bytes.foldl (fun crc byte => crc8Entry (crc ^^^ byte)) 0

def crc16 (bytes : List UInt8) : UInt16 :=
  bytes.foldl (fun crc byte => (crc <<< 8) ^^^ crc16Entry ((crc >>> 8).toUInt8 ^^^ byte)) 0

/- `u16::to_be_bytes`. -/
def toBeBytes (word : UInt16) : List UInt8 := [(word >>> 8).toUInt8,word.toUInt8]

/- The reference vectors of the source's tests, over the bytes of `123456789`. -/
example : crc8 ((List.range 9).map fun i => UInt8.ofNat (0x31 + i)) = 0xF4 := by decide +kernel
example : crc16 ((List.range 9).map fun i => UInt8.ofNat (0x31 + i)) = 0xFEE8 := by decide +kernel

end TelephoneBooth
