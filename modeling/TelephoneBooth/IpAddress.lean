import TelephoneBooth.TextReader

/-! `std::net`: IP addresses, what the standard library says of them, and how it reads them. -/
namespace TelephoneBooth

structure Ipv4Addr where
  a : UInt8
  b : UInt8
  c : UInt8
  d : UInt8
  deriving DecidableEq, Repr

structure Ipv6Addr where
  a : UInt16
  b : UInt16
  c : UInt16
  d : UInt16
  e : UInt16
  f : UInt16
  g : UInt16
  h : UInt16
  deriving DecidableEq, Repr

inductive IpAddr where
  | v4 (ip : Ipv4Addr)
  | v6 (ip : Ipv6Addr)
  deriving DecidableEq, Repr

namespace Ipv4Addr

def isLoopback (ip : Ipv4Addr) : Bool := ip.a == 127

def isPrivate (ip : Ipv4Addr) : Bool :=
  ip.a == 10 || (ip.a == 172 && decide (16 ≤ ip.b ∧ ip.b ≤ 31)) || (ip.a == 192 && ip.b == 168)

def isLinkLocal (ip : Ipv4Addr) : Bool := ip.a == 169 && ip.b == 254

def isUnspecified (ip : Ipv4Addr) : Bool := ip == ⟨0,0,0,0⟩

def isBroadcast (ip : Ipv4Addr) : Bool := ip == ⟨255,255,255,255⟩

end Ipv4Addr

namespace Ipv6Addr

def isLoopback (ip : Ipv6Addr) : Bool := ip == ⟨0,0,0,0,0,0,0,1⟩

def isUnspecified (ip : Ipv6Addr) : Bool := ip == ⟨0,0,0,0,0,0,0,0⟩

/- `::ffff:a.b.c.d`. -/
def toIpv4Mapped (ip : Ipv6Addr) : Option Ipv4Addr :=
  if ip.a = 0 ∧ ip.b = 0 ∧ ip.c = 0 ∧ ip.d = 0 ∧ ip.e = 0 ∧ ip.f = 0xFFFF then
    some ⟨(ip.g >>> 8).toUInt8,ip.g.toUInt8,(ip.h >>> 8).toUInt8,ip.h.toUInt8⟩
  else none

def ofSegments : List UInt16 → Option Ipv6Addr
  | [a,b,c,d,e,f,g,h] => some ⟨a,b,c,d,e,f,g,h⟩
  | _ => none

end Ipv6Addr

def IpAddr.isLoopback : IpAddr → Bool
  | .v4 ip => ip.isLoopback
  | .v6 ip => ip.isLoopback

namespace Reader

def octet (index : Nat) : Reader UInt8 := do
  let value ← separator '.' index (number 10 255 (some 3) false)
  return UInt8.ofNat value

def ipv4Addr : Reader Ipv4Addr := do
  let a ← octet 0
  let b ← octet 1
  let c ← octet 2
  let d ← octet 3
  return ⟨a,b,c,d⟩

def segment (index : Nat) : Reader UInt16 := do
  let value ← separator ':' index (number 16 65535 (some 4) true)
  return UInt16.ofNat value

def fromBeBytes (high low : UInt8) : UInt16 := (high.toUInt16 <<< 8) ||| low.toUInt16

/- As many segments as follow, `left` at most, and whether the last two came from an embedded IPv4
address; `index` have been read. -/
def groups : (left index : Nat) → Reader (List UInt16 × Bool)
  | 0, _ => pure ([],false)
  | left + 1, index =>
    (if left = 0 then failure else do
      let ip ← separator ':' index ipv4Addr
      return ([fromBeBytes ip.a ip.b,fromBeBytes ip.c ip.d],true)) <|>
    (do
      let value ← segment index
      let (values,ipv4) ← groups left (index + 1)
      return (value :: values,ipv4)) <|>
    pure ([],false)

/- Eight segments, or some on either side of a `::` that stands for at least one. -/
def ipv6Addr : Reader Ipv6Addr := do
  let (head,ipv4) ← groups 8 0
  if head.length = 8 then StateT.lift (Ipv6Addr.ofSegments head)
  else if ipv4 then failure
  else
    givenChar ':'
    givenChar ':'
    let (tail,_) ← groups (8 - (head.length + 1)) 0
    let zeros := List.replicate (8 - head.length - tail.length) 0
    StateT.lift (Ipv6Addr.ofSegments (head ++ zeros ++ tail))

end Reader

/- `FromStr`; a longer text than any IPv4 address is not read at all. -/
def Ipv4Addr.parse (text : List Char) : Option Ipv4Addr :=
  if 15 < text.length then none else Reader.parseWith Reader.ipv4Addr text

def Ipv6Addr.parse (text : List Char) : Option Ipv6Addr := Reader.parseWith Reader.ipv6Addr text

example : Ipv4Addr.parse "192.168.1.20".toList = some ⟨192,168,1,20⟩ := by decide +kernel
example : Ipv6Addr.parse "fe80::1:10.0.0.1".toList = some ⟨0xfe80,0,0,0,0,1,0xa00,1⟩ := by decide +kernel

section Characters

def Dotted (c : Char) : Prop := Reader.isDigit 10 c = true ∨ c = '.'

def AddressChar (c : Char) : Prop := Dotted c ∨ Reader.isDigit 16 c = true ∨ c = ':'

open Reader

theorem takesOctet (index : Nat) : Takes Dotted (octet index) :=
  takesBind (takesSeparator (.inr rfl) (takesNumber fun _ => .inl)) fun _ => takesPure _

theorem takesIpv4 : Takes Dotted ipv4Addr :=
  takesBind (takesOctet 0) fun _ => takesBind (takesOctet 1) fun _ =>
    takesBind (takesOctet 2) fun _ => takesBind (takesOctet 3) fun _ => takesPure _

theorem takesWider {α : Type} {allowed wider : Char → Prop} {p : Reader α} (reads : Takes allowed p)
    (more : ∀ c, allowed c → wider c) : Takes wider p := by
  intro text value rest taken
  obtain ⟨used,same,fine⟩ := reads text value rest taken
  exact ⟨used,same,fun c mem => more c (fine c mem)⟩

theorem takesSegment (index : Nat) : Takes AddressChar (segment index) :=
  takesBind (takesSeparator (.inr (.inr rfl)) (takesNumber fun _ digit => .inr (.inl digit)))
    fun _ => takesPure _

theorem takesGroups (left index : Nat) : Takes AddressChar (groups left index) := by
  have colon : AddressChar ':' := .inr (.inr rfl)
  induction left generalizing index with
  | zero => exact takesPure _
  | succ left ih =>
    refine takesOrElse ?_ (takesOrElse ?_ (takesPure _))
    · have embedded : Takes AddressChar (separator ':' index ipv4Addr) :=
        takesSeparator colon (takesWider takesIpv4 fun _ => .inl)
      split
      · exact takesFailure
      · exact takesBind embedded fun _ => takesPure _
    · exact takesBind (takesSegment index) fun _ => takesBind (ih (index + 1)) fun _ => takesPure _

theorem takesIpv6 : Takes AddressChar ipv6Addr := by
  have colon : Takes AddressChar (givenChar ':') := takesGiven (.inr (.inr rfl))
  refine takesBind (takesGroups 8 0) fun (head,ipv4) => ?_
  dsimp only
  split
  · exact takesLift _
  · split
    · exact takesFailure
    · exact takesBind colon fun _ => takesBind colon fun _ => takesBind (takesGroups _ 0) fun _ =>
        takesLift _

theorem ipv4Chars {text : List Char} {ip : Ipv4Addr} (parsed : Ipv4Addr.parse text = some ip) :
    ∀ c ∈ text, Dotted c := by
  unfold Ipv4Addr.parse at parsed
  split at parsed
  · cases parsed
  · exact parsedAllowed takesIpv4 parsed

theorem ipv6Chars {text : List Char} {ip : Ipv6Addr} (parsed : Ipv6Addr.parse text = some ip) :
    ∀ c ∈ text, AddressChar c := parsedAllowed takesIpv6 parsed

end Characters

end TelephoneBooth
