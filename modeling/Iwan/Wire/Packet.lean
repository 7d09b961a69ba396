import Iwan.Lib.BigEndian

/- Inner addresses and the header checks on inner packets (protocol.c, ipv4.c). -/
namespace Iwan

open BigEndian

structure Ip4 where
  b0 : UInt8
  b1 : UInt8
  b2 : UInt8
  b3 : UInt8
deriving DecidableEq, Repr

abbrev Ip6 := Vector UInt8 16

def Ip4.bytes (ip : Ip4) : List UInt8 := [ip.b0, ip.b1, ip.b2, ip.b3]

def ip4At (buf : List UInt8) (offset : Nat) : Ip4 :=
  ⟨byteAt buf offset, byteAt buf (offset + 1), byteAt buf (offset + 2), byteAt buf (offset + 3)⟩

def ip6At (buf : List UInt8) (offset : Nat) : Ip6 :=
  Vector.ofFn fun index => byteAt buf (offset + index)

def ip4U32 (b : Ip4) : UInt32 := be32 b.b0 b.b1 b.b2 b.b3

def u32Ip4 (v : UInt32) : Ip4 :=
  ⟨(v >>> 24).toUInt8, (v >>> 16).toUInt8, (v >>> 8).toUInt8, v.toUInt8⟩

@[simp] theorem ip4U32_u32Ip4 (v : UInt32) : ip4U32 (u32Ip4 v) = v := be32_bytes32 v

@[simp] theorem u32Ip4_ip4U32 (b : Ip4) : u32Ip4 (ip4U32 b) = b := by
  have split := bytes32_be32 b.b0 b.b1 b.b2 b.b3
  simp only [bytes32, List.cons.injEq, and_true] at split
  simp only [u32Ip4, ip4U32, split]

theorem ip4U32_inj (a b : Ip4) : ip4U32 a = ip4U32 b ↔ a = b := by
  constructor
  · intro same
    rw [← u32Ip4_ip4U32 a, same, u32Ip4_ip4U32]
  · exact congrArg ip4U32

def decimal (octet : UInt8) : List UInt8 :=
  (Nat.toDigits 10 octet.toNat).map fun digit => UInt8.ofNat digit.toNat

def ipToString (b : Ip4) : List UInt8 :=
  decimal b.b0 ++ [0x2E] ++ decimal b.b1 ++ [0x2E] ++ decimal b.b2 ++ [0x2E] ++ decimal b.b3

def iwanIp6UlaByte0 : UInt8 := 0xFD

def ip6DeriveUla (v4 : UInt32) : Ip6 :=
  #v[iwanIp6UlaByte0, 0, 0, 0, 0, 0, 0, 0, 0, 0, 0, 0,
    (u32Ip4 v4).b0, (u32Ip4 v4).b1, (u32Ip4 v4).b2, (u32Ip4 v4).b3]

theorem ip6DeriveUla_inj (v w : UInt32) (same : ip6DeriveUla v = ip6DeriveUla w) : v = w := by
  have lists := congrArg Vector.toList same
  simp only [ip6DeriveUla, Vector.toList_mk, List.cons.injEq, and_true, true_and] at lists
  have address : u32Ip4 v = u32Ip4 w := by
    rw [Ip4.mk.injEq]
    exact lists
  rw [← ip4U32_u32Ip4 v, address, ip4U32_u32Ip4]

def ipv4Multicast (a : UInt32) : Bool := a &&& 0xF0000000 == 0xE0000000

def ipv4Broadcast (a : UInt32) : Bool := a == 0xFFFFFFFF

def ipVersion (pkt : List UInt8) : UInt8 := byteAt pkt 0 >>> 4

def ipv4PktOk (pkt : List UInt8) : Option (UInt32 × UInt32) :=
  let ihl := (byteAt pkt 0 &&& 0x0F).toNat
  let tot := (be16 (byteAt pkt 2) (byteAt pkt 3)).toNat
  let src := ip4U32 (ip4At pkt 12)
  let dst := ip4U32 (ip4At pkt 16)
  if pkt.length < 20 then none
  else if ipVersion pkt ≠ 4 then none
  else if ihl < 5 ∨ pkt.length < ihl * 4 then none
  else if tot < ihl * 4 ∨ pkt.length < tot then none
  else if src = 0 ∨ ipv4Multicast src ∨ ipv4Broadcast src then none
  else if ipv4Multicast dst ∨ ipv4Broadcast dst then none
  else some (src, dst)

def ip6PktOk (pkt : List UInt8) : Option (Ip6 × Ip6) :=
  let plen := (be16 (byteAt pkt 4) (byteAt pkt 5)).toNat
  if pkt.length < 40 then none
  else if ipVersion pkt ≠ 6 then none
  else if pkt.length < 40 + plen then none
  else if ip6At pkt 8 = Vector.replicate 16 0 then none
  else if byteAt pkt 8 = 0xFF then none
  else if byteAt pkt 24 = 0xFF then none
  else some (ip6At pkt 8, ip6At pkt 24)

theorem ipv4PktOk_some (pkt : List UInt8) (src dst : UInt32)
    (accepted : ipv4PktOk pkt = some (src, dst)) :
    20 ≤ pkt.length ∧ ipVersion pkt = 4 ∧ src = ip4U32 (ip4At pkt 12) ∧
      dst = ip4U32 (ip4At pkt 16) := by
  simp only [ipv4PktOk] at accepted
  split_ifs at accepted with short version
  simp only [Option.some.injEq, Prod.mk.injEq] at accepted
  exact ⟨Nat.le_of_not_lt short, not_not.mp version, accepted.1.symm, accepted.2.symm⟩

theorem ip6PktOk_some (pkt : List UInt8) (src dst : Ip6)
    (accepted : ip6PktOk pkt = some (src, dst)) :
    40 ≤ pkt.length ∧ ipVersion pkt = 6 ∧ src = ip6At pkt 8 ∧ dst = ip6At pkt 24 := by
  simp only [ip6PktOk] at accepted
  split_ifs at accepted with short version
  simp only [Option.some.injEq, Prod.mk.injEq] at accepted
  exact ⟨Nat.le_of_not_lt short, not_not.mp version, accepted.1.symm, accepted.2.symm⟩

end Iwan
