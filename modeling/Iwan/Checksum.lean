import Iwan.Lib.OnesComplement
import Iwan.Server.Echo
import Iwan.Wire.Packet

/- The checksums the program writes (ipv4.c). -/
namespace Iwan

open BigEndian (byteAt be16 be32 bytes16 bytes32 be16_bytes16 byteAt_append field_append)
open OnesComplement (words wordSum reduce aligned reduce_le reduce_of_le reduce_carry
  wordSum_append wordSum_le wordSum_split sum_eq_reduce reduce_complement reduce_eq_full)

def ipCsumAccum (sum : UInt32) : List UInt8 → UInt32
  | [] => sum
  | [a] => sum + (a.toUInt32 <<< 8)
  | a :: b :: rest => ipCsumAccum (sum + ((a.toUInt32 <<< 8) ||| b.toUInt32)) rest

def ipCsumCarry : Nat → UInt32 → UInt32
  | 0, sum => sum
  | turns + 1, sum =>
    if sum >>> 16 ≠ 0 then ipCsumCarry turns ((sum &&& (0xFFFF : UInt32)) + (sum >>> 16)) else sum

def ipCsumFold (sum : UInt32) : UInt16 := ~~~(ipCsumCarry 3 sum).toUInt16

def ipTcpCsum (sip dip : UInt32) (tcp : List UInt8) : UInt16 :=
  let ph := bytes32 sip ++ bytes32 dip ++ [0, 6] ++ bytes16 (UInt16.ofNat tcp.length)
  ipCsumFold (ipCsumAccum (ipCsumAccum 0 ph) tcp)

def ipUdpCsum (sip dip : UInt32) (udp : List UInt8) : UInt16 :=
  let sum := ipCsumAccum 0 (bytes32 sip ++ bytes32 dip)
  ipCsumFold (ipCsumAccum (sum + 17 + UInt32.ofNat udp.length) udp)

def dnsIp (sip dip : UInt32) (ipid : UInt16) (tot : Nat) (csum : UInt16) : List UInt8 :=
  [0x45, 0] ++ bytes16 (UInt16.ofNat tot) ++ bytes16 ipid ++ [0, 0, 64, 17] ++ bytes16 csum ++
    (bytes32 sip ++ bytes32 dip)

def dnsUdp (sport : UInt16) (dnsq : List UInt8) (csum : UInt16) : List UInt8 :=
  bytes16 sport ++ [0, 53] ++ bytes16 (UInt16.ofNat (8 + dnsq.length)) ++ bytes16 csum ++ dnsq

def dnsBuildInner (sip dip : UInt32) (sport ipid : UInt16) (dnsq : List UInt8) (outsz : Nat) :
    Option (List UInt8) :=
  let tot := 20 + (8 + dnsq.length)
  if outsz < tot then none
  else
    let ipc := ipCsumFold (ipCsumAccum 0 (dnsIp sip dip ipid tot 0))
    let uc := ipUdpCsum sip dip (dnsUdp sport dnsq 0)
    some (dnsIp sip dip ipid tot ipc ++ dnsUdp sport dnsq uc)

def tcpRst : UInt8 := 0x04

def echoIp (p : List UInt8) (ihl : Nat) (csum : UInt16) : List UInt8 :=
  p.take 10 ++ bytes16 csum ++ ((p.drop 16).take 4 ++ ((p.drop 12).take 4 ++ (p.take ihl).drop 20))

def echoTcp (tcp : List UInt8) (s : EchoSegment) (seq ack : UInt32) (flags : UInt8)
    (csum : UInt16) : List UInt8 :=
  bytes16 s.tuple.tPort ++ bytes16 s.tuple.cPort ++ bytes32 seq ++ bytes32 ack ++
    [byteAt tcp 12, flags, byteAt tcp 14, byteAt tcp 15] ++ bytes16 csum ++ tcp.drop 18

def echoRewrite (p : List UInt8) (ihl : Nat) (s : EchoSegment) (seq : UInt32) : List UInt8 :=
  let nsrc := ip4U32 (ip4At p 12)
  let ndst := ip4U32 (ip4At p 16)
  let (ack, flags) := echoMirrorAck s.sOrig s.paylen s.flags
  let cs := ipTcpCsum ndst nsrc (echoTcp (p.drop ihl) s seq ack flags 0)
  let ipc := ipCsumFold (ipCsumAccum 0 (echoIp p ihl 0))
  echoIp p ihl ipc ++ echoTcp (p.drop ihl) s seq ack flags cs

def echoMirror (mirror6 : EchoTable → List UInt8 → EchoTable × Option (List UInt8))
    (tbl : EchoTable) (now : NowMs) (p : List UInt8) : EchoTable × Option (List UInt8) :=
  if 1 ≤ p.length ∧ ipVersion p = 6 then mirror6 tbl p
  else if p.length < 40 then (tbl, none)
  else
    let ihl := (byteAt p 0 &&& 0x0F).toNat * 4
    if ihl < 20 ∨ p.length < ihl + 20 then (tbl, none)
    else if byteAt p 9 ≠ 6 then (tbl, none)
    else
      let thlen := ((byteAt p (ihl + 12) >>> 4) &&& 0x0F).toNat * 4
      if p.length < ihl + thlen then (tbl, none)
      else
        let s : EchoSegment :=
          { tuple := ⟨.v4 (ip4U32 (ip4At p 12)) (ip4U32 (ip4At p 16)),
              be16 (byteAt p ihl) (byteAt p (ihl + 1)),
              be16 (byteAt p (ihl + 2)) (byteAt p (ihl + 3))⟩
            flags := byteAt p (ihl + 13)
            sOrig := ip4U32 (ip4At p (ihl + 4))
            paylen := p.length - ihl - thlen
            now := now }
        match echoSeqAdvance tbl s with
        | (tbl, none) => (tbl, none)
        | (tbl, some seq) =>
          -- a pure acknowledgement would be acknowledged for ever
          if s.paylen = 0 ∧ s.has tcpAck ∧ !s.has (tcpSyn ||| tcpFin ||| tcpRst) then (tbl, none)
          else (tbl, some (echoRewrite p ihl s seq))

def headerLength (pkt : List UInt8) : Nat := (byteAt pkt 0 &&& 0x0F).toNat * 4

def totalLength (pkt : List UInt8) : Nat := (be16 (byteAt pkt 2) (byteAt pkt 3)).toNat

def transportHeader (pkt : List UInt8) : Nat := if byteAt pkt 9 = 6 then 20 else 8

def pseudoHeader (pkt : List UInt8) (len : Nat) : List UInt8 :=
  (pkt.drop 12).take 4 ++ (pkt.drop 16).take 4 ++ [0, byteAt pkt 9] ++ bytes16 (UInt16.ofNat len)

/-- The segment that the total length delimits. -/
def segment (pkt : List UInt8) : List UInt8 := (pkt.take (totalLength pkt)).drop (headerLength pkt)

/-- A receiver takes the packet: it is all there, its segment has a whole transport header, and both
one's complement sums are 0xFFFF. -/
structure Verifies (pkt : List UInt8) : Prop where
  header : OnesComplement.sum (pkt.take (headerLength pkt)) = 0xFFFF
  whole : headerLength pkt + transportHeader pkt ≤ totalLength pkt ∧ totalLength pkt ≤ pkt.length
  segment : OnesComplement.sum (pseudoHeader pkt (segment pkt).length ++ segment pkt) = 0xFFFF

theorem verifies_iff (pkt : List UInt8) : Verifies pkt ↔
    OnesComplement.sum (pkt.take (headerLength pkt)) = 0xFFFF ∧
    (headerLength pkt + transportHeader pkt ≤ totalLength pkt ∧ totalLength pkt ≤ pkt.length) ∧
    OnesComplement.sum (pseudoHeader pkt (segment pkt).length ++ segment pkt) = 0xFFFF :=
  ⟨fun v => ⟨v.header, v.whole, v.segment⟩, fun h => ⟨h.1, h.2.1, h.2.2⟩⟩

instance (pkt : List UInt8) : Decidable (Verifies pkt) := decidable_of_iff' _ (verifies_iff pkt)

/-- The exact sum of a query's UDP segment and pseudo header, the checksum field left out. -/
def udpSum (sip dip : UInt32) (sport : UInt16) (dnsq : List UInt8) : Nat :=
  wordSum (bytes32 sip) + wordSum (bytes32 dip) + 17 + sport.toNat + 53 + 2 * (8 + dnsq.length) +
    wordSum dnsq

/-- The bytes behind the total length, and their number, add nothing to the one's complement sum of
the segment. -/
def TrailerNeutral (pkt : List UInt8) : Prop :=
  (headerLength pkt + 20 ≤ totalLength pkt ∧ totalLength pkt ≤ pkt.length) ∧
    65535 ∣ pkt.length - totalLength pkt +
      wordSum (aligned (totalLength pkt) (pkt.drop (totalLength pkt)))

section

variable {front text a b : List UInt8} {csum : UInt16}

theorem accum_word (a b : UInt8) :
    ((a.toUInt32 <<< 8) ||| b.toUInt32).toNat = a.toNat * 256 + b.toNat := by
  have zero : be32 0 0 a b = (a.toUInt32 <<< 8) ||| b.toUInt32 := by simp [be32]
  rw [← zero, BigEndian.be32_toNat]
  simp

theorem ipCsumAccum_toNat {sum : UInt32} {bytes : List UInt8}
    (fits : sum.toNat + wordSum bytes < 2 ^ 32) :
    (ipCsumAccum sum bytes).toNat = sum.toNat + wordSum bytes := by
  induction bytes using OnesComplement.words.induct generalizing sum with
  | case1 => rfl
  | case2 a =>
    have last : (a.toUInt32 <<< 8).toNat = a.toNat * 256 := by
      have := accum_word a 0
      simpa using this
    simp only [wordSum, words, List.sum_cons, List.sum_nil] at fits ⊢
    rw [ipCsumAccum, UInt32.toNat_add, last]
    omega
  | case3 a b rest ih =>
    simp only [wordSum, words, List.sum_cons] at fits ih ⊢
    have step : (sum + ((a.toUInt32 <<< 8) ||| b.toUInt32)).toNat =
        sum.toNat + (a.toNat * 256 + b.toNat) := by
      rw [UInt32.toNat_add, accum_word]
      omega
    rw [ipCsumAccum, ih (by rw [step]; omega), step]
    omega

theorem ipCsumCarry_turn (turns : Nat) (sum : UInt32) :
    ∃ next : UInt32, next.toNat = sum.toNat % 65536 + sum.toNat / 65536 ∧
      ipCsumCarry (turns + 1) sum = if sum.toNat < 65536 then sum else ipCsumCarry turns next := by
  have low : (sum &&& (0xFFFF : UInt32)).toNat = sum.toNat % 65536 := by
    rw [UInt32.toNat_and]
    exact Nat.and_two_pow_sub_one_eq_mod sum.toNat 16
  have high : (sum >>> 16).toNat = sum.toNat / 65536 := by
    rw [UInt32.toNat_shiftRight]
    exact Nat.shiftRight_eq_div_pow sum.toNat 16
  have small := sum.toNat_lt
  refine ⟨(sum &&& (0xFFFF : UInt32)) + (sum >>> 16), ?_, ?_⟩
  · rw [UInt32.toNat_add, low, high]
    omega
  · have test : sum >>> 16 ≠ 0 ↔ ¬ sum.toNat < 65536 := by
      rw [Ne, ← UInt32.toNat_inj, high, UInt32.toNat_zero]
      omega
    rw [ipCsumCarry]
    simp only [test, ite_not]

theorem ipCsumCarry_toNat (sum : UInt32) : (ipCsumCarry 3 sum).toNat = reduce sum.toNat := by
  obtain ⟨next, once, first⟩ := ipCsumCarry_turn 2 sum
  obtain ⟨last, twice, second⟩ := ipCsumCarry_turn 1 next
  obtain ⟨_, _, third⟩ := ipCsumCarry_turn 0 last
  have small := sum.toNat_lt
  rw [first]
  split
  · rw [reduce_of_le (by omega)]
  rw [second, ← reduce_carry sum.toNat, ← once]
  split
  · rw [reduce_of_le (by omega)]
  rw [third, if_pos (by omega), ← reduce_carry next.toNat, ← twice, reduce_of_le (by omega)]

theorem ipCsumFold_toNat (sum : UInt32) : (ipCsumFold sum).toNat = 65535 - reduce sum.toNat := by
  have low := reduce_le sum.toNat
  have carry : (ipCsumCarry 3 sum).toUInt16.toNat = reduce sum.toNat := by
    rw [UInt32.toNat_toUInt16, ipCsumCarry_toNat]
    omega
  rw [ipCsumFold, UInt16.toNat_not, carry]
  rfl

/-- No sum of a pseudo header and 65535 bytes overflows. -/
theorem accum_exact (even : front.length % 2 = 0) (short : front.length ≤ 40)
    (fits : text.length ≤ 65535) :
    (ipCsumAccum (ipCsumAccum 0 front) text).toNat = wordSum (front ++ text) ∧
    (ipCsumFold (ipCsumAccum (ipCsumAccum 0 front) text)).toNat =
      65535 - reduce (wordSum (front ++ text)) := by
  have low := wordSum_le front
  have high := wordSum_le text
  have first : (ipCsumAccum 0 front).toNat = wordSum front := by
    rw [ipCsumAccum_toNat (by rw [UInt32.toNat_zero]; omega), UInt32.toNat_zero, Nat.zero_add]
  have whole : (ipCsumAccum (ipCsumAccum 0 front) text).toNat = wordSum (front ++ text) := by
    rw [ipCsumAccum_toNat (by rw [first]; omega), first, wordSum_append _ even]
  exact ⟨whole, by rw [ipCsumFold_toNat, whole]⟩

theorem bytes16_wordSum (v : UInt16) : wordSum (bytes16 v) = v.toNat := by
  have whole := BigEndian.be16_toNat (v >>> 8).toUInt8 v.toUInt8
  rw [be16_bytes16] at whole
  exact (Nat.add_zero _).trans whole.symm

/-- A checksum made over zeros at its own even place completes the sum. -/
theorem csum_completes (even : front.length % 2 = 0) (place : a.length % 2 = 0)
    (made : csum.toNat = 65535 - reduce (wordSum (front ++ (a ++ bytes16 0 ++ b)))) :
    reduce (wordSum (front ++ (a ++ bytes16 csum ++ b))) = 65535 := by
  have cut (v : UInt16) : wordSum (front ++ (a ++ bytes16 v ++ b)) =
      wordSum front + wordSum a + wordSum b + v.toNat := by
    rw [wordSum_append _ even, List.append_assoc, wordSum_append _ place,
      wordSum_append b (by simp), bytes16_wordSum]
    omega
  rw [cut, UInt16.toNat_zero, Nat.add_zero] at made
  rw [cut, made]
  exact reduce_complement _

theorem header_completes (place : a.length % 2 = 0) (short : a.length + b.length ≤ 65533) :
    OnesComplement.sum (a ++ bytes16 (ipCsumFold (ipCsumAccum 0 (a ++ bytes16 0 ++ b))) ++ b) =
      0xFFFF := by
  rw [sum_eq_reduce]
  exact @csum_completes [] a b _ rfl place (@accum_exact [] _ rfl (by decide) (by simp; omega)).2

end

theorem pseudoHeader_wordSum {pkt : List UInt8} (long : 20 ≤ pkt.length) {len : Nat}
    (fits : len ≤ 65535) (text : List UInt8) :
    wordSum (pseudoHeader pkt len ++ text) = wordSum ((pkt.drop 12).take 4) +
      wordSum ((pkt.drop 16).take 4) + (byteAt pkt 9).toNat + len + wordSum text := by
  have four {k : Nat} (low : k + 4 ≤ 20) : ((pkt.drop k).take 4).length = 4 := by
    rw [List.length_take, List.length_drop]
    omega
  have proto : wordSum [0, byteAt pkt 9] = (byteAt pkt 9).toNat := by simp [wordSum, words]
  rw [pseudoHeader, wordSum_append text (by simp [four]),
    wordSum_append (bytes16 _) (by simp [four]), wordSum_append [0, byteAt pkt 9] (by simp [four]),
    wordSum_append _ (by simp [four]), proto,
    bytes16_wordSum, UInt16.toNat_ofNat_of_lt' (Nat.lt_succ_of_le fits)]

/-- With a checksum over all of `seg`, the packet verifies when what the total length leaves out is
neutral. -/
theorem verifies_append_iff {hdr seg : List UInt8} (long : 20 ≤ hdr.length)
    (ihl : headerLength hdr = hdr.length) (header : OnesComplement.sum hdr = 0xFFFF)
    (proto : byteAt hdr 9 ≠ 0) (fits : seg.length ≤ 65535)
    (complete : reduce (wordSum (pseudoHeader hdr seg.length ++ seg)) = 65535) :
    Verifies (hdr ++ seg) ↔
      (hdr.length + transportHeader hdr ≤ totalLength hdr ∧
        totalLength hdr ≤ hdr.length + seg.length) ∧
      65535 ∣ hdr.length + seg.length - totalLength hdr +
        wordSum (aligned (totalLength hdr - hdr.length)
          (seg.drop (totalLength hdr - hdr.length))) := by
  have at' {n : Nat} (low : n < 20) : byteAt (hdr ++ seg) n = byteAt hdr n :=
    byteAt_append _ _ (by omega)
  have ihl' : headerLength (hdr ++ seg) = hdr.length := by
    rw [headerLength, at' (by decide), ← headerLength, ihl]
  have tot' : totalLength (hdr ++ seg) = totalLength hdr := by
    rw [totalLength, at' (by decide), at' (by decide), ← totalLength]
  have transport : transportHeader (hdr ++ seg) = transportHeader hdr := by
    rw [transportHeader, at' (by decide), ← transportHeader]
  have header' : OnesComplement.sum ((hdr ++ seg).take (headerLength (hdr ++ seg))) = 0xFFFF := by
    rw [ihl', List.take_left]
    exact header
  rw [verifies_iff, and_iff_right header', tot', ihl', transport, List.length_append]
  refine and_congr_right fun bounds => ?_
  obtain ⟨len, tot⟩ : ∃ len, totalLength hdr = hdr.length + len :=
    Nat.exists_eq_add_of_le (by omega)
  have inside : len ≤ seg.length := by omega
  have inner : Iwan.segment (hdr ++ seg) = seg.take len := by
    rw [Iwan.segment, tot', ihl', tot, List.take_length_add_append, List.drop_left]
  have pseudo : pseudoHeader (hdr ++ seg) len = pseudoHeader hdr len := by
    rw [pseudoHeader, pseudoHeader, at' (by decide), field_append _ _ (by omega),
      field_append _ _ (by omega)]
  have positive : 0 < (byteAt hdr 9).toNat :=
    Nat.pos_of_ne_zero fun zero => proto (UInt8.toNat_inj.mp zero)
  have split := wordSum_split seg len
  rw [inner, List.length_take, Nat.min_eq_left inside, pseudo, sum_eq_reduce,
    pseudoHeader_wordSum long (by omega), reduce_eq_full (by omega), tot, Nat.add_sub_cancel_left]
  rw [pseudoHeader_wordSum long fits, reduce_eq_full (by omega)] at complete
  omega

theorem ipTcpCsum_toNat (sip dip : UInt32) (tcp : List UInt8) (fits : tcp.length ≤ 65535) :
    (ipTcpCsum sip dip tcp).toNat = 65535 - reduce (wordSum
      (bytes32 sip ++ bytes32 dip ++ [0, 6] ++ bytes16 (UInt16.ofNat tcp.length) ++ tcp)) :=
  (accum_exact (by simp) (by simp) fits).2

theorem ipUdpCsum_toNat (sip dip : UInt32) (udp : List UInt8) (fits : udp.length ≤ 65535) :
    (ipUdpCsum sip dip udp).toNat = 65535 - reduce (wordSum
      (bytes32 sip ++ bytes32 dip ++ [0, 17] ++ bytes16 (UInt16.ofNat udp.length) ++ udp)) := by
  have low := wordSum_le (bytes32 sip ++ bytes32 dip)
  have high := wordSum_le udp
  simp only [List.length_append, BigEndian.bytes32_length] at low
  have first : (ipCsumAccum 0 (bytes32 sip ++ bytes32 dip)).toNat =
      wordSum (bytes32 sip ++ bytes32 dip) := by
    rw [ipCsumAccum_toNat (by rw [UInt32.toNat_zero]; omega), UInt32.toNat_zero, Nat.zero_add]
  have count : (UInt32.ofNat udp.length).toNat = udp.length :=
    UInt32.toNat_ofNat_of_lt' (Nat.lt_of_le_of_lt fits (by decide))
  have start : (ipCsumAccum 0 (bytes32 sip ++ bytes32 dip) + 17 + UInt32.ofNat udp.length).toNat =
      wordSum (bytes32 sip ++ bytes32 dip) + 17 + udp.length := by
    rw [UInt32.toNat_add, UInt32.toNat_add, first, count, show (17 : UInt32).toNat = 17 from rfl]
    omega
  have total : wordSum (bytes32 sip ++ bytes32 dip ++ [0, 17] ++
      bytes16 (UInt16.ofNat udp.length) ++ udp) =
      wordSum (bytes32 sip ++ bytes32 dip) + 17 + udp.length + wordSum udp := by
    rw [wordSum_append udp (by simp), wordSum_append (bytes16 _) (by simp),
      wordSum_append [0, 17] (by simp), bytes16_wordSum,
      UInt16.toNat_ofNat_of_lt' (Nat.lt_succ_of_le fits)]
    rfl
  rw [ipUdpCsum, ipCsumFold_toNat, ipCsumAccum_toNat (by rw [start]; omega), start, total]

section

variable (sip dip : UInt32) (sport : UInt16) {dnsq : List UInt8}

theorem dnsUdp_length (csum : UInt16) : (dnsUdp sport dnsq csum).length = 8 + dnsq.length := by
  simp [dnsUdp]
  omega

theorem ipUdpCsum_eq_zero (fits : dnsq.length ≤ 65507) :
    ipUdpCsum sip dip (dnsUdp sport dnsq 0) = 0 ↔ 65535 ∣ udpSum sip dip sport dnsq := by
  have size := @dnsUdp_length sport dnsq 0
  have length : (UInt16.ofNat (8 + dnsq.length)).toNat = 8 + dnsq.length :=
    UInt16.toNat_ofNat_of_lt' (Nat.lt_of_le_of_lt (Nat.add_le_add_left fits 8) (by decide))
  have ports : wordSum (dnsUdp sport dnsq 0) =
      sport.toNat + 53 + (8 + dnsq.length) + wordSum dnsq := by
    rw [dnsUdp, wordSum_append dnsq (by simp), wordSum_append (bytes16 0) (by simp),
      wordSum_append (bytes16 _) (by simp), wordSum_append [0, 53] (by simp), bytes16_wordSum,
      bytes16_wordSum, bytes16_wordSum, length]
    rfl
  have total : wordSum (bytes32 sip ++ bytes32 dip ++ [0, 17] ++
      bytes16 (UInt16.ofNat (dnsUdp sport dnsq 0).length) ++ dnsUdp sport dnsq 0) =
      udpSum sip dip sport dnsq := by
    rw [wordSum_append (dnsUdp sport dnsq 0) (by simp), wordSum_append (bytes16 _) (by simp),
      wordSum_append [0, 17] (by simp), wordSum_append (bytes32 dip) (by simp), bytes16_wordSum,
      ports, size, length, udpSum, show wordSum [0, 17] = 17 from rfl]
    omega
  have made := ipUdpCsum_toNat sip dip (dnsUdp sport dnsq 0) (by rw [size]; omega)
  have low := reduce_le (udpSum sip dip sport dnsq)
  rw [total] at made
  rw [← UInt16.toNat_inj, made, ← reduce_eq_full (by rw [udpSum]; omega), UInt16.toNat_zero]
  omega

theorem dnsBuildInner_verifies (ipid : UInt16) {pkt : List UInt8}
    {outsz : Nat} (fits : dnsq.length ≤ 65507)
    (built : dnsBuildInner sip dip sport ipid dnsq outsz = some pkt) :
    Verifies pkt ∧
      be16 (byteAt pkt 26) (byteAt pkt 27) = ipUdpCsum sip dip (dnsUdp sport dnsq 0) := by
  rw [dnsBuildInner] at built
  dsimp only at built
  split_ifs at built
  cases built
  have size := @dnsUdp_length sport dnsq
  have made := ipUdpCsum_toNat sip dip (dnsUdp sport dnsq 0) (by rw [size]; omega)
  have header : OnesComplement.sum (dnsIp sip dip ipid (20 + (8 + dnsq.length))
      (ipCsumFold (ipCsumAccum 0 (dnsIp sip dip ipid (20 + (8 + dnsq.length)) 0)))) = 0xFFFF :=
    header_completes (by simp) (by simp)
  generalize ipUdpCsum sip dip (dnsUdp sport dnsq 0) = uc at made
  generalize ipCsumFold _ = hc at header
  rw [size, ← size uc] at made
  have ihl : headerLength (dnsIp sip dip ipid (20 + (8 + dnsq.length)) hc) = 20 := by
    change ((0x45 : UInt8) &&& 0x0F).toNat * 4 = 20
    decide
  have tot : totalLength (dnsIp sip dip ipid (20 + (8 + dnsq.length)) hc) =
      20 + (8 + dnsq.length) := by
    have small : 20 + (8 + dnsq.length) < 65536 := by omega
    refine Eq.trans ?_ (UInt16.toNat_ofNat_of_lt' small)
    exact congrArg UInt16.toNat (be16_bytes16 _)
  have long : (dnsIp sip dip ipid (20 + (8 + dnsq.length)) hc).length = 20 := rfl
  have transport : transportHeader (dnsIp sip dip ipid (20 + (8 + dnsq.length)) hc) = 8 := rfl
  have udp : byteAt (dnsIp sip dip ipid (20 + (8 + dnsq.length)) hc) 9 ≠ 0 := by
    change (17 : UInt8) ≠ 0
    decide
  have complete := csum_completes (by simp) (by simp) made
  refine ⟨(verifies_append_iff long.ge ihl header udp (by rw [size]; omega)
    complete).mpr ?_, be16_bytes16 uc⟩
  have rest : (dnsUdp sport dnsq uc).drop (8 + dnsq.length) = [] :=
    List.drop_of_length_le (by rw [size])
  rw [tot, long, transport, size, Nat.add_sub_cancel_left, rest, Nat.sub_self, aligned]
  refine ⟨by omega, ?_⟩
  split <;> simp [wordSum, words]

end

theorem field_bytes32 {p : List UInt8} {k : Nat} (inside : k + 4 ≤ p.length) :
    bytes32 (ip4U32 (ip4At p k)) = (p.drop k).take 4 := by
  rw [ip4U32, BigEndian.bytes32_be32, BigEndian.drop_eq_byteAt_cons p (by omega),
    BigEndian.drop_eq_byteAt_cons p (by omega), BigEndian.drop_eq_byteAt_cons p (by omega),
    BigEndian.drop_eq_byteAt_cons p (by omega)]
  rfl

section

variable {p : List UInt8} {ihl : Nat} (long : 20 ≤ ihl) (inside : ihl ≤ p.length) (c : UInt16)

include long inside

theorem echoIp_length : (echoIp p ihl c).length = ihl := by
  simp only [echoIp, List.length_append, List.length_take, List.length_drop,
    BigEndian.bytes16_length]
  omega

theorem echoIp_at {n : Nat} (low : n < 10) : byteAt (echoIp p ihl c) n = byteAt p n := by
  have front : n < (p.take 10).length := by
    rw [List.length_take]
    omega
  have whole := byteAt_append (p.take 10) (p.drop 10) front
  rw [List.take_append_drop] at whole
  rw [echoIp, List.append_assoc, byteAt_append _ _ front, whole]

theorem echoIp_addrs (n : Nat) : pseudoHeader (echoIp p ihl c) n =
    bytes32 (ip4U32 (ip4At p 16)) ++ bytes32 (ip4U32 (ip4At p 12)) ++ [0, byteAt p 9] ++
      bytes16 (UInt16.ofNat n) := by
  have front : (p.take 10 ++ bytes16 c).length = 12 := by
    rw [List.length_append, List.length_take, BigEndian.bytes16_length]
    omega
  have four {k : Nat} (low : k + 4 ≤ 20) : ((p.drop k).take 4).length = 4 := by
    rw [List.length_take, List.length_drop]
    omega
  have behind : (echoIp p ihl c).drop 12 =
      (p.drop 16).take 4 ++ ((p.drop 12).take 4 ++ (p.take ihl).drop 20) := List.drop_left' front
  have next : (echoIp p ihl c).drop 16 = (p.drop 12).take 4 ++ (p.take ihl).drop 20 := by
    rw [show 16 = 12 + 4 from rfl, ← List.drop_drop, behind, List.drop_left' (four (by omega))]
  rw [pseudoHeader, next, behind, List.take_left' (four (by omega)),
    List.take_left' (four (by omega)), echoIp_at long inside c (by decide),
    field_bytes32 (by omega), field_bytes32 (by omega)]

theorem echoRewrite_verifies (s : EchoSegment) (seq : UInt32) (whole : ihl + 20 ≤ p.length)
    (head : headerLength p = ihl) (proto : byteAt p 9 = 6) (small : p.length ≤ 65535) :
    Verifies (echoRewrite p ihl s seq) ↔ TrailerNeutral p := by
  have header : OnesComplement.sum (echoIp p ihl (ipCsumFold (ipCsumAccum 0 (echoIp p ihl 0)))) =
      0xFFFF := by
    have size := echoIp_length long inside 0
    simp only [echoIp, List.length_append, BigEndian.bytes16_length] at size
    refine header_completes ?_ ?_
    · rw [List.length_take]
      omega
    · simp only [List.length_append]
      omega
  rw [echoRewrite]
  generalize echoMirrorAck s.sOrig s.paylen s.flags = answer
  obtain ⟨ack, flags⟩ := answer
  have size (c : UInt16) : (echoTcp (p.drop ihl) s seq ack flags c).length = p.length - ihl := by
    simp [echoTcp]
    omega
  have made := ipTcpCsum_toNat (ip4U32 (ip4At p 16)) (ip4U32 (ip4At p 12))
    (echoTcp (p.drop ihl) s seq ack flags 0) (by rw [size]; omega)
  dsimp only
  generalize ipTcpCsum _ _ (echoTcp (p.drop ihl) s seq ack flags 0) = tc at made
  generalize ipCsumFold _ = hc at header
  rw [size, ← size tc, ← proto, ← echoIp_addrs long inside hc] at made
  have length := echoIp_length long inside hc
  have at' {n : Nat} (low : n < 10) := echoIp_at long inside hc low
  have ihl' : headerLength (echoIp p ihl hc) = (echoIp p ihl hc).length := by
    rw [headerLength, at' (by decide), ← headerLength, head, length]
  have tot : totalLength (echoIp p ihl hc) = totalLength p := by
    rw [totalLength, at' (by decide), at' (by decide), ← totalLength]
  have tcp : byteAt (echoIp p ihl hc) 9 = 6 := by rw [at' (by decide), proto]
  have transport : transportHeader (echoIp p ihl hc) = 20 := by
    rw [transportHeader, tcp, if_pos rfl]
  have complete := csum_completes (by rw [echoIp_addrs long inside hc]; simp) (by simp) made
  rw [verifies_append_iff (by omega) ihl' header (by rw [tcp]; decide) (by rw [size]; omega)
    complete, TrailerNeutral, head, tot, transport, length, size, Nat.add_sub_cancel' inside]
  refine and_congr_right fun bounds => ?_
  -- a header is a number of words, and the rewritten bytes all stand before the payload
  have parity : (totalLength p - ihl) % 2 = totalLength p % 2 := by
    rw [← head] at bounds ⊢
    unfold headerLength at bounds ⊢
    omega
  have behind : (echoTcp (p.drop ihl) s seq ack flags tc).drop (totalLength p - ihl) =
      p.drop (totalLength p) := by
    obtain ⟨extra, cut⟩ := Nat.exists_eq_add_of_le (by omega : ihl + 18 ≤ totalLength p)
    rw [cut, show ihl + 18 + extra - ihl = 18 + extra by omega, echoTcp, ← List.drop_drop,
      List.drop_left' (by simp), List.drop_drop, List.drop_drop, Nat.add_assoc]
  rw [behind, aligned, aligned, parity]

end

theorem echoMirror_verifies (mirror6 : EchoTable → List UInt8 → EchoTable × Option (List UInt8))
    (tbl : EchoTable) (now : NowMs) {p pkt : List UInt8} (sane : ipv4PktOk p ≠ none)
    (small : p.length ≤ 65535) (mirrored : (echoMirror mirror6 tbl now p).2 = some pkt) :
    Verifies pkt ↔ TrailerNeutral p := by
  obtain ⟨⟨src, dst⟩, accepted⟩ := Option.ne_none_iff_exists'.mp sane
  have version := (ipv4PktOk_some p src dst accepted).2.1
  have four : ¬ (1 ≤ p.length ∧ ipVersion p = 6) := by
    rw [version]
    exact fun both => absurd both.2 (by decide)
  rw [echoMirror, if_neg four] at mirrored
  by_cases short : p.length < 40
  · rw [if_pos short] at mirrored
    cases mirrored
  rw [if_neg short, ← headerLength] at mirrored
  by_cases bad : headerLength p < 20 ∨ p.length < headerLength p + 20
  · simp [bad] at mirrored
  by_cases other : byteAt p 9 ≠ 6
  · simp [bad, other] at mirrored
  simp only [if_neg bad, if_neg other] at mirrored
  split_ifs at mirrored
  · generalize echoSeqAdvance tbl _ = answer at mirrored
    obtain ⟨_, _ | _⟩ := answer <;> cases mirrored
  · generalize echoSeqAdvance tbl _ = answer at mirrored
    obtain ⟨_, _ | seq⟩ := answer
    · cases mirrored
    · rw [← Option.some.inj mirrored]
      exact echoRewrite_verifies (by omega) (by omega) _ _ (by omega) rfl (not_not.mp other)
        small

def noMirror6 (tbl : EchoTable) (_ : List UInt8) : EchoTable × Option (List UInt8) := (tbl, none)

def emptyEcho : EchoTable := fun _ => ⟨⟨.v4 0 0, 0, 0⟩, 0, 0, false, 0⟩

theorem echoNow_le : (1000 : UInt64).toNat ≤ 2 ^ 64 / 1000 := by decide

def echoNow : NowMs := ⟨1000, echoNow_le⟩

def synPacket : List UInt8 :=
  [0x45, 0, 0, 40, 0, 1, 0, 0, 64, 6, 0, 0, 10, 0, 0, 2, 8, 8, 8, 8,
    0x10, 0, 0, 80, 0, 0, 0, 1, 0, 0, 0, 0, 0x50, 2, 0xFF, 0xFF, 0, 0, 0, 0]

def dnsSample : List UInt8 := [0x12, 0x34, 1, 0, 0, 1, 0, 0, 0, 0, 0, 0, 1, 0x61, 0, 0, 1, 0, 1]

end Iwan
