import Iwan.Lib.Decimal
import Iwan.Wire.Packet
import Iwan.Wire.Cipher

/- Addresses and networks as text (protocol.c, route_common.c). -/
namespace Iwan

open Decimal (digit value Run text text_run text_value value_eq_zero)

abbrev Text := List UInt8

/-- A network and its prefix length. -/
structure Cidr where
  net : UInt32
  plen : Nat
deriving DecidableEq, Repr

def Cidr.default : Cidr := ⟨0, 0⟩

def decimalValue (digits : Text) : Nat := digits.foldl (fun v c => v * 10 + (c - 0x30).toNat) 0

def isDigits (s : Text) : Bool := s ≠ [] ∧ s.all fun c => 0x30 ≤ c && c ≤ 0x39

def s2Octet (part : Text) : Option UInt8 :=
  if !isDigits part ∨ (part.head? = some 0x30 ∧ 1 < part.length) ∨ 255 < decimalValue part then none
  else some (UInt8.ofNat (decimalValue part))

def s2ip4 (s : Text) : Option Ip4 :=
  match (s.splitOn 0x2E).map s2Octet with
  | [some a, some b, some c, some d] => some ⟨a, b, c, d⟩
  | _ => none

/-- cidr_parse: the address before the slash, and the length behind it. -/
def cidrParse (s : Text) : Option Cidr :=
  match s.splitOn 0x2F with
  | [ip, len] =>
    if ip = [] ∨ 16 ≤ ip.length then none
    else
      match s2ip4 ip with
      | none => none
      | some addr =>
        if !isDigits len ∨ 32 < decimalValue len then none
        else if decimalValue len = 0 ∧ ip4U32 addr ≠ 0 then none
        else some ⟨ip4U32 addr, decimalValue len⟩
  | _ => none

def cidrMask (plen : Nat) : UInt32 :=
  if plen = 0 then 0 else ~~~((1 <<< (32 - UInt32.ofNat plen)) - 1)

/-- canon_v4_cidr: the host bits are cleared. -/
def canonV4Cidr (c : Text) : Option Cidr :=
  (cidrParse c).map fun cidr => ⟨cidr.net &&& cidrMask cidr.plen, cidr.plen⟩

def isDefaultV4 (c : Text) : Bool := c = ascii "default" ∨ c = ascii "0.0.0.0/0"

def cidrText (c : Cidr) : Text := ipToString (u32Ip4 c.net) ++ 0x2F :: text c.plen

def canonV4Text (c : Text) : Option Text := (canonV4Cidr c).map cidrText

/-- The addresses that a network is meant for. -/
def Cidr.addresses (c : Cidr) : Set UInt32 :=
  {a | a.toNat / 2 ^ (32 - c.plen) = c.net.toNat / 2 ^ (32 - c.plen)}

/-- The default route with two or more zeros behind its slash. -/
def PaddedDefault (s : Text) : Prop := ∃ n, s = ascii "0.0.0.0/" ++ List.replicate (n + 2) 0x30

theorem isDigits_iff {s : Text} : isDigits s = true ↔ Run s := by
  simp [isDigits, Run, digit]

theorem s2Octet_decimal (b : UInt8) : s2Octet (decimal b) = some b := by
  obtain ⟨run, same, lead⟩ := text_run b.toNat
  have digits : isDigits (decimal b) = true := isDigits_iff.mpr run
  have whole : decimalValue (decimal b) = b.toNat := same
  have single (zero : (decimal b).head? = some 0x30) : (decimal b).length = 1 := by
    rw [decimal, lead zero]
    rfl
  have small := b.toNat_lt
  rw [s2Octet, if_neg, whole, UInt8.ofNat_toNat]
  rintro (bad | ⟨zero, long⟩ | large)
  · simp [digits] at bad
  · rw [single zero] at long
    omega
  · omega

theorem decimal_length (b : UInt8) : (decimal b).length ≤ 3 := by
  have small := b.toNat_lt
  rw [decimal, List.length_map]
  by_cases one : b.toNat < 10
  · simp [Nat.toDigits_of_lt_base one]
  rw [Nat.toDigits_of_base_le (by decide) (by omega), List.length_append]
  by_cases two : b.toNat / 10 < 10
  · simp [Nat.toDigits_of_lt_base two]
  rw [Nat.toDigits_of_base_le (by decide) (by omega), List.length_append,
    Nat.toDigits_of_lt_base (by omega)]
  simp

theorem decimal_plain (b : UInt8) :
    0x2E ∉ decimal b ∧ 0x2F ∉ decimal b ∧ (decimal b).length ≤ 3 := by
  have digits : ∀ c ∈ decimal b, digit c = true := (text_run b.toNat).1.2
  exact ⟨fun dot => absurd (digits _ dot) (by decide),
    fun slash => absurd (digits _ slash) (by decide), decimal_length b⟩

theorem s2Octet_eq_some {part : Text} {b : UInt8} : s2Octet part = some b ↔ part = decimal b := by
  constructor
  · intro read
    unfold s2Octet at read
    split_ifs at read with bad
    simp only [not_or, Bool.not_eq_true', Bool.not_eq_false, isDigits_iff, not_and, not_lt] at bad
    obtain ⟨run, lead, low⟩ := bad
    cases read
    have small : (UInt8.ofNat (decimalValue part)).toNat = value part :=
      UInt8.toNat_ofNat_of_lt' (Nat.lt_succ_of_le low)
    have same := text_value run fun zero => by
      have short := lead zero
      cases part with
      | nil => cases zero
      | cons c rest =>
        cases zero
        have none : rest = [] := by simpa using short
        rw [none]
    rw [decimal, small]
    exact same.symm
  · rintro rfl
    exact s2Octet_decimal b

theorem s2ip4_eq_some {s : Text} {b : Ip4} : s2ip4 s = some b ↔ s = ipToString b := by
  have joined : ipToString b =
      [0x2E].intercalate [decimal b.b0, decimal b.b1, decimal b.b2, decimal b.b3] := by
    simp [ipToString, List.intercalate]
  constructor
  · intro read
    unfold s2ip4 at read
    split at read
    · next a b c d parts =>
      cases read
      obtain ⟨p, q, r, t, split, rfl, rfl, rfl, rfl⟩ : ∃ p q r t, s.splitOn 0x2E = [p, q, r, t] ∧
          p = decimal a ∧ q = decimal b ∧ r = decimal c ∧ t = decimal d := by
        simp only [List.map_eq_cons_iff, List.map_eq_nil_iff] at parts
        obtain ⟨p, _, split, first, q, _, rfl, second, r, _, rfl, third, t, _, rfl, last, rfl⟩ :=
          parts
        exact ⟨p, q, r, t, split, s2Octet_eq_some.mp first, s2Octet_eq_some.mp second,
          s2Octet_eq_some.mp third, s2Octet_eq_some.mp last⟩
      rw [joined, ← split, List.intercalate_splitOn]
    · cases read
  · rintro rfl
    have split : (ipToString b).splitOn 0x2E =
        [decimal b.b0, decimal b.b1, decimal b.b2, decimal b.b3] := by
      rw [joined]
      refine List.splitOn_intercalate 0x2E ?_ (List.cons_ne_nil _ _)
      intro part member
      simp only [List.mem_cons, List.not_mem_nil, or_false] at member
      rcases member with rfl | rfl | rfl | rfl <;> exact (decimal_plain _).1
    rw [s2ip4, split]
    simp [s2Octet_decimal]

theorem ipToString_plain (b : Ip4) : 0x2F ∉ ipToString b ∧ (ipToString b).length < 16 ∧
    ipToString b ≠ [] := by
  obtain ⟨_, plain0, short0⟩ := decimal_plain b.b0
  obtain ⟨_, plain1, short1⟩ := decimal_plain b.b1
  obtain ⟨_, plain2, short2⟩ := decimal_plain b.b2
  obtain ⟨_, plain3, short3⟩ := decimal_plain b.b3
  refine ⟨by simp [ipToString, plain0, plain1, plain2, plain3], ?_, by simp [ipToString]⟩
  simp only [ipToString, List.length_append, List.length_cons, List.length_nil]
  omega

theorem cidrParse_eq_some {s : Text} {c : Cidr} :
    cidrParse s = some c ↔ c.plen ≤ 32 ∧ (c.plen = 0 → c.net = 0) ∧ ∃ len, Run len ∧
      value len = c.plen ∧ s = ipToString (u32Ip4 c.net) ++ 0x2F :: len := by
  constructor
  · intro parsed
    unfold cidrParse at parsed
    split at parsed
    · next ip len parts =>
      cases read : s2ip4 ip with
      | none => simp [read] at parsed
      | some addr =>
        simp only [read] at parsed
        split_ifs at parsed with size bad zero
        simp only [not_or, Bool.not_eq_true', Bool.not_eq_false, isDigits_iff, not_lt] at bad
        cases parsed
        refine ⟨bad.2, fun none => not_not.mp fun net => zero ⟨none, net⟩, len, bad.1, rfl, ?_⟩
        have whole : List.intercalate [0x2F] (s.splitOn 0x2F) = s := List.intercalate_splitOn 0x2F
        rw [u32Ip4_ip4U32, ← s2ip4_eq_some.mp read, ← whole, parts]
        simp [List.intercalate]
    · cases parsed
  · rintro ⟨small, zero, len, run, same, rfl⟩
    obtain ⟨plain, short, filled⟩ := ipToString_plain (u32Ip4 c.net)
    have digits : 0x2F ∉ len := fun member => absurd (run.2 _ member) (by decide)
    have value : decimalValue len = c.plen := same
    rw [cidrParse, List.splitOn_append_cons_self, List.splitOn_eq_singleton plain,
      List.splitOn_eq_singleton digits]
    dsimp only [List.cons_append, List.nil_append]
    rw [if_neg (by simp only [filled, false_or]; omega), s2ip4_eq_some.mpr rfl]
    dsimp only
    rw [if_neg (by simp only [isDigits_iff.mpr run, value]; simpa using small),
      if_neg (by rw [value, ip4U32_u32Ip4]; exact fun both => both.2 (zero both.1)),
      value, ip4U32_u32Ip4]

def Cidr.canon (c : Cidr) : Cidr := ⟨c.net &&& cidrMask c.plen, c.plen⟩

variable {s t : Text} {c d : Cidr}

theorem mem_addresses {a : UInt32} :
    a ∈ c.addresses ↔ a.toNat / 2 ^ (32 - c.plen) = c.net.toNat / 2 ^ (32 - c.plen) := Iff.rfl

theorem cidrMask_toNat : ∀ p ≤ 32, (cidrMask p).toNat = 2 ^ 32 - 2 ^ (32 - p) := by
  decide

theorem canon_net (small : c.plen ≤ 32) :
    c.canon.net.toNat = c.net.toNat / 2 ^ (32 - c.plen) * 2 ^ (32 - c.plen) := by
  have whole : 2 ^ 32 = 2 ^ c.plen * 2 ^ (32 - c.plen) := by
    rw [← pow_add]
    congr 1
    omega
  have positive : 0 < 2 ^ (32 - c.plen) := Nat.two_pow_pos _
  have mask : (cidrMask c.plen).toNat = (2 ^ c.plen - 1) * 2 ^ (32 - c.plen) := by
    rw [cidrMask_toNat c.plen small, whole, Nat.sub_mul, Nat.one_mul]
  have low : c.net.toNat / 2 ^ (32 - c.plen) < 2 ^ c.plen := by
    rw [Nat.div_lt_iff_lt_mul positive, ← whole]
    exact c.net.toNat_lt
  rw [Cidr.canon, UInt32.toNat_and, mask, ← Nat.div_add_mod' (c.net.toNat &&& _),
    Nat.and_div_two_pow, Nat.and_mod_two_pow, Nat.mul_div_cancel _ positive, Nat.mul_mod_left,
    Nat.and_zero, Nat.add_zero, Nat.and_two_pow_sub_one_eq_mod, Nat.mod_eq_of_lt low]

theorem canon_addresses (small : c.plen ≤ 32) : c.canon.addresses = c.addresses := by
  ext a
  have same : c.canon.net.toNat / 2 ^ (32 - c.plen) = c.net.toNat / 2 ^ (32 - c.plen) := by
    rw [canon_net small, Nat.mul_div_cancel _ (Nat.two_pow_pos _)]
  rw [mem_addresses, mem_addresses, show c.canon.plen = c.plen from rfl, same]

theorem canon_canon (small : c.plen ≤ 32) : c.canon.canon = c.canon := by
  have net : c.canon.canon.net = c.canon.net := by
    rw [← UInt32.toNat_inj, canon_net (c := c.canon) small, canon_net small,
      show c.canon.plen = c.plen from rfl, Nat.mul_div_cancel _ (Nat.two_pow_pos _)]
  calc c.canon.canon = ⟨c.canon.canon.net, c.plen⟩ := rfl
    _ = ⟨c.canon.net, c.plen⟩ := by rw [net]
    _ = c.canon := rfl

theorem addresses_plen (smallC : c.plen ≤ 32) (smallD : d.plen ≤ 32)
    (same : c.addresses = d.addresses) : d.plen ≤ c.plen := by
  by_contra longer
  have split : 2 ^ (32 - c.plen) = 2 ^ (d.plen - c.plen - 1) * 2 * 2 ^ (32 - d.plen) := by
    rw [← pow_succ, ← pow_add]
    congr 1
    omega
  have whole : 2 ^ 32 = 2 ^ c.plen * 2 ^ (32 - c.plen) := by
    rw [← pow_add]
    congr 1
    omega
  have base := c.net.toNat_lt
  rw [whole] at base
  have front : c.net.toNat / 2 ^ (32 - c.plen) < 2 ^ c.plen :=
    (Nat.div_lt_iff_lt_mul (Nat.two_pow_pos _)).mpr base
  have double : 2 * 2 ^ (32 - d.plen) ≤ 2 ^ (32 - c.plen) := by
    rw [split, Nat.mul_assoc]
    exact Nat.le_mul_of_pos_left _ (Nat.two_pow_pos _)
  have small : 0 < 2 ^ (32 - d.plen) := Nat.two_pow_pos _
  have inside : ∀ x < 2 ^ (32 - c.plen),
      (x + c.net.toNat / 2 ^ (32 - c.plen) * 2 ^ (32 - c.plen)) / 2 ^ (32 - d.plen) =
        d.net.toNat / 2 ^ (32 - d.plen) := by
    intro x low
    have top := Nat.mul_le_mul_right (2 ^ (32 - c.plen)) front
    rw [Nat.succ_mul, ← whole] at top
    have fits : x + c.net.toNat / 2 ^ (32 - c.plen) * 2 ^ (32 - c.plen) < 2 ^ 32 := by omega
    have member : UInt32.ofNat (x + c.net.toNat / 2 ^ (32 - c.plen) * 2 ^ (32 - c.plen)) ∈
        c.addresses := by
      rw [mem_addresses, UInt32.toNat_ofNat_of_lt' fits,
        Nat.add_mul_div_right _ _ (Nat.two_pow_pos _), Nat.div_eq_of_lt low, Nat.zero_add]
    rw [same, mem_addresses, UInt32.toNat_ofNat_of_lt' fits] at member
    exact member
  have first := inside 0 (by omega)
  have second := inside (2 ^ (32 - d.plen)) (by omega)
  rw [Nat.zero_add] at first
  rw [Nat.add_comm, Nat.add_div_right _ small, first] at second
  omega

theorem addresses_eq_iff (smallC : c.plen ≤ 32) (smallD : d.plen ≤ 32) :
    c.canon = d.canon ↔ c.addresses = d.addresses := by
  constructor
  · intro same
    rw [← canon_addresses smallC, same, canon_addresses smallD]
  · intro same
    have plen : c.plen = d.plen :=
      Nat.le_antisymm (addresses_plen smallD smallC same.symm) (addresses_plen smallC smallD same)
    have member : c.net ∈ d.addresses := by
      rw [← same]
      exact mem_addresses.mpr rfl
    have net : c.canon.net = d.canon.net := by
      rw [← UInt32.toNat_inj, canon_net smallC, canon_net smallD, plen, mem_addresses.mp member]
    calc c.canon = ⟨c.canon.net, c.plen⟩ := rfl
      _ = ⟨d.canon.net, d.plen⟩ := by rw [net, plen]
      _ = d.canon := rfl

theorem addresses_univ (small : c.plen ≤ 32) : c.addresses = Set.univ ↔ c.plen = 0 := by
  rw [Set.eq_univ_iff_forall]
  constructor
  · intro all
    by_contra positive
    have low := mem_addresses.mp (all 0)
    have high := mem_addresses.mp (all (UInt32.ofNat (2 ^ 31)))
    have size : 2 ^ (32 - c.plen) ≤ 2 ^ 31 := Nat.pow_le_pow_right (by decide) (by omega)
    have half : (UInt32.ofNat (2 ^ 31)).toNat = 2 ^ 31 := rfl
    rw [half, ← low] at high
    have := Nat.div_pos size (Nat.two_pow_pos _)
    simp only [UInt32.toNat_zero, Nat.zero_div] at high
    omega
  · intro zero a
    rw [mem_addresses, zero, Nat.div_eq_of_lt a.toNat_lt, Nat.div_eq_of_lt c.net.toNat_lt]

theorem canonV4Text_eq (parsed : cidrParse s = some c) :
    canonV4Text s = some (cidrText c.canon) := by
  rw [canonV4Text, canonV4Cidr, parsed]
  rfl

theorem cidrParse_text (small : c.plen ≤ 32) (zero : c.plen = 0 → c.net = 0) :
    cidrParse (cidrText c) = some c := by
  obtain ⟨run, same, _⟩ := text_run c.plen
  exact cidrParse_eq_some.mpr ⟨small, zero, text c.plen, run, same, rfl⟩

theorem cidrParse_canon (parsed : cidrParse s = some c) :
    cidrParse (cidrText c.canon) = some c.canon := by
  obtain ⟨small, zero, _⟩ := cidrParse_eq_some.mp parsed
  refine cidrParse_text small fun none => ?_
  change c.net &&& _ = 0
  rw [zero none, UInt32.zero_and]

theorem cidrParse_zero (parsed : cidrParse s = some c) : c.plen = 0 ↔
    ∃ n, s = ascii "0.0.0.0/" ++ List.replicate (n + 1) 0x30 := by
  have root : ipToString (u32Ip4 0) ++ [0x2F] = ascii "0.0.0.0/" := by decide
  obtain ⟨-, zero, len, run, same, shape⟩ := cidrParse_eq_some.mp parsed
  constructor
  · intro none
    have zeros := List.eq_replicate_of_mem (value_eq_zero.mp (same.trans none))
    obtain ⟨n, filled⟩ := Nat.exists_eq_succ_of_ne_zero (List.length_pos_iff.mpr run.1).ne'
    rw [filled] at zeros
    exact ⟨n, by rw [shape, zero none, zeros, ← root, List.append_assoc]; rfl⟩
  · rintro ⟨n, rfl⟩
    have zeros : Run (List.replicate (n + 1) 0x30) := by simp [Run, digit]
    have read := cidrParse_eq_some (c := ⟨0, 0⟩).mpr ⟨Nat.zero_le 32, fun _ => rfl, _, zeros,
      value_eq_zero.mpr fun _ => List.eq_of_mem_replicate, rfl⟩
    rw [List.append_cons, root, parsed] at read
    rw [Option.some.inj read]

theorem isDefaultV4_iff (parsed : cidrParse s = some c) :
    (isDefaultV4 s = true ↔ c.addresses = Set.univ) ↔ ¬ PaddedDefault s := by
  have named : s ≠ ascii "default" := by
    rintro rfl
    cases parsed
  rw [addresses_univ (cidrParse_eq_some.mp parsed).1, cidrParse_zero parsed, isDefaultV4,
    decide_eq_true_eq, or_iff_right named]
  constructor
  · rintro same ⟨n, rfl⟩
    have short := congrArg List.length (same.mpr ⟨n + 1, rfl⟩)
    simp [ascii] at short
  · intro unpadded
    constructor
    · exact fun root => ⟨0, root⟩
    · rintro ⟨n, rfl⟩
      cases n with
      | zero => rfl
      | succ n => exact absurd ⟨n, rfl⟩ unpadded

/-- One spelling for each address and one canonical text for each set of addresses; the default is
known as such exactly if its length is not padded. -/
theorem cidr_canonical (first : cidrParse s = some c) (second : cidrParse t = some d) :
    (∀ u b, s2ip4 u = some b ↔ u = ipToString b) ∧
    (canonV4Text s = canonV4Text t ↔ c.addresses = d.addresses) ∧
    (∃ out c', canonV4Text s = some out ∧ cidrParse out = some c' ∧
      c'.addresses = c.addresses ∧ canonV4Text out = some out) ∧
    ((isDefaultV4 s = true ↔ c.addresses = Set.univ) ↔ ¬ PaddedDefault s) := by
  have small := (cidrParse_eq_some.mp first).1
  refine ⟨fun _ _ => s2ip4_eq_some, ?_, ?_, isDefaultV4_iff first⟩
  · rw [canonV4Text_eq first, canonV4Text_eq second, Option.some.injEq,
      ← addresses_eq_iff small (cidrParse_eq_some.mp second).1]
    constructor
    · intro same
      have texts := cidrParse_canon first
      rw [same, cidrParse_canon second] at texts
      exact (Option.some.inj texts).symm
    · exact congrArg cidrText
  · refine ⟨_, _, canonV4Text_eq first, cidrParse_canon first, canon_addresses small, ?_⟩
    rw [canonV4Text_eq (cidrParse_canon first), canon_canon small]

theorem cidr_canonical_sample :
    cidrParse (ascii "10.1.2.3/08") = some ⟨0x0A010203, 8⟩ ∧
    cidrParse (ascii "10.0.0.0/8") = some ⟨0x0A000000, 8⟩ ∧
    (canonV4Text (ascii "10.1.2.3/08") = canonV4Text (ascii "10.0.0.0/8") ↔
      Cidr.addresses ⟨0x0A010203, 8⟩ = Cidr.addresses ⟨0x0A000000, 8⟩) :=
  have first : cidrParse (ascii "10.1.2.3/08") = some ⟨0x0A010203, 8⟩ := by decide
  have second : cidrParse (ascii "10.0.0.0/8") = some ⟨0x0A000000, 8⟩ := by decide
  ⟨first, second, (cidr_canonical first second).2.1⟩

theorem isDefaultV4_zeros :
    cidrParse (ascii "0.0.0.0/00") = some ⟨0, 0⟩ ∧ Cidr.addresses ⟨0, 0⟩ = Set.univ ∧
      isDefaultV4 (ascii "0.0.0.0/00") = false :=
  ⟨by decide, (addresses_univ (by decide)).mpr rfl, by decide⟩

end Iwan
