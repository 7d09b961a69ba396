import Iwan.Lib.Index
import Iwan.Lib.Span
import Iwan.Scanners

/- The target of an HTTP request line. -/
namespace Iwan

open BigEndian (byteAt byteAt_zero)
open Index (findIdx_cut findIdx_front findIdx_missing)
open Decimal (value Run)

/-- What is left of a request target for the judgement, and the port if it names none. -/
def targetAuthority (s : List UInt8) (isConnect : Bool) : List UInt8 × UInt16 :=
  if isConnect then (s.takeWhile (· ≠ 0x20), 443)
  else
    (((stripScheme s).1.takeWhile fun c => c ≠ 0x2f ∧ c ≠ 0x3f ∧ c ≠ 0x23).takeWhile (· ≠ 0x20),
      (stripScheme s).2)

/-- The port behind a host, or the default. -/
inductive TargetPort (dflt : UInt16) : List UInt8 → UInt16 → Prop where
  | absent : TargetPort dflt [] dflt
  | given {digits : List UInt8} {port : UInt16} (run : Run digits)
      (same : value digits = port.toNat) : TargetPort dflt (0x3a :: digits) port

/-- The accepted authorities with what is read from them. A literal is a text that inet_pton
knows as a whole: no NUL byte stands in it. -/
inductive HttpTarget (pton : InetPton) (dflt : UInt16) : List UInt8 → PpTarget → Prop where
  | literal6 {lit rest ip6 : List UInt8} {port : UInt16} (long : 2 ≤ lit.length)
      (short : lit.length ≤ 45) (plain : 0x5d ∉ lit) (text : 0 ∉ lit)
      (valid : pton.v6 lit = some ip6) (ending : TargetPort dflt rest port) :
      HttpTarget pton dflt (0x5b :: (lit ++ 0x5d :: rest))
        { PpTarget.zero with af := .v6, ip6 := ip6, port := port }
  | quad {host rest ip4 : List UInt8} {port : UInt16} (filled : 1 ≤ host.length)
      (short : host.length ≤ 255) (plain : ∀ c ∈ host, isHostByte c = true)
      (valid : pton.v4 host = some ip4) (ending : TargetPort dflt rest port) :
      HttpTarget pton dflt (host ++ rest)
        { PpTarget.zero with af := .v4, ip4 := ip4, host := host, port := port }
  | name {host rest : List UInt8} {port : UInt16} (filled : 1 ≤ host.length)
      (short : host.length ≤ 255) (plain : ∀ c ∈ host, isHostByte c = true)
      (other : pton.v4 host = none) (ending : TargetPort dflt rest port) :
      HttpTarget pton dflt (host ++ rest) { PpTarget.zero with host := host, port := port }

/-- A bracketed literal with a NUL byte in it, whose part before the NUL is an address. -/
structure CutLiteral (pton : InetPton) (dflt : UInt16) (auth lit rest : List UInt8) : Prop where
  shape : auth = 0x5b :: (lit ++ 0x5d :: rest)
  plain : 0x5d ∉ lit
  nul : 0 ∈ lit
  size : 2 ≤ lit.length ∧ lit.length ≤ 45
  address : (pton.v6 (cString lit)).isSome
  ending : ∃ port, TargetPort dflt rest port

section

variable {pton : InetPton} {dflt port : UInt16} {lit rest host s auth : List UInt8} {t : PpTarget}

theorem targetPort_nil : TargetPort dflt [] port ↔ port = dflt := by
  constructor
  · intro ending
    cases ending
    rfl
  · rintro rfl
    exact .absent

theorem targetPort_cons {c : UInt8} {digits : List UInt8} :
    TargetPort dflt (c :: digits) port ↔ c = 0x3a ∧ ppParsePort digits = some port := by
  have low := port.toNat_lt
  rw [ppParsePort_eq_some]
  constructor
  · intro ending
    cases ending with
    | given run same => exact ⟨rfl, run, same, by omega⟩
  · rintro ⟨rfl, run, same, _⟩
    exact .given run same

theorem ppHttpLiteral6_eq_some (plain : 0x5d ∉ lit) :
    ppHttpLiteral6 pton (0x5b :: (lit ++ 0x5d :: rest)) dflt = some t ↔
      (2 ≤ lit.length ∧ lit.length ≤ 45) ∧ ∃ ip6 port, pton.v6 (cString lit) = some ip6 ∧
        TargetPort dflt rest port ∧
        t = { PpTarget.zero with af := .v6, ip6 := ip6, port := port } := by
  have close : (0x5b :: (lit ++ 0x5d :: rest)).findIdx (· = 0x5d) = lit.length + 1 :=
    findIdx_front (a := 0x5b :: lit) rest (by simp [plain])
  have inner : ((0x5b :: (lit ++ 0x5d :: rest)).drop 1).take lit.length = lit := by simp
  have size : (0x5b :: (lit ++ 0x5d :: rest)).length = lit.length + 2 + rest.length := by
    simp
    omega
  unfold ppHttpLiteral6
  simp only [close, size, Nat.add_sub_cancel, inner]
  by_cases sizes : 2 ≤ lit.length ∧ lit.length ≤ 45
  · rw [if_neg (by omega), if_neg (by omega)]
    simp only [sizes, and_self, true_and]
    cases pton.v6 (cString lit) with
    | none => simp
    | some ip6 =>
      dsimp only
      cases rest with
      | nil => simp [targetPort_nil, eq_comm]
      | cons c digits =>
        have byte : byteAt (0x5b :: (lit ++ 0x5d :: c :: digits)) (lit.length + 1 + 1) = c := by
          simp [byteAt]
        have behind :
            (0x5b :: (lit ++ 0x5d :: c :: digits)).drop (lit.length + 1 + 2) = digits := by
          simp
        rw [if_pos (by simp), byte, behind]
        by_cases colon : c = 0x3a
        · simp [targetPort_cons, colon, eq_comm]
        · simp [targetPort_cons, colon]
  · have refused : ∀ x : Option PpTarget,
        (if lit.length + 1 = lit.length + 2 + rest.length ∨ lit.length + 1 < 3 then none
          else if 45 < lit.length then none else x) = none := by
      intro x
      split_ifs
      · rfl
      · rfl
      · omega
    rw [refused]
    simp [sizes]

theorem ppHttpSplit_eq_some :
    ppHttpSplit s dflt = some (host, port) ↔
      ∃ rest, s = host ++ rest ∧ 0x3a ∉ host ∧ TargetPort dflt rest port := by
  unfold ppHttpSplit
  constructor
  · intro split
    rcases findIdx_cut s 0x3a with ⟨missing, whole⟩ | ⟨a, b, rfl, plain, index⟩
    · simp only [whole, if_true, Option.some.injEq, Prod.mk.injEq] at split
      obtain ⟨rfl, rfl⟩ := split
      exact ⟨[], (List.append_nil s).symm, missing, .absent⟩
    · have behind : (a ++ 0x3a :: b).drop (a.length + 1) = b := by simp
      have front : (a ++ 0x3a :: b).take a.length = a := by simp
      simp only [index, behind, front] at split
      rw [if_neg (by simp)] at split
      split_ifs at split
      obtain ⟨p, parsed, same⟩ := Option.map_eq_some_iff.mp split
      obtain ⟨rfl, rfl⟩ := Prod.mk.inj same
      exact ⟨0x3a :: b, rfl, plain, targetPort_cons.mpr ⟨rfl, parsed⟩⟩
  · rintro ⟨rest, rfl, plain, ending⟩
    cases rest with
    | nil => simp [findIdx_missing plain, targetPort_nil.mp ending]
    | cons c digits =>
      obtain ⟨rfl, parsed⟩ := targetPort_cons.mp ending
      obtain ⟨filled, digit⟩ := (ppParsePort_eq_some.mp parsed).1
      have single : 0x3a ∉ digits := fun member => absurd (digit _ member) (by decide)
      have positive := List.length_pos_iff.mpr filled
      have behind : (host ++ 0x3a :: digits).drop (host.length + 1) = digits := by simp
      simp only [findIdx_front digits plain, behind, parsed, single, or_false]
      rw [if_neg (by simp), if_neg (by simp; omega)]
      simp

theorem host_first (filled : 1 ≤ host.length) (bytes : ∀ c ∈ host, isHostByte c = true) :
    ∃ c tail, host ++ rest = c :: tail ∧ c ≠ 0x5b := by
  cases host with
  | nil => cases filled
  | cons c host =>
    refine ⟨c, host ++ rest, rfl, ?_⟩
    rintro rfl
    exact absurd (bytes _ List.mem_cons_self) (by decide)

theorem httpTarget_bracket (plain : 0x5d ∉ lit)
    (target : HttpTarget pton dflt (0x5b :: (lit ++ 0x5d :: rest)) t) : 0 ∉ lit := by
  generalize shape : (0x5b :: (lit ++ 0x5d :: rest) : List UInt8) = auth at target
  cases target with
  | literal6 _ _ plain' text =>
    rw [(Span.cut_inj plain plain' (List.cons.inj shape).2).1]
    exact text
  | quad filled _ bytes | name filled _ bytes =>
    obtain ⟨c, tail, head, other⟩ := host_first filled bytes
    rw [head] at shape
    exact absurd (List.cons.inj shape).1.symm other

/-- The judgement of an authority: the common part of both modes. -/
def judgeAuthority (pton : InetPton) (auth : List UInt8) (dflt : UInt16) : Option PpTarget :=
  if auth = [] then none
  else if byteAt auth 0 = 0x5b then ppHttpLiteral6 pton auth dflt
  else (ppHttpSplit auth dflt).bind fun split => ppHttpHost pton split.1 split.2

theorem ppHttpTarget_eq (pton : InetPton) (s : List UInt8) (isConnect : Bool) :
    ppHttpTarget pton s isConnect =
      judgeAuthority pton (targetAuthority s isConnect).1 (targetAuthority s isConnect).2 := by
  by_cases empty : s = []
  · subst empty
    cases isConnect <;> rfl
  · unfold ppHttpTarget targetAuthority
    rw [if_neg empty]
    cases isConnect <;> rfl

theorem judgeAuthority_host (filled : 1 ≤ host.length) (bytes : ∀ c ∈ host, isHostByte c = true)
    (ending : TargetPort dflt rest port) :
    judgeAuthority pton (host ++ rest) dflt = ppHttpHost pton host port := by
  have colon : 0x3a ∉ host := fun member => absurd (bytes _ member) (by decide)
  have split := ppHttpSplit_eq_some.mpr ⟨rest, rfl, colon, ending⟩
  obtain ⟨c, tail, shape, first⟩ := host_first filled bytes
  rw [judgeAuthority, split, shape, if_neg (by simp), if_neg (by simpa using first)]
  rfl

theorem judgeAuthority_sound (whole : ∀ lit rest, ¬ CutLiteral pton dflt auth lit rest)
    (judged : judgeAuthority pton auth dflt = some t) : HttpTarget pton dflt auth t := by
  unfold judgeAuthority at judged
  split_ifs at judged with empty bracket
  · cases auth with
    | nil => exact absurd rfl empty
    | cons c auth =>
      obtain rfl : c = 0x5b := bracket
      rcases findIdx_cut auth 0x5d with ⟨missing, _⟩ | ⟨lit, rest, rfl, close, _⟩
      · have last := findIdx_missing (s := 0x5b :: auth) (c := 0x5d) (by simp [missing])
        simp [ppHttpLiteral6, last] at judged
      · obtain ⟨size, ip6, port, valid, ending, rfl⟩ := (ppHttpLiteral6_eq_some close).mp judged
        have text : 0 ∉ lit := fun nul =>
          whole lit rest ⟨rfl, close, nul, size, by rw [valid]; rfl, port, ending⟩
        rw [cString_of_text text] at valid
        exact .literal6 size.1 size.2 close text valid ending
  · obtain ⟨⟨host, port⟩, split, target⟩ := Option.bind_eq_some_iff.mp judged
    obtain ⟨rest, rfl, _, ending⟩ := ppHttpSplit_eq_some.mp split
    unfold ppHttpHost at target
    dsimp only at target
    split_ifs at target with size bytes
    have bytes := List.all_eq_true.mp bytes
    cases valid : pton.v4 host with
    | none =>
      simp only [valid, Option.some.injEq] at target
      subst target
      exact .name (by omega) (by omega) bytes valid ending
    | some ip4 =>
      simp only [valid, Option.some.injEq] at target
      subst target
      exact .quad (by omega) (by omega) bytes valid ending

theorem judgeAuthority_complete (target : HttpTarget pton dflt auth t) :
    judgeAuthority pton auth dflt = some t := by
  cases target with
  | literal6 long short close text valid ending =>
    rw [judgeAuthority, if_neg (by simp), if_pos (byteAt_zero _ _)]
    refine (ppHttpLiteral6_eq_some close).mpr ⟨⟨long, short⟩, _, _, ?_, ending, rfl⟩
    rw [cString_of_text text, valid]
  | quad filled short bytes valid ending =>
    rw [judgeAuthority_host filled bytes ending, ppHttpHost, if_neg (by omega),
      if_pos (List.all_eq_true.mpr bytes), valid]
  | name filled short bytes other ending =>
    rw [judgeAuthority_host filled bytes ending, ppHttpHost, if_neg (by omega),
      if_pos (List.all_eq_true.mpr bytes), other]

end

/-- A target is judged by its text exactly if no literal in it is cut at a NUL byte. -/
theorem ppHttpTarget_judges (pton : InetPton) (s : List UInt8) (isConnect : Bool) :
    (∀ t, ppHttpTarget pton s isConnect = some t ↔
        HttpTarget pton (targetAuthority s isConnect).2 (targetAuthority s isConnect).1 t) ↔
      ∀ lit rest, ¬ CutLiteral pton (targetAuthority s isConnect).2 (targetAuthority s isConnect).1
        lit rest := by
  rw [ppHttpTarget_eq]
  constructor
  · intro judges lit rest cut
    obtain ⟨ip6, address⟩ := Option.isSome_iff_exists.mp cut.address
    obtain ⟨port, ending⟩ := cut.ending
    have accepted := (ppHttpLiteral6_eq_some cut.plain).mpr
      ⟨cut.size, ip6, port, address, ending, rfl⟩
    have target := (judges { PpTarget.zero with af := .v6, ip6 := ip6, port := port }).mp (by
      rw [judgeAuthority, cut.shape, if_neg (by simp), if_pos (byteAt_zero _ _)]
      exact accepted)
    rw [cut.shape] at target
    exact httpTarget_bracket cut.plain target cut.nul
  · exact fun whole t => ⟨judgeAuthority_sound whole, judgeAuthority_complete⟩

def loopbackPton : InetPton where
  v4 _ := none
  v6 lit := if lit = ascii "::1" then some (List.replicate 15 0 ++ [1]) else none

def cutLiteral : List UInt8 := ascii "[::1" ++ [0] ++ ascii "x]"

theorem ppHttpTarget_cutLiteral :
    (ppHttpTarget loopbackPton cutLiteral true).isSome = true ∧
    ¬ ∃ t, HttpTarget loopbackPton (targetAuthority cutLiteral true).2
      (targetAuthority cutLiteral true).1 t := by
  refine ⟨by decide +kernel, ?_⟩
  have auth : targetAuthority cutLiteral true = (cutLiteral, 443) := by decide +kernel
  rw [auth]
  rintro ⟨t, target⟩
  have literal : cutLiteral = 0x5b :: ((ascii "::1" ++ [0, 0x78]) ++ 0x5d :: []) := by decide
  rw [literal] at target
  exact httpTarget_bracket (by decide) target (by decide)

end Iwan
