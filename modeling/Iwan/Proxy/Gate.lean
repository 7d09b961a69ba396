import Iwan.Lib.NetPrefix
import Iwan.Proxy.Flow

/- The gates on host-local targets. -/
namespace Iwan

open BigEndian NetPrefix

def TargetAddr.bytes : TargetAddr → List UInt8
  | .v4 rip => bytes32 rip
  | .v6 rip6 => rip6

def mappedHead : List UInt8 := List.replicate 10 0 ++ [0xff, 0xff]

def hostLocalNets4 : List (List UInt8 × Nat) :=
  [([0, 0, 0, 0], 8), ([127, 0, 0, 0], 8), ([169, 254, 0, 0], 16)]

def hostLocalNets6 : List (List UInt8 × Nat) :=
  [(List.replicate 16 0, 128), (List.replicate 15 0 ++ [1], 128),
    ([0xfe, 0x80] ++ List.replicate 14 0, 10)] ++
    hostLocalNets4.map fun net => (mappedHead ++ net.1, 96 + net.2)

def TargetAddr.hostLocalNets : TargetAddr → List (List UInt8 × Nat)
  | .v4 _ => hostLocalNets4
  | .v6 _ => hostLocalNets6

def TargetAddr.HostLocal (addr : TargetAddr) : Prop :=
  ∃ net ∈ addr.hostLocalNets, addr.bytes.length = net.1.length ∧ InNet net.1 net.2 addr.bytes

/-- rp_target_blocked: loopback, link-local and unspecified addresses, spelled either way. -/
def rpTargetBlocked (guard : Bool) (af : Nat) (p : List UInt8) : Bool :=
  if guard = false then false
  else if af = 4 then
    byteAt p 0 = 0 ∨ byteAt p 0 = 127 ∨ (byteAt p 0 = 169 ∧ byteAt p 1 = 254)
  else if af = 6 then
    if p.take 16 = List.replicate 15 0 ++ [1] then true
    else if p.take 16 = List.replicate 16 0 then true
    else if byteAt p 0 = 0xfe ∧ byteAt p 1 &&& 0xc0 = 0x80 then true
    else if p.take 12 = List.replicate 10 0 ++ [0xff, 0xff] then
      byteAt p 12 = 0 ∨ byteAt p 12 = 127 ∨ (byteAt p 12 = 169 ∧ byteAt p 13 = 254)
    else false
  else false

/-- How a connection attempt ends. -/
inductive RpTry where
  | noSocket
  | failed (rep : UInt8)
  | stuck
  | connected
deriving DecidableEq, Repr

/-- An address of getaddrinfo. -/
inductive RpAddr where
  | ip (addr : TargetAddr)
  | other
deriving DecidableEq, Repr

/-- How rp_connect_target ends. -/
inductive RpResult where
  | connected (addr : RpAddr)
  | refused
  | failed
deriving DecidableEq, Repr

/-- What is started (a literal connected to, a name looked up), the addresses tried, the result, and
the code of a failure. -/
structure RpConnect where
  started : Option Dispatch
  connects : List RpAddr
  result : RpResult
  failRep : UInt8
deriving DecidableEq, Repr

def rpConnectLiteral (addr : TargetAddr) (port : UInt16) (outcome : RpTry) : RpConnect :=
  let started := some (.openTcpConn addr port)
  match outcome with
  | .noSocket => ⟨started, [], .failed, 5⟩
  | .failed rep => ⟨started, [.ip addr], .failed, rep⟩
  | .stuck => ⟨started, [.ip addr], .failed, 5⟩
  | .connected => ⟨started, [.ip addr], .connected (.ip addr), 5⟩

def RpAddr.blocked (guard : Bool) : RpAddr → Bool
  | .ip (.v4 rip) => rpTargetBlocked guard 4 (bytes32 rip)
  | .ip (.v6 rip6) => rpTargetBlocked guard 6 rip6
  | .other => false

/-- The state of its loop over the addresses. -/
structure RpLoop where
  connects : List RpAddr
  last : Option RpAddr
  blocked : Bool
  realFail : Bool
  failRep : UInt8
deriving DecidableEq, Repr

def rpCandidate (guard : Bool) (st : RpLoop) (addr : RpAddr) (outcome : RpTry) : RpLoop :=
  if addr.blocked guard then { st with blocked := true }
  else
    let tried := { st with connects := st.connects ++ [addr], realFail := true }
    match outcome with
    | .noSocket => { st with realFail := true }
    | .failed rep => { tried with failRep := rep }
    | .stuck => tried
    | .connected => { tried with last := some addr }

def rpCandidates (guard : Bool) : RpLoop → List (RpAddr × RpTry) → RpLoop
  | st, [] => st
  | st, (addr, outcome) :: rest =>
    let st' := rpCandidate guard st addr outcome
    if st'.last.isSome then st' else rpCandidates guard st' rest

/-- What a target starts, if the gate passes it. -/
def rpStart (guard : Bool) (t : PpTarget) : Option Dispatch :=
  match t.af with
  | .v4 => if rpTargetBlocked guard 4 t.ip4 then none else some (.openTcpConn (.v4 t.rip) t.port)
  | .v6 => if rpTargetBlocked guard 6 t.ip6 then none else some (.openTcpConn (.v6 t.ip6) t.port)
  -- the name is a C string for getaddrinfo
  | .domain => some (.spawnDns (cString t.host) t.port)

/-- How a lookup ends: rp_dns_acquire gets no place under the resolver cap, getaddrinfo fails, or it
returns addresses, here with the fate of an attempt on each. -/
inductive RpLookup where
  | capped
  | failed
  | found (candidates : List (RpAddr × RpTry))
deriving DecidableEq, Repr

def rpConnectTarget (guard : Bool) (t : PpTarget) (literal : RpTry) (lookup : RpLookup) :
    RpConnect :=
  match rpStart guard t with
  | none => ⟨none, [], .refused, 5⟩
  | some (.openTcpConn addr port) => rpConnectLiteral addr port literal
  | some (.spawnDns host port) =>
    match lookup with
    | .capped => ⟨none, [], .failed, 4⟩
    | .failed => ⟨some (.spawnDns host port), [], .failed, 4⟩
    | .found candidates =>
      let st := rpCandidates guard ⟨[], none, false, false, 5⟩ candidates
      match st.last with
      | some addr => ⟨some (.spawnDns host port), st.connects, .connected addr, st.failRep⟩
      | none =>
        ⟨some (.spawnDns host port), st.connects,
          if st.blocked ∧ ¬ st.realFail then .refused else .failed, st.failRep⟩

set_option maxRecDepth 4096 in
theorem top_bits (c : UInt8) :
    c &&& 0xc0 = 0x80 ↔ c.toNat.testBit 7 = true ∧ c.toNat.testBit 6 = false := by
  cases c with
  | ofBitVec c =>
    cases c with
    | ofFin c =>
      revert c
      decide

variable {p : List UInt8}

theorem inNet_eight {net : List UInt8} : InNet net 8 p ↔ byteAt p 0 = byteAt net 0 := by
  rw [show 8 = 8 * 1 from rfl, inNet_bytes, Nat.forall_lt_succ_right]
  simp

theorem inNet_sixteen {net : List UInt8} :
    InNet net 16 p ↔ byteAt p 0 = byteAt net 0 ∧ byteAt p 1 = byteAt net 1 := by
  rw [show 16 = 8 * 2 from rfl, inNet_bytes, Nat.forall_lt_succ_right, Nat.forall_lt_succ_right]
  simp

theorem inNet_linkLocal : InNet ([0xfe, 0x80] ++ List.replicate 14 0) 10 p ↔
      byteAt p 0 = 0xfe ∧ byteAt p 1 &&& 0xc0 = 0x80 := by
  have top : bit p 8 = (byteAt p 1).toNat.testBit 7 := rfl
  have next : bit p 9 = (byteAt p 1).toNat.testBit 6 := rfl
  rw [show 10 = 8 + 2 from rfl, inNet_add, inNet_eight, top_bits, ← top, ← next,
    Nat.forall_lt_succ_right, Nat.forall_lt_succ_right]
  have one : bit ([0xfe, 0x80] ++ List.replicate 14 0) (8 + 0) = true := by decide
  have zero : bit ([0xfe, 0x80] ++ List.replicate 14 0) (8 + 1) = false := by decide
  rw [one, zero]
  simp

theorem hostLocal4_iff (p : List UInt8) :
    hostLocal4 p = true ↔ ∃ net ∈ hostLocalNets4, InNet net.1 net.2 p := by
  unfold hostLocal4 hostLocalNets4
  simp [inNet_eight, inNet_sixteen]

theorem hostLocal_v4 (rip : UInt32) :
    TargetAddr.HostLocal (.v4 rip) ↔ hostLocal4 (bytes32 rip) = true := by
  rw [hostLocal4_iff]
  constructor
  · rintro ⟨net, listed, _, inside⟩
    exact ⟨net, listed, inside⟩
  · rintro ⟨net, listed, inside⟩
    have four : ∀ net ∈ hostLocalNets4, 4 = net.1.length := by decide
    exact ⟨net, listed, four net listed, inside⟩

theorem hostLocal_v6 (size : p.length = 16) : TargetAddr.HostLocal (.v6 p) ↔
      p = List.replicate 15 0 ++ [1] ∨ p = List.replicate 16 0 ∨
        (byteAt p 0 = 0xfe ∧ byteAt p 1 &&& 0xc0 = 0x80) ∨
        (p.take 12 = mappedHead ∧ hostLocal4 (p.drop 12) = true) := by
  have sixteen : ∀ net ∈ hostLocalNets6, 16 = net.1.length := by decide
  have whole (net : List UInt8) (size' : net.length = 16) : InNet net 128 p ↔ p = net := by
    rw [← inNet_host (size.trans size'.symm), size']
  have mapped (net : List UInt8) (len : Nat) :
      InNet (mappedHead ++ net) (96 + len) p ↔ p.take 12 = mappedHead ∧ InNet net len (p.drop 12) :=
    inNet_append (show mappedHead.length ≤ p.length by rw [size]; decide)
  have unsized : TargetAddr.HostLocal (.v6 p) ↔ ∃ net ∈ hostLocalNets6, InNet net.1 net.2 p := by
    constructor
    · rintro ⟨net, listed, _, inside⟩
      exact ⟨net, listed, inside⟩
    · rintro ⟨net, listed, inside⟩
      exact ⟨net, listed, size.trans (sixteen net listed), inside⟩
  rw [unsized, hostLocal4_iff]
  unfold hostLocalNets6
  constructor
  · rintro ⟨net, listed, inside⟩
    rcases List.mem_append.mp listed with plain | form
    · simp only [List.mem_cons, List.not_mem_nil, or_false] at plain
      rcases plain with rfl | rfl | rfl
      · exact .inr (.inl ((whole _ rfl).mp inside))
      · exact .inl ((whole _ rfl).mp inside)
      · exact .inr (.inr (.inl (inNet_linkLocal.mp inside)))
    · obtain ⟨net', listed', rfl⟩ := List.mem_map.mp form
      obtain ⟨head, tail⟩ := (mapped _ _).mp inside
      exact .inr (.inr (.inr ⟨head, net', listed', tail⟩))
  · rintro (rfl | rfl | linkLocal | ⟨head, net, listed, inside⟩)
    · exact ⟨(List.replicate 15 0 ++ [1], 128), by decide, (whole _ rfl).mpr rfl⟩
    · exact ⟨(List.replicate 16 0, 128), by decide, (whole _ rfl).mpr rfl⟩
    · exact ⟨([0xfe, 0x80] ++ List.replicate 14 0, 10), by decide, inNet_linkLocal.mpr linkLocal⟩
    · refine ⟨(mappedHead ++ net.1, 96 + net.2), ?_, (mapped _ _).mpr ⟨head, inside⟩⟩
      exact List.mem_append_right _ (List.mem_map_of_mem listed)

theorem rpTargetBlocked_v4 (rip : UInt32) :
    rpTargetBlocked true 4 (bytes32 rip) = true ↔ TargetAddr.HostLocal (.v4 rip) := by
  rw [hostLocal_v4]
  rfl

theorem rpTargetBlocked_v6 (size : p.length = 16) :
    rpTargetBlocked true 6 p = true ↔ TargetAddr.HostLocal (.v6 p) := by
  rw [hostLocal_v6 size]
  have tail : hostLocal4 (p.drop 12) = true ↔
      byteAt p 12 = 0 ∨ byteAt p 12 = 127 ∨ (byteAt p 12 = 169 ∧ byteAt p 13 = 254) := by
    rw [hostLocal4, byteAt_drop, byteAt_drop, decide_eq_true_iff]
  rw [tail]
  unfold rpTargetBlocked mappedHead
  rw [List.take_of_length_le (by omega : p.length ≤ 16)]
  rw [if_neg (by decide), if_neg (by decide), if_pos rfl]
  grind

def socksGuard (cfg : SocksCfg) (f : Flow) : Bool := !cfg.ssrfOff && !socksPeerIsLoopback f

theorem socksTargetBlocked_eq (cfg : SocksCfg) (f : Flow) (addr : TargetAddr) :
    socksTargetBlocked cfg f addr =
      (RpAddr.ip addr).blocked (socksGuard cfg f) := by
  have tail (p : List UInt8) : hostLocal4 (p.drop 12) =
      (byteAt p 12 = 0 ∨ byteAt p 12 = 127 ∨ (byteAt p 12 = 169 ∧ byteAt p 13 = 254) : Bool) := by
    rw [hostLocal4, byteAt_drop, byteAt_drop]
  unfold socksTargetBlocked RpAddr.blocked rpTargetBlocked socksGuard
  by_cases off : cfg.ssrfOff = true ∨ socksPeerIsLoopback f = true
  · have unguarded : (!cfg.ssrfOff && !socksPeerIsLoopback f) = false := by
      rcases off with env | peer
      · rw [env]
        rfl
      · rw [peer, Bool.not_true, Bool.and_false]
    rw [if_pos off, unguarded]
    cases addr <;> rfl
  · have guarded : (!cfg.ssrfOff && !socksPeerIsLoopback f) = true := by
      rw [Bool.eq_false_iff.mpr (fun env => off (Or.inl env)),
        Bool.eq_false_iff.mpr (fun peer => off (Or.inr peer))]
      rfl
    rw [if_neg off, guarded]
    cases addr with
    | v4 rip => rfl
    | v6 p =>
      dsimp only
      rw [tail]
      rfl

theorem TargetAddr.HostLocal.blocked {addr : TargetAddr} (hostLocal : TargetAddr.HostLocal addr) :
    (RpAddr.ip addr).blocked true = true := by
  cases addr with
  | v4 rip => exact (rpTargetBlocked_v4 rip).mpr hostLocal
  | v6 p =>
    obtain ⟨net, listed, size, inside⟩ := hostLocal
    have sixteen : ∀ net ∈ hostLocalNets6, net.1.length = 16 := by decide
    exact (rpTargetBlocked_v6 (size.trans (sixteen net listed))).mpr ⟨net, listed, size, inside⟩

variable {guard : Bool}

theorem rpCandidate_connects {st : RpLoop} (addr : RpAddr) (outcome : RpTry)
    (passed : ∀ addr ∈ st.connects, addr.blocked guard = false) :
    ∀ tried ∈ (rpCandidate guard st addr outcome).connects, tried.blocked guard = false := by
  unfold rpCandidate
  by_cases blocked : addr.blocked guard = true
  · rw [if_pos blocked]
    exact passed
  · have passed' : ∀ tried ∈ st.connects ++ [addr], tried.blocked guard = false := by
      intro tried listed
      rcases List.mem_append.mp listed with earlier | here
      · exact passed tried earlier
      · rw [List.mem_singleton.mp here]
        exact Bool.eq_false_iff.mpr blocked
    rw [if_neg blocked]
    cases outcome with
    | noSocket => exact passed
    | _ => exact passed'

theorem rpCandidates_connects {st : RpLoop} (candidates : List (RpAddr × RpTry))
    (passed : ∀ addr ∈ st.connects, addr.blocked guard = false) :
    ∀ addr ∈ (rpCandidates guard st candidates).connects, addr.blocked guard = false := by
  induction candidates generalizing st with
  | nil => exact passed
  | cons candidate rest ih =>
    have next := rpCandidate_connects candidate.1 candidate.2 passed
    unfold rpCandidates
    dsimp only
    split
    · exact next
    · exact ih next

theorem rpConnectLiteral_connects (addr : TargetAddr) (port : UInt16) (outcome : RpTry) :
    ∀ tried ∈ (rpConnectLiteral addr port outcome).connects, tried = .ip addr := by
  cases outcome <;> simp [rpConnectLiteral]

theorem rpStart_literal {t : PpTarget} {addr : TargetAddr} {port : UInt16}
    (start : rpStart guard t = some (.openTcpConn addr port)) :
    (RpAddr.ip addr).blocked guard = false := by
  unfold rpStart at start
  split at start
  · split at start
    · cases start
    · rename_i passed
      obtain ⟨rfl, rfl⟩ := Dispatch.openTcpConn.inj (Option.some.inj start)
      show rpTargetBlocked guard 4 (bytes32 t.rip) = false
      rw [PpTarget.rip, bytes32_be32]
      exact Bool.eq_false_iff.mpr passed
  · split at start
    · cases start
    · rename_i passed
      obtain ⟨rfl, rfl⟩ := Dispatch.openTcpConn.inj (Option.some.inj start)
      exact Bool.eq_false_iff.mpr passed
  · cases start

theorem rpConnectTarget_connects (guard : Bool) (t : PpTarget) (literal : RpTry)
    (lookup : RpLookup) :
    ∀ addr ∈ (rpConnectTarget guard t literal lookup).connects, addr.blocked guard = false := by
  intro addr tried
  unfold rpConnectTarget at tried
  split at tried
  · cases tried
  · rename_i start
    rw [rpConnectLiteral_connects _ _ _ addr tried]
    exact rpStart_literal start
  · cases lookup with
    | capped => cases tried
    | failed => cases tried
    | found candidates =>
      have none_yet : ∀ addr ∈ (RpLoop.mk [] none false false 5).connects,
          addr.blocked guard = false := nofun
      have passed := rpCandidates_connects candidates none_yet
      dsimp only at tried
      split at tried
      · exact passed addr tried
      · exact passed addr tried

/-- The relay starts what the gate passes, but no lookup beyond the resolver cap. -/
theorem rpConnectTarget_started (guard : Bool) (t : PpTarget) (literal : RpTry)
    (lookup : RpLookup) :
    (rpConnectTarget guard t literal lookup).started =
      if t.af = .domain ∧ lookup = .capped then none else rpStart guard t := by
  unfold rpConnectTarget
  cases family : t.af with
  | domain =>
    have start : rpStart guard t = some (.spawnDns (cString t.host) t.port) := by
      rw [rpStart, family]
    rw [start]
    cases lookup with
    | capped => rfl
    | failed => rfl
    | found candidates =>
      dsimp only
      split <;> rfl
  | _ =>
    rw [if_neg (by rintro ⟨wrong, -⟩; cases wrong)]
    cases start : rpStart guard t with
    | none => rfl
    | some made =>
      cases made with
      | openTcpConn addr port => cases literal <;> rfl
      | spawnDns host port =>
        rw [rpStart, family] at start
        dsimp only at start
        split at start <;> cases start

def flowStart (cfg : SocksCfg) (guard : Bool) (t : PpTarget) : Option Dispatch :=
  if t.af = .v6 ∧ cfg.ipv6 = false then none else rpStart guard t

theorem flowStartTarget_start (cfg : SocksCfg) (now : UInt64) (f : Flow) (t : PpTarget) :
    (flowStartTarget cfg now f t).2 = flowStart cfg (socksGuard cfg f) t := by
  unfold flowStartTarget flowStart rpStart
  cases family : t.af with
  | v4 =>
    have same : socksTargetBlocked cfg { f with targetAf := .v4 } (.v4 t.rip) =
        rpTargetBlocked (socksGuard cfg f) 4 t.ip4 := by
      rw [socksTargetBlocked_eq]
      show rpTargetBlocked (socksGuard cfg f) 4 (bytes32 t.rip) = _
      rw [PpTarget.rip, bytes32_be32]
      rfl
    have family4 : ¬ (PpAf.v4 = PpAf.v6 ∧ cfg.ipv6 = false) := fun both => nomatch both.1
    rw [if_neg family4]
    dsimp only
    rw [flowOpenGated, same]
    split <;> rfl
  | v6 =>
    have same : socksTargetBlocked cfg { f with targetAf := .v6 } (.v6 t.ip6) =
        rpTargetBlocked (socksGuard cfg f) 6 t.ip6 := socksTargetBlocked_eq _ _ _
    dsimp only
    cases relayed : cfg.ipv6 with
    | false => rfl
    | true =>
      have on : ¬ (PpAf.v6 = PpAf.v6 ∧ true = false) := fun both => nomatch both.2
      rw [if_neg on, if_neg (not_not.mpr rfl), flowOpenGated, same]
      split <;> rfl
  | domain => rfl

end Iwan
