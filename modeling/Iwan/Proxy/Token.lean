import Iwan.Proxy.HttpPlanes

/- A proxy with a token serves a client that presents it, and nobody else. -/
namespace Iwan

open BigEndian Incremental

def validateTokenLen (token : List UInt8) : Bool := token ≠ [] ∧ token.length ≤ 255

/-- A token that validate_token_len passes. -/
structure SocksToken where
  bytes : List UInt8
  valid : validateTokenLen bytes = true

theorem SocksToken.bounds (token : SocksToken) :
    token.bytes ≠ [] ∧ token.bytes.length ≤ 255 := by
  have valid := token.valid
  unfold validateTokenLen at valid
  rwa [decide_eq_true_iff] at valid

theorem foldl_or_eq_zero (part : Nat → UInt32) (indices : List Nat) (start : UInt32) :
    indices.foldl (fun diff i => diff ||| part i) start = 0 ↔
      start = 0 ∧ ∀ i ∈ indices, part i = 0 := by
  induction indices generalizing start with
  | nil => simp
  | cons i rest ih =>
    rw [List.foldl_cons, ih, UInt32.or_eq_zero_iff, List.forall_mem_cons, and_assoc]

theorem length_xor_eq_zero {a b : Nat} (small : a ≤ 255) (small' : b ≤ 255) :
    UInt32.ofNat (a ^^^ b) = 0 ↔ a = b := by
  have fits : a ^^^ b < 2 ^ 8 := Nat.xor_lt_two_pow (by omega) (by omega)
  have size : (UInt32.ofNat (a ^^^ b)).toNat = a ^^^ b :=
    UInt32.toNat_ofNat_of_lt (Nat.lt_trans fits (by decide))
  rw [← UInt32.toNat_inj, size, UInt32.toNat_zero, Nat.xor_eq_zero_iff]

theorem byte_xor_eq_zero {x y : UInt8} : (x ^^^ y).toUInt32 = 0 ↔ x = y := by
  rw [← UInt8.xor_eq_zero_iff]
  exact UInt8.toUInt32_inj (b := 0)

theorem ppSocksAuthDiff_eq_zero {pass token : List UInt8} (short : pass.length ≤ 255)
    (short' : token.length ≤ 255) : ppSocksAuthDiff pass token = 0 ↔ pass = token := by
  rw [ppSocksAuthDiff, foldl_or_eq_zero, length_xor_eq_zero short short']
  constructor
  · rintro ⟨size, agree⟩
    apply List.ext_getElem size
    intro i inside inside'
    have at_byte := byte_xor_eq_zero.mp (agree i (List.mem_range.mpr (by omega)))
    rwa [byteAt, byteAt, List.getD_eq_getElem _ _ inside,
      List.getD_eq_getElem _ _ inside'] at at_byte
  · rintro rfl
    exact ⟨rfl, fun i _ => byte_xor_eq_zero.mpr rfl⟩

/-- A client presents the token and asks for a target. -/
def TokenStream (token : SocksToken) (t : PpTarget) (d : List UInt8) : Prop :=
  t.Requestable ∧ ∃ methods user payload, methods.length ≤ 255 ∧ 2 ∈ methods ∧
    user ≠ [] ∧ user.length ≤ 63 ∧
    d = greetingFrame methods ++ (authFrame user token.bytes ++ (connectFrame t ++ payload))

theorem ppSocksPickMethod_token (methods : List UInt8) :
    ppSocksPickMethod true (socksMethod true methods) = if 2 ∈ methods then 2 else 0xff := by
  unfold socksMethod
  by_cases offered : 2 ∈ methods
  · rw [if_pos offered]
    dsimp only
    rw [if_pos rfl, if_pos offered]
    rfl
  · rw [if_neg offered]
    dsimp only
    rw [if_pos rfl, if_neg offered]
    rfl

theorem socksTalk_token {token : SocksToken} {t : PpTarget} {d : List UInt8} :
    (socksTalk (some token.bytes) d).handed.map Prod.fst = some t ↔ TokenStream token t d := by
  obtain ⟨given, short⟩ := token.bounds
  rw [Option.map_eq_some_iff]
  constructor
  · rintro ⟨⟨_, payload⟩, handed, rfl⟩
    obtain ⟨requestable, opening, opened, rfl⟩ := socksTalk_handed.mp handed
    cases opened with
    | plain methods few chosen =>
      rw [Option.isSome_some, ppSocksPickMethod_token] at chosen
      split at chosen <;> cases chosen
    | auth methods user pass few chosen named fits present small ok =>
      rw [Option.isSome_some, ppSocksPickMethod_token] at chosen
      have offered : 2 ∈ methods := by
        by_contra absent
        rw [if_neg absent] at chosen
        cases chosen
      unfold ppSocksAuthOk at ok
      rw [decide_eq_true_iff, ppSocksAuthDiff_eq_zero small short] at ok
      subst ok
      refine ⟨requestable, methods, user, payload, few, offered, named, by omega, ?_⟩
      rw [List.append_assoc]
  · rintro ⟨requestable, methods, user, payload, few, offered, named, fits, rfl⟩
    refine ⟨(t, payload), socksTalk_handed.mpr ⟨requestable, _,
      .auth methods user token.bytes few ?_ named
      (by omega) given short ?_, (List.append_assoc _ _ _).symm⟩, rfl⟩
    · rw [Option.isSome_some, ppSocksPickMethod_token, if_pos offered]
    · unfold ppSocksAuthOk
      rw [decide_eq_true_iff, ppSocksAuthDiff_eq_zero short short]

theorem socksTalk_other {token : Option (List UInt8)} {d : List UInt8} (other : byteAt d 0 ≠ 5) :
    socksTalk token d = ⟨[], none⟩ := by
  have silent : ppSocksGreeting d token.isSome = none := by
    cases greeted : ppSocksGreeting d token.isSome with
    | none => rfl
    | some offered => exact absurd (ppSocksGreeting_judged greeted).1 other
  rw [socksTalk, silent]

theorem rpConnMain_token (token : List UInt8) (pton : InetPton) {src : Source UInt8}
    (flowing : src.Flowing) (fresh : src.taken = 0) :
    (rpConnMain (some token) pton src).handed.map Prod.fst =
      (socksTalk (some token) src.rest).handed.map Prod.fst := by
  by_cases version : byteAt src.rest 0 = 5
  · rw [← (rpConnMain_holds (some token) pton flowing fresh version).handed, Option.map_map]
    rfl
  · rw [socksTalk_other version]
    unfold rpConnMain
    by_cases empty : src.rest = []
    · rw [Source.recv_end empty flowing]
      rfl
    · obtain ⟨first, src', received, some_byte, _, _, _, head⟩ := first_recv flowing fresh empty
      rw [← head] at version
      rw [received]
      dsimp only
      rw [if_neg some_byte, if_neg version, if_pos (by exact rfl)]
      rfl

theorem fresh_token (cfg : SocksCfg) (pton : InetPton) {token : List UInt8}
    (configured : cfg.authToken = some token) (id : UInt64) (peerIp : UInt32) (born : UInt64)
    (d : List UInt8) :
    let final := ((handshakeMachine (startRecorded cfg) cfg pton).settle
      (Recorded.fresh id peerIp born).bare d).1
    let handed := (socksTalk (some token) d).handed.map Prod.fst
    final.targets = handed.toList ∧
    final.dispatched =
      (handed.bind (flowStart cfg (socksGuard cfg (Flow.accepted id peerIp born)))).toList := by
  have begun : (Recorded.fresh id peerIp born).bare.flow.phase = .greeting := rfl
  by_cases version : byteAt d 0 = 5
  · have ends : HandshakeEnds (startRecorded cfg) (Recorded.fresh id peerIp born).bare
        (socksTalk cfg.authToken d) ((handshakeMachine (startRecorded cfg) cfg pton).settle
          (Recorded.fresh id peerIp born).bare d) := settle_greeting begun ⟨rfl, rfl⟩ version
    rw [configured] at ends
    generalize socksTalk (some token) d = talk at ends ⊢
    cases ends with
    | alone replies _ _ targets dispatched => exact ⟨targets, dispatched⟩
    | handed replies t f _ _ peer _ targets dispatched =>
      refine ⟨targets, ?_⟩
      have guard : socksGuard cfg f = socksGuard cfg (Flow.accepted id peerIp born) := by
        unfold socksGuard socksPeerIsLoopback
        rw [peer]
        rfl
      rw [startRecorded_dispatch, guard] at dispatched
      exact dispatched
  · rw [socksTalk_other version]
    cases judged : greetingVerdict cfg.authToken d with
    | none =>
      rw [settle_of_silence begun judged]
      exact ⟨rfl, rfl⟩
    | some v =>
      have rejected : v = .noMethod := by
        have token_set : ¬ (byteAt d 0 ≠ 5 ∧ cfg.authToken = none) := by
          rw [configured]
          exact fun both => nomatch both.2
        by_cases short : d.length < 2
        · rw [greetingVerdict, if_pos short] at judged
          cases judged
        · rw [greetingVerdict, if_neg short, if_neg token_set, if_pos version] at judged
          exact (Option.some.inj judged).symm
      subst rejected
      rw [settle_of_last begun judged rfl]
      exact ⟨rfl, rfl⟩

/-- Both planes hand over the target of a stream that presents the token, and of no other, and
start it if their gates pass it. -/
theorem token_serves (token : SocksToken) (cfg : SocksCfg) (pton : InetPton)
    (configured : cfg.authToken = some token.bytes) (id : UInt64) (peerIp : UInt32)
    (born : UInt64) (pieces : List (UInt64 × List UInt8)) (src : Source UInt8)
    (flowing : src.Flowing) (fresh : src.taken = 0)
    (same : (pieces.map Prod.snd).flatten = src.rest)
    (guarded : Bool) (literal : RpTry) (lookup : RpLookup) :
    let relay := rpConnMain (some token.bytes) pton src
    let started := relay.handed.bind fun given =>
      (rpConnectTarget guarded given.1 literal lookup).started
    let flow := pieces.foldl (Recorded.feed (startRecorded cfg) cfg pton)
      (Recorded.fresh id peerIp born)
    let guard := socksGuard cfg (Flow.accepted id peerIp born)
    (∀ t, relay.handed.map Prod.fst = some t ↔ TokenStream token t src.rest) ∧
    flow.targets = (relay.handed.map Prod.fst).toList ∧
    (∀ started ∈ flow.dispatched,
      ∃ t, TokenStream token t src.rest ∧ flowStart cfg guard t = some started) ∧
    (∀ t, TokenStream token t src.rest → flow.dispatched = (flowStart cfg guard t).toList) ∧
    (∀ made ∈ started, ∃ t, TokenStream token t src.rest ∧ rpStart guarded t = some made) ∧
    ∀ t, TokenStream token t src.rest →
      started = if t.af = .domain ∧ lookup = .capped then none else rpStart guarded t := by
  intro relay started flow guard
  have relayed : relay.handed.map Prod.fst = _ := rpConnMain_token token.bytes pton flowing fresh
  have settled := congrArg Prod.fst
    (fresh_settles (startRecorded cfg) cfg pton id peerIp born pieces)
  rw [same] at settled
  have ends := fresh_token cfg pton configured id peerIp born src.rest
  dsimp only at ends
  rw [← settled] at ends
  obtain ⟨targets, dispatched⟩ := ends
  have starts : started = (relay.handed.map Prod.fst).bind fun t =>
      if t.af = .domain ∧ lookup = .capped then none else rpStart guarded t := by
    rw [Option.bind_map]
    exact Option.bind_congr fun given _ => rpConnectTarget_started guarded given.1 literal lookup
  refine ⟨fun t => relayed ▸ socksTalk_token, relayed ▸ targets, ?_, ?_, ?_, ?_⟩
  · intro started listed
    rw [show flow.dispatched = _ from dispatched, Option.mem_toList,
      Option.bind_eq_some_iff] at listed
    obtain ⟨t, handed, start⟩ := listed
    exact ⟨t, socksTalk_token.mp handed, start⟩
  · intro t served
    rw [show flow.dispatched = _ from dispatched, socksTalk_token.mpr served]
    rfl
  · intro made listed
    rw [starts, relayed] at listed
    obtain ⟨t, handed, start⟩ := Option.bind_eq_some_iff.mp listed
    refine ⟨t, socksTalk_token.mp handed, ?_⟩
    split at start
    · cases start
    · exact start
  · intro t served
    rw [starts, relayed, socksTalk_token.mpr served]
    rfl

def sampleToken : SocksToken := ⟨ascii "key", by decide +kernel⟩

def tokenRequest (t : PpTarget) : List UInt8 :=
  greetingFrame [2] ++ (authFrame (ascii "u") sampleToken.bytes ++ (connectFrame t ++ []))

/-- The request comes in two pieces, and both planes start it. -/
theorem token_serves_sample :
    let cfg : SocksCfg := ⟨some sampleToken.bytes, false, false⟩
    let pton : InetPton := ⟨fun _ => none, fun _ => none⟩
    let t : PpTarget := { PpTarget.zero with af := .v4, ip4 := [8, 8, 8, 8], port := 53 }
    let first := (tokenRequest t).take 7
    let second := (tokenRequest t).drop 7
    let start := Dispatch.openTcpConn (.v4 0x08080808) 53
    let relay := rpConnMain (some sampleToken.bytes) pton ⟨[first, second], 0⟩
    let flow := [(0, first), (1, second)].foldl (Recorded.feed (startRecorded cfg) cfg pton)
      (Recorded.fresh 1 0x0a000001 0)
    relay.handed.map Prod.fst = some t ∧ flow.targets = [t] ∧ flow.dispatched = [start] ∧
      relay.handed.bind (fun given => (rpConnectTarget true given.1 .connected .capped).started) =
        some start := by
  intro cfg pton t first second start relay flow
  have stream : (Source.mk [first, second] 0).rest = tokenRequest t := by
    show [first, second].flatten = tokenRequest t
    rw [List.flatten_cons, List.flatten_singleton, List.take_append_drop]
  have presents : TokenStream sampleToken t (Source.mk [first, second] 0).rest := by
    rw [stream]
    exact ⟨.v4 [8, 8, 8, 8] 53 rfl, [2], ascii "u", [], by decide, by decide, by decide +kernel,
      by decide +kernel, rfl⟩
  have serves := token_serves sampleToken cfg pton rfl 1 0x0a000001 0 [(0, first), (1, second)]
    ⟨[first, second], 0⟩ (by unfold Source.Flowing; decide +kernel) rfl rfl true .connected .capped
  obtain ⟨handed, targets, -, dispatched, -, started⟩ := serves
  have given := (handed t).mpr presents
  refine ⟨given, targets.trans ?_, (dispatched t presents).trans ?_,
    (started t presents).trans ?_⟩
  · rw [given]
    rfl
  · decide +kernel
  · decide +kernel

/-- The lwIP proxy does not relay an IPv6 literal by default. -/
theorem token_not_served :
    let cfg : SocksCfg := ⟨some sampleToken.bytes, false, false⟩
    let pton : InetPton := ⟨fun _ => none, fun _ => none⟩
    let t : PpTarget := { PpTarget.zero with af := .v6, ip6 := List.replicate 16 1, port := 53 }
    let r := (Recorded.fresh 1 0x0a000001 0).feed (startRecorded cfg) cfg pton (0, tokenRequest t)
    TokenStream sampleToken t (tokenRequest t) ∧ r.dispatched = [] ∧
      r.flow.output = [5, 2] ++ [1, 0] ++ socksReplyFrame 8 0 0 := by
  refine ⟨⟨.v6 (List.replicate 16 1) 53 rfl, [2], ascii "u", [], ?_⟩, by decide +kernel⟩
  exact ⟨by decide, by decide, by decide +kernel, by decide +kernel, rfl⟩

end Iwan
