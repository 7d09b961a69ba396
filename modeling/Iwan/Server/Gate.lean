import Iwan.Server.Pool

/- The gate that a client's packet passes on its way to the TUN. -/
namespace Iwan

open BigEndian

def HostLocal (a : Ip4) : Prop := a.b0 = 127 ∨ a.b0 = 0 ∨ (a.b0 = 169 ∧ a.b1 = 254)

instance (a : Ip4) : Decidable (HostLocal a) := by
  unfold HostLocal
  infer_instance

def InTunnel (ctx : ServerCtx) (a : Ip4) : Prop :=
  a = ctx.serverIp ∨ ip4U32 a &&& ctx.subnetMask = ctx.subnetBase

instance (ctx : ServerCtx) (a : Ip4) : Decidable (InTunnel ctx a) := by
  unfold InTunnel
  infer_instance

def groups (gs : List UInt16) : List UInt8 := gs.flatMap bytes16

/-- The IPv6 addresses that spell an IPv4 address. -/
inductive Spells (d : Ip6) (a : Ip4) : Prop
  | mapped (same : d.toList = groups [0, 0, 0, 0, 0, 0xFFFF] ++ a.bytes)
  | nat64 (same : d.toList = groups [0x64, 0xFF9B, 0, 0, 0, 0] ++ a.bytes)
  | compatible (same : d.toList = groups [0, 0, 0, 0, 0, 0] ++ a.bytes)
  | translated (same : d.toList = groups [0, 0, 0, 0, 0xFFFF, 0] ++ a.bytes)
  | sixToFour (rest : List UInt8) (same : d.toList = groups [0x2002] ++ (a.bytes ++ rest))

def Reachable4 (ctx : ServerCtx) (a : Ip4) : Prop := HostLocal a → InTunnel ctx a

/-- An address that the server may be asked to reach. -/
structure Reachable6 (ctx : ServerCtx) (d : Ip6) : Prop where
  notLoopback : d.toList ≠ groups [0, 0, 0, 0, 0, 0, 0, 1]
  notLinkLocal : ¬ (byteAt d.toList 0 = 0xFE ∧ 0x80 ≤ byteAt d.toList 1 ∧ byteAt d.toList 1 ≤ 0xBF)
  spelled : ∀ a, Spells d a → Reachable4 ctx a

section

variable (ctx : ServerCtx)

theorem upInnerDstBlocked4_iff (a : Ip4) :
    upInnerDstBlocked4 (ip4U32 a) = true ↔ HostLocal a := by
  have loopback : (0x7F000000 : UInt32) = be32 127 0 0 0 := by decide
  have thisNet : (0x00000000 : UInt32) = be32 0 0 0 0 := by decide
  have linkLocal : (0xA9FE0000 : UInt32) = be32 169 254 0 0 := by decide
  simp only [upInnerDstBlocked4, ip4U32, Bool.or_eq_true, beq_iff_eq, HostLocal, or_assoc]
  rw [loopback, thisNet, linkLocal, be32_and_high8, be32_and_high8, be32_and_high16]

theorem upInnerDstInTunnel_iff (a : Ip4) :
    upInnerDstInTunnel ctx (ip4U32 a) = true ↔ ctx.subnetSet = true ∧ InTunnel ctx a := by
  unfold upInnerDstInTunnel InTunnel
  cases ctx.subnetSet with
  | false => simp only [Bool.not_false, ↓reduceIte, Bool.false_eq_true, false_and]
  | true =>
    simp only [Bool.not_true, Bool.false_eq_true, ↓reduceIte, beq_iff_eq, ip4U32_inj, true_and]
    split
    · rename_i own
      simp only [own, true_or]
    · rename_i other
      simp only [other, false_or, beq_iff_eq]

theorem gate4_iff (a : Ip4) :
    ((upInnerDstBlocked4 (ip4U32 a) && !upInnerDstInTunnel ctx (ip4U32 a)) = false →
      Reachable4 ctx a) ∧
    (ctx.subnetSet = true → Reachable4 ctx a →
      (upInnerDstBlocked4 (ip4U32 a) && !upInnerDstInTunnel ctx (ip4U32 a)) = false) := by
  have blocked := upInnerDstBlocked4_iff a
  have tunnel := upInnerDstInTunnel_iff ctx a
  constructor
  · intro passes range
    rw [blocked.mpr range, Bool.true_and, Bool.not_eq_false'] at passes
    exact (tunnel.mp passes).2
  · intro configured reachable
    cases range : upInnerDstBlocked4 (ip4U32 a) with
    | false => rfl
    | true =>
      rw [tunnel.mpr ⟨configured, reachable (blocked.mp range)⟩]
      rfl

theorem drop_byteAt (buf : List UInt8) (offset : Nat) (inside : offset < buf.length) :
    buf.drop offset = byteAt buf offset :: buf.drop (offset + 1) := by
  rw [List.drop_eq_getElem_cons inside, byteAt, List.getD_eq_getElem _ _ inside]

theorem drop_ip4At (buf : List UInt8) (offset : Nat) (inside : offset + 4 ≤ buf.length) :
    buf.drop offset = (ip4At buf offset).bytes ++ buf.drop (offset + 4) := by
  rw [drop_byteAt buf offset (by omega), drop_byteAt buf (offset + 1) (by omega),
    drop_byteAt buf (offset + 2) (by omega), drop_byteAt buf (offset + 3) (by omega)]
  rfl

theorem embeddedShift_iff (d : Ip6) (a : Ip4) :
    Spells d a ↔ ∃ shift, embeddedShift d.toList = some shift ∧ ip4At d.toList shift = a := by
  constructor
  · intro spelled
    cases spelled with
    | mapped same => exact ⟨12, by rw [same]; rfl, by rw [same]; rfl⟩
    | nat64 same => exact ⟨12, by rw [same]; rfl, by rw [same]; rfl⟩
    | compatible same => exact ⟨12, by rw [same]; rfl, by rw [same]; rfl⟩
    | translated same => exact ⟨12, by rw [same]; rfl, by rw [same]; rfl⟩
    | sixToFour rest same => exact ⟨2, by rw [same]; rfl, by rw [same]; rfl⟩
  · rintro ⟨shift, found, rfl⟩
    have width : d.toList.length = 16 := d.length_toList
    have tail : ∀ table, d.toList.take 12 = table →
        d.toList = table ++ (ip4At d.toList 12).bytes := by
      rintro table rfl
      have nothing : d.toList.drop (12 + 4) = [] := List.drop_of_length_le (by omega)
      have rest := drop_ip4At d.toList 12 (by omega)
      rw [nothing, List.append_nil] at rest
      rw [← rest, List.take_append_drop]
    unfold embeddedShift at found
    split_ifs at found with mapped nat64 compatible translated sixToFour <;>
      obtain rfl := Option.some.inj found
    · exact .mapped (tail _ mapped)
    · exact .nat64 (tail _ nat64)
    · exact .compatible (tail _ compatible)
    · exact .translated (tail _ translated)
    · apply Spells.sixToFour (d.toList.drop 6)
      rw [← drop_ip4At d.toList 2 (by omega)]
      have first := drop_byteAt d.toList 0 (by omega)
      rw [drop_byteAt d.toList 1 (by omega), sixToFour.1, sixToFour.2] at first
      exact first

private theorem linkLocal_byte (byte : UInt8) :
    byte &&& 0xC0 = 0x80 ↔ 0x80 ≤ byte ∧ byte ≤ 0xBF := by
  cases byte with
  | ofBitVec byte =>
    cases byte with
    | ofFin byte =>
      revert byte
      decide +kernel

theorem gate6_iff (d : Ip6) :
    (upInnerDstBlocked6 ctx d = false → Reachable6 ctx d) ∧
      (ctx.subnetSet = true → Reachable6 ctx d → upInnerDstBlocked6 ctx d = false) := by
  unfold upInnerDstBlocked6
  dsimp only
  split_ifs with loopback linkLocal
  · exact ⟨(nomatch ·), fun _ reachable => absurd loopback reachable.notLoopback⟩
  · refine ⟨(nomatch ·), fun _ reachable => ?_⟩
    rw [linkLocal_byte] at linkLocal
    exact absurd linkLocal reachable.notLinkLocal
  · rw [linkLocal_byte] at linkLocal
    cases embedded : embeddedShift d.toList with
    | none =>
      refine ⟨fun _ => ⟨loopback, linkLocal, fun a spelled => ?_⟩, fun _ _ => rfl⟩
      obtain ⟨shift, found, _⟩ := (embeddedShift_iff d a).mp spelled
      rw [embedded] at found
      cases found
    | some shift =>
      obtain ⟨sound, complete⟩ := gate4_iff ctx (ip4At d.toList shift)
      refine ⟨fun passes => ⟨loopback, linkLocal, fun a spelled => ?_⟩,
        fun configured reachable => complete configured (reachable.spelled _ ?_)⟩
      · obtain ⟨shift', found, rfl⟩ := (embeddedShift_iff d a).mp spelled
        obtain rfl := Option.some.inj (embedded.symm.trans found)
        exact sound passes
      · exact (embeddedShift_iff d _).mpr ⟨shift, embedded, rfl⟩

end

/-- A packet that a session may send. -/
inductive InnerOk (ctx : ServerCtx) (s : Session) (pkt : List UInt8) : Prop
  | ip4 (dst : Ip4) (sane : ipv4PktOk pkt = some (ip4U32 s.ip, ip4U32 dst))
      (reachable : Reachable4 ctx dst)
  | ip6 (src dst : Ip6) (sane : ip6PktOk pkt = some (src, dst))
      (own : src.toList = groups [0xFD00, 0, 0, 0, 0, 0] ++ s.ip.bytes)
      (reachable : Reachable6 ctx dst)

theorem ip6DeriveUla_toList (ip : Ip4) :
    (ip6DeriveUla (ip4U32 ip)).toList = groups [0xFD00, 0, 0, 0, 0, 0] ++ ip.bytes := by
  simp only [ip6DeriveUla, u32Ip4_ip4U32]
  rfl

theorem innerAccepted_iff (ctx : ServerCtx) (s : Session) (pkt : List UInt8) :
    (innerAccepted ctx (ip4U32 s.ip) pkt = true → InnerOk ctx s pkt) ∧
      (ctx.subnetSet = true → InnerOk ctx s pkt → innerAccepted ctx (ip4U32 s.ip) pkt = true) := by
  constructor
  · intro accepted
    unfold innerAccepted at accepted
    split_ifs at accepted with empty six
    · cases sane : ip6PktOk pkt with
      | none =>
        rw [sane] at accepted
        cases accepted
      | some pair =>
        obtain ⟨src, dst⟩ := pair
        simp only [sane, Bool.and_eq_true, beq_iff_eq, Bool.not_eq_true'] at accepted
        refine .ip6 src dst sane ?_ ((gate6_iff ctx dst).1 accepted.2)
        rw [accepted.1]
        exact ip6DeriveUla_toList s.ip
    · cases sane : ipv4PktOk pkt with
      | none =>
        rw [sane] at accepted
        cases accepted
      | some pair =>
        obtain ⟨src, dst⟩ := pair
        simp only [sane, Bool.and_eq_true, beq_iff_eq, Bool.not_eq_true'] at accepted
        obtain ⟨rfl, passes⟩ := accepted
        rw [← ip4U32_u32Ip4 dst] at sane passes
        exact .ip4 (u32Ip4 dst) sane ((gate4_iff ctx _).1 passes)
  · intro configured ok
    cases ok with
    | ip4 dst sane reachable =>
      obtain ⟨long, version, _, _⟩ := ipv4PktOk_some pkt _ _ sane
      have passes := (gate4_iff ctx dst).2 configured reachable
      have nonempty : pkt.length ≠ 0 := by omega
      have four : ipVersion pkt ≠ 6 := by
        rw [version]
        decide
      simp only [innerAccepted, nonempty, ↓reduceIte, four, sane, beq_self_eq_true, Bool.true_and,
        Bool.not_eq_true']
      exact passes
    | ip6 src dst sane own reachable =>
      obtain ⟨long, version, _, _⟩ := ip6PktOk_some pkt _ _ sane
      have passes := (gate6_iff ctx dst).2 configured reachable
      have nonempty : pkt.length ≠ 0 := by omega
      have source : src = ip6DeriveUla (ip4U32 s.ip) := by
        apply Vector.toList_inj.mp
        rw [own, ip6DeriveUla_toList]
      simp only [innerAccepted, nonempty, ↓reduceIte, version, sane, source, beq_self_eq_true,
        passes, Bool.not_false, Bool.and_self]

def Session.plain (s : Session) (raw : List UInt8) : List UInt8 :=
  if s.enc ≠ 0 then XorStream.stream s.xorKey.toList 0 (raw.drop iwanHdrLen)
  else raw.drop iwanHdrLen

def Passed (fx : List Effect) (pkt : List UInt8) : Prop :=
  (∃ pool, .tunWrite pool pkt ∈ fx) ∨ .echoMirror pkt ∈ fx

/-- A frame of the session that carries a packet it may send. -/
structure UplinkFrame (ctx : ServerCtx) (s : Session) (d : Datagram) (pkt : List UInt8) :
    Prop where
  live : s.valid = true
  sid : hdrSid d.raw = s.sid
  tok : hdrTok d.raw = s.token
  typ : hdrTyp d.raw = s.frameType.code
  payload : pkt = s.plain d.raw
  inner : InnerOk ctx s pkt

theorem dataPayload_iff (machine : Machine) (s : Session) (typ : FrameType)
    (raw pkt : List UInt8) :
    dataPayload machine s typ raw = some pkt ↔ typ = s.frameType ∧ pkt = s.plain raw := by
  unfold dataPayload Session.frameType Session.plain
  by_cases enc : s.enc ≠ 0
  · by_cases typed : typ = .ptDataEnc
    · simp only [enc, typed, ne_eq, not_true_eq_false, not_false_eq_true, ↓reduceIte, xorCrypt_key,
        Option.some.injEq, true_and, eq_comm]
    · simp only [enc, typed, ne_eq, not_false_eq_true, ↓reduceIte, reduceCtorEq, false_and]
  · by_cases typed : typ = .ptData
    · simp only [enc, typed, ne_eq, not_true_eq_false, ↓reduceIte, Option.some.injEq, true_and,
        eq_comm]
    · simp only [enc, typed, ne_eq, not_false_eq_true, ↓reduceIte, reduceCtorEq, false_and]

section

variable {crypto : Crypto} {machine : Machine} {users : List ServerUser} {w : World}
  {d : Datagram} {env : UdpEnv}

theorem handleUdp_data (typ : FrameType) (isData : typ = .ptData ∨ typ = .ptDataEnc)
    (named : FrameType.ofCode (hdrTyp d.raw) = some typ) (long : iwanHdrLen ≤ d.raw.length) :
    handleUdp crypto machine users w d env = handleData machine w typ d env := by
  have whole : ¬ d.raw.length < iwanHdrLen := Nat.not_lt.mpr long
  rcases isData with rfl | rfl <;>
    simp only [handleUdp, whole, ↓reduceIte, named, serverRateAllowControl, Bool.not_true,
      Bool.false_eq_true]

theorem tunWrites_passed (tunPool : Bool) (plain pkt : List UInt8) :
    Passed (tunWrites tunPool plain env).1 pkt ↔ pkt = plain := by
  unfold Passed tunWrites
  split_ifs <;> simp

theorem driveWrites_passed (s : Session) (typ : FrameType) (pkt : List UInt8) :
    Passed (driveWrites machine w s typ d env).1 pkt ↔
      dataPayload machine s typ d.raw = some pkt ∧
        innerAccepted w.ctx (ip4U32 s.ip) pkt = true := by
  have nothing : ¬ Passed [] pkt := by
    simp only [Passed, List.not_mem_nil, exists_false, or_self, not_false_eq_true]
  unfold driveWrites
  cases payload : dataPayload machine s typ d.raw with
  | none => simp only [nothing, reduceCtorEq, false_and]
  | some plain =>
    rw [Option.some.injEq]
    by_cases accepted : innerAccepted w.ctx (ip4U32 s.ip) plain = true
    · have same : pkt = plain ↔ plain = pkt ∧ innerAccepted w.ctx (ip4U32 s.ip) pkt = true := by
        constructor
        · rintro rfl
          exact ⟨rfl, accepted⟩
        · exact fun both => both.1.symm
      by_cases tun : 0 ≤ w.ctx.tunFd
      · simp only [accepted, ↓reduceIte, tun, tunWrites_passed, same]
      · simp only [accepted, ↓reduceIte, tun, Passed, List.mem_singleton, reduceCtorEq,
          exists_false, false_or, Effect.echoMirror.injEq, same]
    · simp only [accepted, Bool.false_eq_true, ↓reduceIte, nothing, false_iff, not_and]
      rintro rfl
      exact accepted

theorem UdpStep.passed {w' : World} {fx : List Effect}
    (step : UdpStep crypto machine users w d env w' fx) (pkt : List UInt8)
    (passed : Passed fx pkt) :
    ∃ i typ, FrameType.ofCode (hdrTyp d.raw) = some typ ∧
      findSession w.ctx (hdrSid d.raw) = some i ∧ (w.ctx.sess i).token = hdrTok d.raw ∧
      ((w.ctx.sess i).peer = d.peer ∨
        tokRebindAllowed (w.ctx.sess i) env.clock.entry = true) ∧
      (w'.ctx.sess i).peer = d.peer ∧
      Passed (driveWrites machine w (w.ctx.sess i) typ d env).1 pkt := by
  have quiet : ∀ fx : List Effect, (∀ e ∈ fx, e.isQuiet = true) → ¬ Passed fx pkt := by
    rintro fx still (⟨pool, written⟩ | mirrored)
    · cases still _ written
    · cases still _ mirrored
  cases step with
  | dropped rate limits => simp only [Passed, List.not_mem_nil, exists_false, or_self] at passed
  | opened named rate limits ctx fx step =>
    cases step <;> simp [Passed, openReject, sendReject] at passed
  | data typ isData named w' fx step =>
    cases step with
    | miss unknown => simp only [Passed, List.not_mem_nil, exists_false, or_self] at passed
    | overBudget i found foreign spent =>
      simp only [Passed, List.not_mem_nil, exists_false, or_self] at passed
    | driven i tested right idle gate =>
      refine ⟨i, typ, named, tested.found, right, gate, ?_, ?_⟩
      · rw [World.modify_ctx, modify_self]
        rfl
      · simpa only [Passed, List.mem_cons, reduceCtorEq, false_or] using passed
    | _ => simp [Passed] at passed
  | close named w' fx step => cases step <;> simp [Passed] at passed
  | keepalive typ isProbe named rate limits w' fx step =>
    cases step with
    | untouched fx still => exact absurd passed (quiet fx still)
    | touched i fx still signed found right gate => exact absurd passed (quiet fx still)

theorem Session.plain_length (s : Session) (raw : List UInt8) :
    (s.plain raw).length = raw.length - iwanHdrLen := by
  unfold Session.plain
  split
  · rw [XorStream.stream_length, List.length_drop]
  · rw [List.length_drop]

theorem handleUdp_peer (i : Slot) (inv : TableInv w.ctx) (live : (w.ctx.sess i).valid = true)
    (typ : FrameType) (isData : typ = .ptData ∨ typ = .ptDataEnc)
    (named : FrameType.ofCode (hdrTyp d.raw) = some typ) (long : iwanHdrLen ≤ d.raw.length)
    (sid : hdrSid d.raw = (w.ctx.sess i).sid) (tok : hdrTok d.raw = (w.ctx.sess i).token)
    (bound : (w.ctx.sess i).peer = d.peer)
    (idle : ¬ Throttled w.ctx (w.ctx.sess i) env.clock.entry) :
    handleUdp crypto machine users w d env =
      (w.modify i (fun s => s.driven d env.clock
          (driveWrites machine w (w.ctx.sess i) typ d env).2),
        .tokenCompare i true true :: (driveWrites machine w (w.ctx.sess i) typ d env).1) := by
  rw [handleUdp_data typ isData named long]
  have driven := handleData_drive machine w typ d env i
    ((findSession_iff inv _ i).mpr ⟨live, sid.symm⟩) tok.symm idle (Or.inl bound)
  rw [decide_eq_true bound] at driven
  exact driven

theorem handleUdp_peer_busy (i : Slot) (inv : TableInv w.ctx)
    (live : (w.ctx.sess i).valid = true) (typ : FrameType)
    (isData : typ = .ptData ∨ typ = .ptDataEnc)
    (named : FrameType.ofCode (hdrTyp d.raw) = some typ) (long : iwanHdrLen ≤ d.raw.length)
    (sid : hdrSid d.raw = (w.ctx.sess i).sid) (tok : hdrTok d.raw = (w.ctx.sess i).token)
    (bound : (w.ctx.sess i).peer = d.peer)
    (busy : Throttled w.ctx (w.ctx.sess i) env.clock.entry) :
    (handleUdp crypto machine users w d env).1.ctx = w.ctx ∧
      (handleUdp crypto machine users w d env).2 = [.tokenCompare i true true] := by
  have found : findSession w.ctx (hdrSid d.raw) = some i :=
    (findSession_iff inv _ i).mpr ⟨live, sid.symm⟩
  rw [handleUdp_data typ isData named long]
  have step := handleData_step machine w typ d env
  generalize (handleData machine w typ d env).1 = w' at step ⊢
  generalize (handleData machine w typ d env).2 = fx at step ⊢
  have here : ∀ j, findSession w.ctx (hdrSid d.raw) = some j → i = j :=
    fun j found' => Option.some.inj (found.symm.trans found')
  cases step with
  | miss unknown => cases unknown.symm.trans found
  | overBudget j found' foreign spent =>
    obtain rfl := here j found'
    exact absurd bound foreign
  | uncharged j tested bound' wrong rate limits =>
    obtain rfl := here j tested.found
    exact absurd tok.symm wrong
  | charged j tested wrong rate limits =>
    obtain rfl := here j tested.found
    exact absurd tok.symm wrong
  | throttled j tested right busy' =>
    obtain rfl := here j tested.found
    exact ⟨rfl, by rw [peerBound, decide_eq_true bound]⟩
  | held j tested right foreign gate =>
    obtain rfl := here j tested.found
    exact absurd bound foreign
  | driven j tested right idle gate =>
    obtain rfl := here j tested.found
    exact absurd busy idle

end

theorem InnerOk.length {ctx : ServerCtx} {s : Session} {pkt : List UInt8}
    (ok : InnerOk ctx s pkt) : 20 ≤ pkt.length := by
  cases ok with
  | ip4 dst sane reachable => exact (ipv4PktOk_some pkt _ _ sane).1
  | ip6 src dst sane own reachable =>
    have long := (ip6PktOk_some pkt _ _ sane).1
    omega

/-- In every reachable state: bytes that reach the TUN or the mirror are the payload of a frame of a
live session, from its peer, and pass the gate. -/
theorem handleUdp_gate (crypto : Crypto) (machine : Machine) (users : List ServerUser)
    (w : World) (boot : Booted w.ctx) (events : List Event) (d : Datagram) (env : UdpEnv) :
    let before := serverRun crypto machine users w events
    let after := handleUdp crypto machine users before d env
    (∀ pkt, Passed after.2 pkt → ∃ i, UplinkFrame before.ctx (before.ctx.sess i) d pkt ∧
      (after.1.ctx.sess i).peer = d.peer) ∧
    (w.ctx.subnetSet = true → ∀ i pkt, UplinkFrame before.ctx (before.ctx.sess i) d pkt →
      (before.ctx.sess i).peer = d.peer →
      ¬ Throttled before.ctx (before.ctx.sess i) env.clock.entry → Passed after.2 pkt) := by
  intro before after
  have inv : TableInv before.ctx := serverRun_tableInv w events boot.tableInv
  constructor
  · intro pkt passed
    have step := handleUdp_step crypto machine users before d env inv
    obtain ⟨i, typ, named, found, right, _, peer, written⟩ := step.passed pkt passed
    obtain ⟨live, sid⟩ := (findSession_iff inv _ i).mp found
    obtain ⟨payload, accepted⟩ := (driveWrites_passed _ typ pkt).mp written
    obtain ⟨rfl, same⟩ := (dataPayload_iff machine _ typ d.raw pkt).mp payload
    exact ⟨i, ⟨live, sid.symm, right.symm, (FrameType.ofCode_eq_some _ _).mp named, same,
      (innerAccepted_iff _ _ pkt).1 accepted⟩, peer⟩
  · intro configured i pkt frame bound idle
    have config := serverRun_config crypto machine users w events boot.tableInv
    have subnet : before.ctx.subnetSet = true :=
      (congrArg ServerConfig.subnetSet config).trans configured
    have long : iwanHdrLen ≤ d.raw.length := by
      have inner := frame.inner.length
      rw [frame.payload, Session.plain_length] at inner
      omega
    have accepted := (innerAccepted_iff _ _ pkt).2 subnet frame.inner
    have payload := (dataPayload_iff machine _ _ d.raw pkt).mpr ⟨rfl, frame.payload⟩
    have written : Passed (driveWrites machine before (before.ctx.sess i)
        (before.ctx.sess i).frameType d env).1 pkt :=
      (driveWrites_passed _ _ pkt).mpr ⟨payload, accepted⟩
    have handed : after = _ := handleUdp_peer i inv frame.live (before.ctx.sess i).frameType
      (before.ctx.sess i).frameType_isData ((FrameType.ofCode_eq_some _ _).mpr frame.typ) long
      frame.sid frame.tok bound idle
    rw [handed]
    simpa only [Passed, List.mem_cons, reduceCtorEq, false_or] using written

def connectEvents : List Event :=
  [sampleOpenEvent (sampleUser 0x61 0x70 sampleName_ne samplePass_ne) ⟨0x01010101, 4000⟩ 5000]

def connected : World :=
  serverRun sampleCrypto sampleMachine sampleUsers (sampleWorld 0x0A000002 0x0A0000FE 0x0A000002)
    connectEvents

def samplePacket (dst : Ip4) : List UInt8 :=
  [0x45, 0, 0, 20, 0, 0, 0, 0, 64, 17, 0, 0, 10, 0, 0, 2] ++ dst.bytes

def sampleData (tok : UInt32) (peer : SockaddrIn) : Datagram :=
  ⟨pktHdr .ptData 0 2 tok ++ samplePacket ⟨8, 8, 8, 8⟩, peer⟩

theorem handleUdp_gate_sample :
    UplinkFrame connected.ctx (connected.ctx.sess 0) (sampleData 0x01020304 ⟨0x01010101, 4000⟩)
        (samplePacket ⟨8, 8, 8, 8⟩) ∧
      Passed (handleUdp sampleCrypto sampleMachine sampleUsers connected
        (sampleData 0x01020304 ⟨0x01010101, 4000⟩) (sampleEnv 6000 1 (by decide))).2
        (samplePacket ⟨8, 8, 8, 8⟩) := by
  have inner : InnerOk connected.ctx (connected.ctx.sess 0) (samplePacket ⟨8, 8, 8, 8⟩) := by
    apply InnerOk.ip4 ⟨8, 8, 8, 8⟩ (by decide +kernel)
    exact fun range => absurd range (by decide)
  have frame : UplinkFrame connected.ctx (connected.ctx.sess 0)
      (sampleData 0x01020304 ⟨0x01010101, 4000⟩) (samplePacket ⟨8, 8, 8, 8⟩) :=
    ⟨by decide +kernel, by decide +kernel, by decide +kernel, by decide +kernel,
      by decide +kernel, inner⟩
  have bound : (connected.ctx.sess 0).peer = ⟨0x01010101, 4000⟩ := by decide +kernel
  have idle : ¬ Throttled connected.ctx (connected.ctx.sess 0) 6000 := by
    unfold Throttled
    decide +kernel
  refine ⟨frame, ?_⟩
  unfold connected at frame bound idle ⊢
  exact (handleUdp_gate sampleCrypto sampleMachine sampleUsers _ (sampleWorld_booted _ _ _)
    connectEvents _ _).2 rfl 0 _ frame bound idle

end Iwan
