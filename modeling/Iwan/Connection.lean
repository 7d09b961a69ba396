import Iwan.Client.Addresses
import Iwan.Handshake
import Iwan.Server.Steward
import Iwan.Tunnel

/- The life of a connection: from its OPEN on both ends hold one session, until it is wiped. -/
namespace Iwan

/-- The address command that failed. -/
inductive AddrError where
  | tun
  | gateway

/-- The addresses a client takes from its acknowledgement (cli_common.c). -/
def authResultAddrs (res : AuthResult) : Except AddrError (UInt32 × UInt32) :=
  match s2ip4 res.tun with
  | none => .error .tun
  | some tun =>
    match s2ip4 res.gw with
    | none => .error .gateway
    | some gw => .ok (ip4U32 tun, ip4U32 gw)

theorem authResultAddrs_announced (s : Session) (ctx : ServerCtx) (mtu : UInt16) :
    authResultAddrs (s.announced ctx mtu) = .ok (ip4U32 s.ip, ip4U32 ctx.serverIp) := by
  have tun : s2ip4 (s.announced ctx mtu).tun = some s.ip := s2ip4_eq_some.mpr rfl
  have gw : s2ip4 (s.announced ctx mtu).gw = some ctx.serverIp := s2ip4_eq_some.mpr rfl
  simp only [authResultAddrs, tun, gw]

section

variable {crypto : Crypto} {machine : Machine} {users : List ServerUser} {w : World}
  {u : ServerUser} {mtu : UInt16} {enc : UInt8} {nonce : UInt32} {raw : List UInt8} {i : Slot}

/-- A granted OPEN is acknowledged, and its client learns of the session in the slot. -/
theorem handleUdp_announced (inv : TableInv w.ctx)
    (listed : users.find? (fun v => v.name == u.name) = some u)
    (built : buildOpen crypto u.name (encryptPassword crypto u.pass u.name) mtu enc nonce =
      some raw)
    (peer : SockaddrIn) (env : UdpEnv) {w' : World} {fx : List Effect}
    (call : handleUdp crypto machine users w ⟨raw, peer⟩ env = (w', fx))
    (opened : .install i ∈ fx) :
    let s := w'.ctx.sess i
    ∃ ack, .udpSend peer ack ∈ fx ∧ s.valid = true ∧
      s.xorKey = xorKeyOf (sessionKey crypto u.name u.pass) ∧
      ∃ mtu, parseAck crypto ack nonce = .ok (s.announced w.ctx mtu) := by
  obtain ⟨raw', built', read⟩ := openRead_buildOpen crypto u
    (encryptPassword crypto u.pass u.name) mtu enc nonce
  obtain rfl := Option.some.inj (built'.symm.trans built)
  have typ : FrameType.ofCode (hdrTyp raw') = some .ptOpen := by
    unfold buildOpen at built
    split_ifs at built
    cases built
    rfl
  have step := handleUdp_step crypto machine users w ⟨raw', peer⟩ env inv
  rw [call] at step
  cases step with
  | dropped rate limits => cases opened
  | data typ' isData named w' fx step =>
    cases typ.symm.trans named
    simp at isData
  | close named w' fx step => cases typ.symm.trans named
  | keepalive typ' isProbe named rate limits w' fx step =>
    cases typ.symm.trans named
    simp at isProbe
  | opened named rate limits ctx fx step =>
    cases step with
    | silent unread => cases opened
    | refused reason => cases List.mem_singleton.mp opened
    | fresh a owner slot ipu granted free newUser narrow probed =>
      obtain rfl := Except.ok.inj (granted.read.symm.trans read)
      obtain rfl := Option.some.inj (granted.listed.symm.trans listed)
      obtain rfl : i = slot := by simpa using opened
      refine ⟨_, List.mem_cons_of_mem _ List.mem_cons_self, ?_⟩
      rw [install_self]
      exact ⟨rfl, rfl, _, parseAck_granted crypto w.ctx peer env.clock env.draws _ _ _ mtu enc
        nonce _ ipu⟩
    | reopened a owner slot granted live sameUser here =>
      obtain rfl := Except.ok.inj (granted.read.symm.trans read)
      obtain rfl := Option.some.inj (granted.listed.symm.trans listed)
      obtain rfl : i = slot := by simpa using opened
      refine ⟨_, List.mem_cons_of_mem _ (List.mem_cons_of_mem _ List.mem_cons_self), ?_⟩
      rw [install_self]
      exact ⟨rfl, rfl, _, parseAck_granted crypto w.ctx peer env.clock env.draws _ _ _ mtu enc
        nonce _ _⟩

theorem client_of_identity {s t : Session} (same : s.identity = t.identity) :
    s.client = t.client := by
  simp only [Session.identity, SessionIdentity.mk.injEq] at same
  simp only [Session.client, same]

theorem passed_builds {client : Machine} {env : UdpEnv} (inv : TableInv w.ctx)
    (live : (w.ctx.sess i).valid = true) {sender : Sender} {pkt frame : List UInt8}
    (builds : Builds client (w.ctx.sess i).client pkt frame sender)
    (readable : sender.Readable (w.ctx.sess i).client pkt)
    (idle : ¬ Throttled w.ctx (w.ctx.sess i) env.clock.entry) (out : List UInt8) :
    Passed (handleUdp crypto machine users w ⟨frame, (w.ctx.sess i).peer⟩ env).2 out ↔
      out = pkt ∧ innerAccepted w.ctx (ip4U32 (w.ctx.sess i).ip) pkt = true := by
  have shared := (w.ctx.sess i).client_shared
  have shape := builds.frame_eq
  rw [shared.dataHdr] at shape
  have payload := (dataPayload_builds machine shared builds).mpr readable
  rw [handleUdp_peer i inv live (w.ctx.sess i).frameType (w.ctx.sess i).frameType_isData
    ((FrameType.ofCode_eq_some _ _).mpr (by rw [shape, hdrTyp_pktHdr]))
    (by rw [shape, List.length_append]; exact Nat.le_add_right _ _)
    (by rw [shape, hdrSid_pktHdr]) (by rw [shape, hdrTok_pktHdr]) rfl idle]
  have writes : Passed (driveWrites machine w (w.ctx.sess i) (w.ctx.sess i).frameType
      ⟨frame, (w.ctx.sess i).peer⟩ env).1 out ↔ _ := driveWrites_passed _ _ out
  rw [payload, Option.some.injEq] at writes
  simp only [Passed, List.mem_cons, reduceCtorEq, false_or] at writes ⊢
  rw [writes, eq_comm (a := pkt)]
  constructor <;> rintro ⟨rfl, accepted⟩ <;> exact ⟨rfl, accepted⟩

end

/-- From a granted OPEN until the slot is wiped, whatever else arrives, the client's session is the
one in the slot, and what the client sends from the session's peer reaches the gate as it was. -/
theorem serverRun_connected (crypto : Crypto) (server client : Machine) (users : List ServerUser)
    (w : World) (boot : Booted w.ctx) (events : List Event) (u : ServerUser)
    (listed : users.find? (fun v => v.name == u.name) = some u) (mtu : UInt16) (enc : UInt8)
    (nonce : UInt32) (raw : List UInt8)
    (built : buildOpen crypto u.name (encryptPassword crypto u.pass u.name) mtu enc nonce =
      some raw)
    (peer : SockaddrIn) (env : UdpEnv) (i : Slot) (rest : List Event) :
    let after := serverStep crypto server users (serverRun crypto server users w events)
      (.udp ⟨raw, peer⟩ env)
    let now := serverRun crypto server users after.1 rest
    let s := now.ctx.sess i
    .install i ∈ after.2 → .wipe i ∉ serverTrace crypto server users after.1 rest →
    ∃ ack res inner gw, .udpSend peer ack ∈ after.2 ∧ parseAck crypto ack nonce = .ok res ∧
      authResultAddrs res = .ok (inner, gw) ∧
      let c := res.session (sessionKey crypto u.name u.pass) inner
      s.valid = true ∧ c = s.client ∧ ∀ sender pkt frame, Builds client c pkt frame sender →
        sender.Readable c pkt → ∀ later : UdpEnv, ¬ Throttled now.ctx s later.clock.entry → ∀ out,
          Passed (handleUdp crypto server users now ⟨frame, s.peer⟩ later).2 out ↔
            out = pkt ∧ innerAccepted now.ctx inner pkt = true := by
  intro after now s opened kept
  have before : TableInv (serverRun crypto server users w events).ctx :=
    serverRun_tableInv w events boot.tableInv
  have opening : TableInv after.1.ctx := serverStep_tableInv _ _ before
  have table : TableInv now.ctx := serverRun_tableInv after.1 rest opening
  have call : handleUdp crypto server users _ ⟨raw, peer⟩ env = (after.1, after.2) := rfl
  obtain ⟨ack, sent, live, key, mtu', read⟩ :=
    handleUdp_announced before listed built peer env call opened
  have identity : s.identity = (after.1.ctx.sess i).identity :=
    serverRun_identity i after.1 rest opening live kept
  refine ⟨ack, _, _, _, sent, read, authResultAddrs_announced _ _ _, ?_⟩
  intro c
  have same : c = s.client := by
    rw [client_of_identity identity]
    simp only [c, AuthResult.session, Session.announced, Session.client, ← key, after]
  have live' : s.valid = true := (congrArg SessionIdentity.valid identity).trans live
  have address : (after.1.ctx.sess i).ip = s.ip := (congrArg SessionIdentity.ip identity).symm
  rw [same, address]
  exact ⟨live', rfl, fun _ _ _ builds readable _ idle out =>
    passed_builds table live' builds readable idle out⟩

/-- Between the OPEN and the data frame two other users connect and a purge goes by. -/
def sampleLater : List Event := sampleOpens.drop 1 ++ [.purge 6000]

def firstUser : ServerUser := sampleUser 0x61 0x70 sampleName_ne samplePass_ne

theorem serverRun_connected_sample :
    let after := serverStep sampleCrypto sampleMachine sampleUsers
      (serverRun sampleCrypto sampleMachine sampleUsers
        (sampleWorld 0x0A000002 0x0A0000FE 0x0A000002) [.purge 1000])
      (.udp ⟨sampleOpen firstUser 0, ⟨0x01010101, 4000⟩⟩ (sampleEnv 5000 0x01020304 (by decide)))
    let now := serverRun sampleCrypto sampleMachine sampleUsers after.1 sampleLater
    .install 0 ∈ after.2 ∧
      .wipe 0 ∉ serverTrace sampleCrypto sampleMachine sampleUsers after.1 sampleLater ∧
      Passed (handleUdp sampleCrypto sampleMachine sampleUsers now
        ⟨bridgeFrame, (now.ctx.sess 0).peer⟩ (sampleEnv 6000 1 (by decide))).2
          (samplePacket ⟨8, 8, 8, 8⟩) := by
  dsimp only
  refine ⟨by decide +kernel, by decide +kernel, ?_⟩
  obtain ⟨raw, built, _⟩ := openRead_buildOpen sampleCrypto firstUser
    (encryptPassword sampleCrypto firstUser.pass firstUser.name) 1400 0 7
  have sent : buildOpen sampleCrypto firstUser.name
      (encryptPassword sampleCrypto firstUser.pass firstUser.name) 1400 0 7 =
        some (sampleOpen firstUser 0) := by
    rw [sampleOpen, built, Option.getD_some]
  obtain ⟨_, res, inner, _, _, _, _, _, client, passes⟩ :=
    serverRun_connected sampleCrypto sampleMachine sampleMachine sampleUsers _
      (sampleWorld_booted 0x0A000002 0x0A0000FE 0x0A000002) [.purge 1000] firstUser
      (List.find?_cons_of_pos (beq_self_eq_true firstUser.name)) 1400 0 7 (sampleOpen firstUser 0)
      sent ⟨0x01010101, 4000⟩ (sampleEnv 5000 0x01020304 (by decide)) 0 sampleLater
      (by decide +kernel) (by decide +kernel)
  have address : inner = _ := congrArg ClientSession.innerIp client
  refine (passes .bridge (samplePacket ⟨8, 8, 8, 8⟩) bridgeFrame ?_ (.inl (by decide))
    (sampleEnv 6000 1 (by decide)) ?_ _).mpr ⟨rfl, ?_⟩
  · rw [client]
    exact .bridge ⟨false, true, true⟩ (by decide +kernel)
  · unfold Throttled
    decide +kernel
  · rw [address]
    decide +kernel

section

variable {crypto : Crypto} {machine : Machine} {users : List ServerUser}

/-- A session active at `since` survives: no CLOSE with its token, no OPEN of its user with the
password, and no purge later than the idle timeout. -/
def Spares (crypto : Crypto) (users : List ServerUser) (s : SessionIdentity) (since : UInt64) :
    Event → Prop
  | .udp d _ =>
    ¬ (FrameType.ofCode (hdrTyp d.raw) = some .ptClose ∧ verifySig crypto d.raw = true ∧
      hdrSid d.raw = s.sid ∧ hdrTok d.raw = s.token) ∧
    ∀ a u, OpenGranted crypto users d.raw a u → a.user ≠ s.user
  | .purge now => now.toNat ≤ since.toNat + idleTimeoutMs.toNat

theorem Removal.not_spares {s : Session} {e : Event} {since : UInt64}
    (removal : Removal crypto users s e) (active : since ≤ s.lastActiveMs) :
    ¬ Spares crypto users s.identity since e := by
  cases removal with
  | reopened d env a u named granted user here => exact fun spares => spares.2 a u granted user.symm
  | closed d env cause =>
    exact fun spares => spares.1 ⟨cause.named, cause.signed, cause.sid, cause.tok⟩
  | expired now idle =>
    intro spares
    have := UInt64.le_iff_toNat_le.mp active
    simp only [Spares, Session.IdleAt] at spares idle
    omega

theorem StayOutcome.active {w : World} {i : Slot} {e : Event} {s : Session} {fx : List Effect}
    (stay : StayOutcome crypto w i e s fx) (stamped : Stamped e.start (w.ctx.sess i)) :
    (w.ctx.sess i).lastActiveMs ≤ s.lastActiveMs := by
  cases stay with
  | untouched e fx noCharge => exact UInt64.le_refl _
  | charged d env cause =>
    rw [tokBudgetCharge_frame]
    exact UInt64.le_refl _
  | driven d env til fx cause noCharge =>
    exact UInt64.le_trans stamped.active (UInt64.le_trans env.clock.entry_le_rate
      (UInt64.le_trans env.clock.rate_le_check env.clock.check_le_stamp))

theorem serverRun_spared (i : Slot) (s : SessionIdentity) (since now : UInt64) (w : World)
    (events : List Event) (inv : ClockedInv now w) (clocked : ServerClocked now events)
    (spared : ∀ e ∈ events, Spares crypto users s since e) (live : s.valid = true)
    (same : (w.ctx.sess i).identity = s) (active : since ≤ (w.ctx.sess i).lastActiveMs) :
    .wipe i ∉ serverTrace crypto machine users w events ∧
      since ≤ ((serverRun crypto machine users w events).ctx.sess i).lastActiveMs := by
  induction events generalizing now w with
  | nil => exact ⟨List.not_mem_nil, active⟩
  | cons e rest ih =>
    obtain ⟨after, clocked⟩ := clocked
    obtain ⟨first, others⟩ := List.forall_mem_cons.mp spared
    have valid : (w.ctx.sess i).valid = true := (congrArg SessionIdentity.valid same).trans live
    have stamped := (inv.stamped i).later after
    have outcome : SlotOutcome crypto users w i e _ (serverStep crypto machine users w e).2 :=
      serverStep_slot w e inv.table i
    have noWipe : .wipe i ∉ (serverStep crypto machine users w e).2 := fun wipes =>
      (outcome.removal stamped wipes valid).not_spares active (same ▸ first)
    obtain ⟨stay, _⟩ := outcome.stays valid noWipe
    rw [serverTrace, Trace.emitted_cons, List.mem_append, not_or]
    obtain ⟨later, kept⟩ := ih e.finish _ (serverStep_clockedInv now w e inv after) clocked others
      (stay.identity.trans same) (UInt64.le_trans active (stay.active stamped))
    exact ⟨⟨noWipe, later⟩, kept⟩

end

/-- Through any run that spares it a live session stays in its slot as it is, and the next purge
ends it exactly when its last accepted frame is longer ago than the idle timeout. -/
theorem serverRun_leased (crypto : Crypto) (machine : Machine) (users : List ServerUser)
    (w : World) (boot : Booted w.ctx) (start : UInt64) (events rest : List Event)
    (clocked : ServerClocked start (events ++ rest)) (i : Slot) :
    let before := serverRun crypto machine users w events
    let s := before.ctx.sess i
    let later := serverRun crypto machine users before rest
    s.valid = true → (∀ e ∈ rest, Spares crypto users s.identity s.lastActiveMs e) →
    .wipe i ∉ serverTrace crypto machine users before rest ∧
      (later.ctx.sess i).identity = s.identity ∧
      s.lastActiveMs ≤ (later.ctx.sess i).lastActiveMs ∧
      ∀ now, serverClock start (events ++ rest) ≤ now →
        (.wipe i ∈ (serverStep crypto machine users later (.purge now)).2 ↔
          (later.ctx.sess i).IdleAt now) := by
  intro before s later live spared
  obtain ⟨clockedBefore, clockedRest⟩ := (Trace.Clocked.append _ _ start events rest).mp clocked
  have inv : ClockedInv (serverClock start events) before :=
    serverRun_clockedInv start w events clockedBefore (boot.clockedInv start)
  obtain ⟨noWipe, active⟩ := serverRun_spared i s.identity s.lastActiveMs _ before rest inv
    clockedRest spared live rfl (UInt64.le_refl _)
  have identity := serverRun_identity i before rest inv.table live noWipe
  refine ⟨noWipe, identity, active, fun now after => ?_⟩
  have valid : (later.ctx.sess i).valid = true :=
    (congrArg SessionIdentity.valid identity).trans live
  have stamped : Stamped now (later.ctx.sess i) := by
    have clock : ClockedInv _ later := serverRun_clockedInv _ before rest clockedRest inv
    rw [serverClock, Trace.clockAfter_append] at after
    exact (clock.stamped i).later after
  have elapsed := UInt64.toNat_sub_of_le _ _ stamped.active
  have order := UInt64.le_iff_toNat_le.mp stamped.active
  change .wipe i ∈ (purgeExpired later.ctx now).2 ↔ _
  rw [purgeExpired, wipeWhere_effects]
  simp only [List.mem_map, List.mem_filter, List.mem_finRange, true_and, Bool.and_eq_true,
    decide_eq_true_eq, Effect.wipe.injEq, exists_eq_right, valid, UInt64.lt_iff_toNat_lt, elapsed,
    Session.IdleAt]
  omega

theorem serverRun_leased_sample :
    let later := serverRun sampleCrypto sampleMachine sampleUsers connected [.purge 125000]
    (connected.ctx.sess 0).valid = true ∧
      (later.ctx.sess 0).identity = (connected.ctx.sess 0).identity := by
  have live : (connected.ctx.sess 0).valid = true := by decide +kernel
  have stamp : (connected.ctx.sess 0).lastActiveMs = 5000 := by decide +kernel
  have clocked : ServerClocked 0 (connectEvents ++ [.purge 125000]) :=
    ⟨by decide, by decide, trivial⟩
  unfold connected at live stamp ⊢
  refine ⟨live, (serverRun_leased sampleCrypto sampleMachine sampleUsers _
    (sampleWorld_booted _ _ _) 0 connectEvents [.purge 125000] clocked 0 live
    fun e member => ?_).2.1⟩
  rw [List.mem_singleton.mp member, stamp, Spares]
  decide

end Iwan
