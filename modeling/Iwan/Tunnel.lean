import Iwan.Client.Uplink
import Iwan.Server.Downlink
import Iwan.Server.Gate

/- The tunnel end to end. -/
namespace Iwan

def Session.client (s : Session) : ClientSession := ⟨s.sid, s.token, s.enc, s.xorKey, ip4U32 s.ip⟩

/-- A packet whose source is not the session's address. -/
structure ForeignSource (s : Session) (pkt : List UInt8) : Prop where
  ip4 : ∀ src dst, ipv4PktOk pkt = some (src, dst) → src ≠ ip4U32 s.ip
  ip6 : ∀ src dst, ip6PktOk pkt = some (src, dst) → src ≠ ip6DeriveUla (ip4U32 s.ip)

theorem ingressOk_of_routed (s : Session) (pkt : List UInt8) (routed : RoutedTo s pkt)
    (foreign : ForeignSource s pkt) : ingressOk (ip4U32 s.ip) pkt = true := by
  cases routed with
  | ip4 src sane =>
    have apart := foreign.ip4 _ _ sane
    obtain ⟨_, version, _, _⟩ := ipv4PktOk_some _ _ _ sane
    simp [ingressOk, version, sane, apart]
  | ip6 src sane =>
    have apart := foreign.ip6 _ _ sane
    obtain ⟨long, version, _, _⟩ := ip6PktOk_some _ _ _ sane
    simp [ingressOk, version, sane, apart, Nat.not_lt.mpr long]

section

variable (server : Machine) (s : Session) (pkt : List UInt8)

theorem downlink_hdr_length : (s.downlink server pkt).hdr.length = iwanHdrLen := rfl

theorem hdrSid_downlink : hdrSid (s.downlink server pkt).frame = s.sid :=
  hdrSid_pktHdr _ _ _ _ _

theorem hdrTok_downlink : hdrTok (s.downlink server pkt).frame = s.token :=
  hdrTok_pktHdr _ _ _ _ _

theorem downlink_length : (s.downlink server pkt).frame.length = iwanHdrLen + pkt.length := by
  have payload : (s.downlink server pkt).payload.length = pkt.length := by
    unfold Session.downlink
    split
    · exact xorCrypt_length server pkt s.xorKey
    · rfl
  rw [Downlink.frame, List.length_append, downlink_hdr_length, payload]

theorem openData_downlink (client : Machine) :
    openData client s.client s.frameType (s.downlink server pkt).frame = some pkt := by
  have payload : (s.downlink server pkt).frame.drop iwanHdrLen = (s.downlink server pkt).payload :=
    drop_pktHdr _ _ _ _ _
  unfold openData
  rw [payload]
  by_cases enc : s.enc = 0
  · simp [Session.frameType, Session.client, Session.downlink, enc]
  · simp [Session.frameType, Session.client, Session.downlink, enc]

theorem downlinkFrame_downlink (client : Machine) (routed : RoutedTo s pkt)
    (foreign : ForeignSource s pkt) :
    DownlinkFrame client s.client (s.downlink server pkt).frame pkt where
  sid := hdrSid_downlink server s pkt
  tok := hdrTok_downlink server s pkt
  payload := ⟨s.frameType, FrameType.ofCode_code _, s.frameType_isData,
    openData_downlink server s pkt client⟩
  ingress := ingressOk_of_routed s pkt routed foreign

end

section

variable (crypto : Crypto) (client : Machine)

def ProxyReceives (cfg : SocksConfig) (frame pkt : List UInt8) : Prop :=
  ∀ dns copy now,
    (vpnHandleDatagram crypto client dns cfg frame copy now).1 = { cfg with lastRx := now } ∧
      ((dns pkt = true ∧ (vpnHandleDatagram crypto client dns cfg frame copy now).2 =
          ([.dnsTryHandleResponse pkt], .release)) ∨
        ∃ handed : ClientEffect, handed.stackInput = some pkt ∧
          (vpnHandleDatagram crypto client dns cfg frame copy now).2 =
            ([.dnsTryHandleResponse pkt, handed], .taken))

def ThreadWrites (s : ClientSession) (frame pkt : List UInt8) : Prop :=
  ∀ staleMs st front back a, a.frame = frame →
    (Trace.final (udp2tunStep crypto client s staleMs) st front).stop = false →
    ∃ later, Trace.emitted (udp2tunStep crypto client s staleMs) st
        (front ++ .datagram a :: back) =
      Trace.emitted (udp2tunStep crypto client s staleMs) st front ++ .tunWrite pkt :: later

def ClientDrops (s : ClientSession) (frame : List UInt8) : Prop :=
  (hdrSid frame ≠ s.sid ∨ hdrTok frame ≠ s.token) ∧
    (∀ cfg : SocksConfig, cfg.session = s → ∀ dns copy now,
      vpnHandleDatagram crypto client dns cfg frame copy now = (cfg, [], .release)) ∧
    ∀ staleMs st a, a.frame = frame → st.stop = false →
      udp2tunStep crypto client s staleMs st (.datagram a) = ({ st with errPollN := 0 }, [])

theorem clientDrops_of_sid (s : ClientSession) (frame : List UInt8)
    (other : hdrSid frame ≠ s.sid) : ClientDrops crypto client s frame := by
  refine ⟨Or.inl other, ?_, ?_⟩
  · rintro cfg rfl dns copy now
    exact vpnHandleDatagram_foreign crypto client dns cfg frame copy now (Or.inl other)
  · rintro staleMs st a rfl running
    exact udp2tunStep_foreign crypto client s staleMs st a running (Or.inl other)

end

/-- The downlink: a frame goes out exactly for the packets routed to a live session, its client gets
the packet back, and all others drop it. -/
theorem tunPrepDownlink_delivered (crypto : Crypto) (server client : Machine) (ctx : ServerCtx)
    (sound : TableSound ctx) (outside : ServerOutside ctx) (pkt : TunPacket) :
    ((tunPrepDownlink server ctx pkt.bytes).isSome = true ↔
        ∃ i, (ctx.sess i).valid = true ∧ RoutedTo (ctx.sess i) pkt.bytes) ∧
      ∀ i, (ctx.sess i).valid = true → RoutedTo (ctx.sess i) pkt.bytes →
        ∃ down, tunPrepDownlink server ctx pkt.bytes = some down ∧
          handleTunDownlink server ctx pkt.bytes =
            [.udpSend (ctx.sess i).peer down.frame] ∧
          down.snap.peer = (ctx.sess i).peer ∧ down.hdr.length = 8 ∧
          hdrSid down.frame = (ctx.sess i).sid ∧ hdrTok down.frame = (ctx.sess i).token ∧
          hdrEnc down.frame = (ctx.sess i).enc ∧
          (ForeignSource (ctx.sess i) pkt.bytes →
            (∀ cfg : SocksConfig, cfg.session = (ctx.sess i).client →
              pkt.bytes.length ≤ cfg.mtu →
              ProxyReceives crypto client cfg down.frame pkt.bytes) ∧
            (pkt.bytes.length ≤ pumpSlot →
              ThreadWrites crypto client (ctx.sess i).client down.frame pkt.bytes)) ∧
          ∀ j, j ≠ i → (ctx.sess j).valid = true →
            ClientDrops crypto client (ctx.sess j).client down.frame := by
  have routing := tunPrepDownlink_iff server sound outside pkt
  constructor
  · rw [Option.isSome_iff_exists]
    constructor
    · rintro ⟨down, sent⟩
      obtain ⟨i, live, routed, _⟩ := (routing down).mp sent
      exact ⟨i, live, routed⟩
    · rintro ⟨i, live, routed⟩
      exact ⟨_, (routing _).mpr ⟨i, live, routed, rfl⟩⟩
  · intro i live routed
    have sent := (routing _).mpr ⟨i, live, routed, rfl⟩
    have size := downlink_length server (ctx.sess i) pkt.bytes
    have long : iwanHdrLen ≤ ((ctx.sess i).downlink server pkt.bytes).frame.length :=
      size ▸ Nat.le_add_right _ _
    refine ⟨_, sent, ?_, rfl, rfl, hdrSid_downlink _ _ _, hdrTok_downlink _ _ _, rfl, ?_, ?_⟩
    · simp only [handleTunDownlink, sent]
      rfl
    · intro foreign
      have good := downlinkFrame_downlink server (ctx.sess i) pkt.bytes client routed foreign
      constructor
      · intro cfg holds fits dns copy now
        exact vpnHandleDatagram_data crypto client dns cfg _ copy now pkt.bytes (holds ▸ good)
          long fits
      · rintro fits staleMs st front back a same running
        exact udp2tunRun_data crypto client (ctx.sess i).client staleMs st front back a pkt.bytes
          (same ▸ good) (same ▸ long) (by rw [same, size]; omega) running
    · intro j apart live'
      apply clientDrops_of_sid
      rw [hdrSid_downlink]
      exact (sound.distinct i j live live' apart.symm).1

theorem mixedName_ne : (0x62 : UInt8) ≠ 0 := by decide

theorem mixedPass_ne : (0x71 : UInt8) ≠ 0 := by decide

theorem mixedTok_ne : (0x0A0B0C0D : UInt32) ≠ 0 := by decide

def mixedOpens : List Event :=
  [sampleOpenEvent (sampleUser 0x61 0x70 sampleName_ne samplePass_ne) ⟨0x01010101, 4000⟩ 5000,
    .udp ⟨sampleOpen (sampleUser 0x62 0x71 mixedName_ne mixedPass_ne) 1, ⟨0x02020202, 4000⟩⟩
      (sampleEnv 5000 0x0A0B0C0D mixedTok_ne)]

def mixedCtx : ServerCtx :=
  (serverRun sampleCrypto sampleMachine sampleUsers (sampleWorld 0x0A000002 0x0A0000FE 0x0A000002)
    mixedOpens).ctx

def replyPacket : TunPacket :=
  ⟨[0x45, 0, 0, 20, 0, 0, 0, 0, 64, 17, 0, 0, 8, 8, 8, 8, 10, 0, 0, 3], by decide⟩

theorem mixedCtx_sound : TableSound mixedCtx := by
  obtain ⟨inv, pool⟩ := serverRun_poolInv sampleCrypto sampleMachine sampleUsers _
    (sampleWorld_booted 0x0A000002 0x0A0000FE 0x0A000002) (by decide) (by decide) (by decide)
    mixedOpens
  exact inv.sound pool

theorem tunPrepDownlink_delivered_sample :
    (mixedCtx.sess 1).enc = 1 ∧ (mixedCtx.sess 1).peer = ⟨0x02020202, 4000⟩ ∧
      ∃ down, tunPrepDownlink sampleMachine mixedCtx replyPacket.bytes = some down ∧
        down.snap.peer = (mixedCtx.sess 1).peer ∧
        ProxyReceives sampleCrypto sampleMachine ⟨(mixedCtx.sess 1).client, 1400, 0, false⟩
          down.frame replyPacket.bytes ∧
        ThreadWrites sampleCrypto sampleMachine (mixedCtx.sess 1).client down.frame
          replyPacket.bytes ∧
        ClientDrops sampleCrypto sampleMachine (mixedCtx.sess 0).client down.frame := by
  have address : (mixedCtx.sess 1).ip = ⟨10, 0, 0, 3⟩ := by decide +kernel
  have routed : RoutedTo (mixedCtx.sess 1) replyPacket.bytes := by
    apply RoutedTo.ip4 0x08080808
    rw [address]
    decide +kernel
  have foreign : ForeignSource (mixedCtx.sess 1) replyPacket.bytes := by
    refine ⟨fun src dst sane => ?_, fun src dst sane => ?_⟩
    · rw [address]
      obtain ⟨rfl, rfl⟩ := Prod.mk.inj (Option.some.inj
        ((show ipv4PktOk replyPacket.bytes = some (0x08080808, 0x0A000003)
          by decide +kernel).symm.trans
          sane))
      decide
    · cases (show ip6PktOk replyPacket.bytes = none by decide +kernel).symm.trans sane
  obtain ⟨down, sent, _, peer, _, _, _, _, received, dropped⟩ :=
    (tunPrepDownlink_delivered sampleCrypto sampleMachine sampleMachine mixedCtx mixedCtx_sound
      (by unfold ServerOutside; decide +kernel) replyPacket).2 1 (by decide +kernel) routed
  refine ⟨by decide +kernel, by decide +kernel, down, sent, peer, ?_, ?_, ?_⟩
  · exact (received foreign).1 _ rfl (by decide)
  · exact (received foreign).2 (by decide)
  · exact dropped 0 (by decide) (by decide +kernel)

/-- Both ends of a session agree on its secrets. -/
structure Shared (c : ClientSession) (s : Session) : Prop where
  sid : c.sid = s.sid
  token : c.token = s.token
  enc : c.enc = s.enc
  xorKey : c.xorKey = s.xorKey

theorem Session.client_shared (s : Session) : Shared s.client s := ⟨rfl, rfl, rfl, rfl⟩

/-- The pump encrypts also without encryption, where only a key of zeros does no harm. -/
def Sender.Readable (c : ClientSession) (pkt : List UInt8) (sender : Sender) : Prop :=
  sender ≠ .pump ∨ c.enc ≠ 0 ∨ ∀ k : Fin 8, k.val < pkt.length → c.xorKey.get k = 0

theorem xorCrypt_eq_self_iff (machine : Machine) (pkt : List UInt8) (key : Vector UInt8 8) :
    xorCrypt machine pkt key.toList = pkt ↔ ∀ k : Fin 8, k.val < pkt.length → key.get k = 0 := by
  have width : key.toList.length = 8 := key.length_toList
  have read : ∀ k : Fin 8, key.toList.getD k.val 0 = key.get k := by
    intro k
    rw [List.getD_eq_getElem _ _ (by rw [width]; exact k.isLt), Vector.getElem_toList]
    rfl
  rw [xorCrypt_key, XorStream.stream_eq_self_iff, width]
  constructor
  · intro zeros k inside
    have zero := zeros k.val inside
    rwa [Nat.zero_add, Nat.mod_eq_of_lt k.isLt, read k] at zero
  · intro zeros index inside
    have small : index % 8 < 8 := Nat.mod_lt _ (by decide)
    have zero := zeros ⟨index % 8, small⟩ (Nat.lt_of_le_of_lt (Nat.mod_le _ _) inside)
    rw [Nat.zero_add]
    exact (read ⟨index % 8, small⟩).trans zero

section

variable {client : Machine} {c : ClientSession} {s : Session} {pkt frame : List UInt8}
  {sender : Sender}

theorem Shared.dataHdr (shared : Shared c s) :
    c.dataHdr = pktHdr s.frameType s.enc s.sid s.token := by
  simp only [ClientSession.dataHdr, Session.frameType, shared.sid, shared.token, shared.enc]

theorem dataPayload_builds (server : Machine) (shared : Shared c s)
    (builds : Builds client c pkt frame sender) :
    dataPayload server s s.frameType frame = some pkt ↔ sender.Readable c pkt := by
  rw [dataPayload_iff, builds.frame_eq, shared.dataHdr]
  have payload : s.plain (pktHdr s.frameType s.enc s.sid s.token ++
      sender.payload client c pkt) =
        if s.enc ≠ 0 then xorCrypt server (sender.payload client c pkt) s.xorKey.toList
        else sender.payload client c pkt := by
    rw [Session.plain, drop_pktHdr, xorCrypt_key]
  rw [payload]
  simp only [true_and, Sender.Readable, shared.enc]
  by_cases enc : s.enc = 0
  · cases sender with
    | pump =>
      simp only [enc, Sender.payload, ne_eq, not_true_eq_false, ↓reduceIte, false_or]
      rw [eq_comm, xorCrypt_eq_self_iff]
    | _ => simp [enc, Sender.payload, shared.enc]
  · have sealed : sender.payload client c pkt = xorCrypt client pkt s.xorKey.toList := by
      cases sender <;> simp [Sender.payload, shared.enc, shared.xorKey, enc]
    simp [enc, sealed]

end

/-- The uplink: every frame names the session, and unless that is throttled the server obtains the
packet exactly when the frame is a readable one. -/
theorem handleUdp_obtains (crypto : Crypto) (client server : Machine) (users : List ServerUser)
    (w : World) (inv : TableInv w.ctx) (i : Slot) (live : (w.ctx.sess i).valid = true)
    (c : ClientSession) (shared : Shared c (w.ctx.sess i)) (sender : Sender)
    (pkt frame : List UInt8) (builds : Builds client c pkt frame sender) (env : UdpEnv) :
    let s := w.ctx.sess i
    let d : Datagram := ⟨frame, s.peer⟩
    let obtained := (dataObtain server w s.frameType d env.clock).2.2
    hdrTyp frame = s.frameType.code ∧ hdrSid frame = s.sid ∧ hdrTok frame = s.token ∧
      handleUdp crypto server users w d env = handleData server w s.frameType d env ∧
      (Throttled w.ctx s env.clock.entry → obtained = none) ∧
      (¬ Throttled w.ctx s env.clock.entry →
        (obtained = some (ip4U32 s.ip, pkt) ↔ sender.Readable c pkt)) := by
  intro s d obtained
  have shape : frame = pktHdr s.frameType s.enc s.sid s.token ++ sender.payload client c pkt := by
    rw [builds.frame_eq, shared.dataHdr]
  have typ : hdrTyp frame = s.frameType.code := by rw [shape, hdrTyp_pktHdr]
  have sid : hdrSid frame = s.sid := by rw [shape, hdrSid_pktHdr]
  have tok : hdrTok frame = s.token := by rw [shape, hdrTok_pktHdr]
  have long : iwanHdrLen ≤ d.raw.length := by
    change iwanHdrLen ≤ frame.length
    rw [shape, List.length_append]
    exact Nat.le_add_right _ _
  have found : findSession w.ctx (hdrSid d.raw) = some i :=
    (findSession_iff inv _ i).mpr ⟨live, sid.symm⟩
  refine ⟨typ, sid, tok, handleUdp_data s.frameType s.frameType_isData
    ((FrameType.ofCode_eq_some _ _).mpr typ) long, ?_, ?_⟩
  · intro busy
    unfold Throttled at busy
    have right : s.token = hdrTok d.raw := tok.symm
    simp [obtained, dataObtain, found, right, busy, s, d]
  · intro idle
    have drive := dataObtain_drive server w s.frameType d env i found tok.symm idle (Or.inl rfl)
    rw [← dataPayload_builds server shared builds]
    simp [obtained, drive, s, d]

def bridgeFrame : List UInt8 :=
  [0x14, 0x00, 0x00, 0x02, 0x01, 0x02, 0x03, 0x04] ++ samplePacket ⟨8, 8, 8, 8⟩

theorem handleUdp_obtains_sample :
    bridgeOutputFrame sampleMachine (nsSetOuter (connected.ctx.sess 0).client)
        (samplePacket ⟨8, 8, 8, 8⟩) ⟨false, true, true⟩ = some bridgeFrame ∧
      (dataObtain sampleMachine connected (connected.ctx.sess 0).frameType
        ⟨bridgeFrame, (connected.ctx.sess 0).peer⟩ (sampleEnv 6000 1 (by decide)).clock).2.2 =
        some (ip4U32 (connected.ctx.sess 0).ip, samplePacket ⟨8, 8, 8, 8⟩) := by
  have built : bridgeOutputFrame sampleMachine (nsSetOuter (connected.ctx.sess 0).client)
      (samplePacket ⟨8, 8, 8, 8⟩) ⟨false, true, true⟩ = some bridgeFrame := by decide +kernel
  have inv : TableInv connected.ctx :=
    serverRun_tableInv _ connectEvents (sampleWorld_booted _ _ _).tableInv
  have idle : ¬ Throttled connected.ctx (connected.ctx.sess 0)
      (sampleEnv 6000 1 (by decide)).clock.entry := by
    unfold Throttled
    decide +kernel
  refine ⟨built, ?_⟩
  exact ((handleUdp_obtains sampleCrypto sampleMachine sampleMachine sampleUsers connected inv 0
    (by decide +kernel) _ (Session.client_shared _) .bridge _ _ (.bridge _ built)
    (sampleEnv 6000 1 (by decide))).2.2.2.2.2 idle).mpr (Or.inl (by decide))

def pumpedFrame : List UInt8 :=
  [0x14, 0x00, 0x00, 0x02, 0x01, 0x02, 0x03, 0x04,
    0x27, 0xC4, 0x28, 0x47, 0x38, 0x30, 0xD8, 0x4F, 0x22, 0xD5, 0x28, 0x53, 0x32, 0x30, 0xD8, 0x4D,
    0x6A, 0xCC, 0x20, 0x5B]

/-- A plain session in TUN mode: the server drops the pump's frame. -/
theorem pump_plain_unreadable :
    let s := connected.ctx.sess 0
    s.valid = true ∧ s.enc = 0 ∧
      (pumpTunPkt sampleMachine s.client PumpTx.fresh
        (.packet (samplePacket ⟨8, 8, 8, 8⟩) ⟨true, false, 0, 20⟩)).2 = [.portSend pumpedFrame] ∧
      (dataObtain sampleMachine connected .ptData ⟨pumpedFrame, s.peer⟩ (Clock.at 6000)).2.2 =
        some (ip4U32 s.ip, pumpedFrame.drop 8) ∧
      pumpedFrame.drop 8 ≠ samplePacket ⟨8, 8, 8, 8⟩ ∧
      (handleUdp sampleCrypto sampleMachine sampleUsers connected ⟨pumpedFrame, s.peer⟩
        (sampleEnv 6000 1 (by decide))).2 = [.tokenCompare 0 true true] ∧
      (handleUdp sampleCrypto sampleMachine sampleUsers connected ⟨bridgeFrame, s.peer⟩
        (sampleEnv 6000 1 (by decide))).2 =
          [.tokenCompare 0 true true, .tunWrite false (samplePacket ⟨8, 8, 8, 8⟩)] :=
  ⟨by decide +kernel, by decide +kernel, by decide +kernel, by decide +kernel, by decide +kernel,
    by decide +kernel, by decide +kernel⟩

end Iwan
