import Iwan.Server.Pool

/- Packets from the TUN device on the server (server.c). -/
namespace Iwan

open BigEndian

/-- What is read of a session under the lock. -/
structure SessSnap where
  peer : SockaddrIn
  sid : UInt16
  token : UInt32
  enc : UInt8
  xorKey : Vector UInt8 8
deriving DecidableEq, Repr

def Session.snap (s : Session) : SessSnap := ⟨s.peer, s.sid, s.token, s.enc, s.xorKey⟩

/-- A framed packet and where it goes. -/
structure Downlink where
  snap : SessSnap
  hdr : List UInt8
  payload : List UInt8
deriving DecidableEq, Repr

def Downlink.frame (down : Downlink) : List UInt8 := down.hdr ++ down.payload

structure TunPacket where
  bytes : List UInt8
  fits : bytes.length ≤ 65536

def ulaPrefixed (d6 : Ip6) : Bool :=
  byteAt d6.toList 0 == iwanIp6UlaByte0 && (List.range' 1 11).all fun k => byteAt d6.toList k == 0

def downlinkOwner (ctx : ServerCtx) (pkt : List UInt8) : Option Slot :=
  if ipVersion pkt = 6 then
    match ip6PktOk pkt with
    | none => none
    | some (_, d6) =>
      if d6 = ip6DeriveUla (ip4U32 ctx.serverIp) then none
      else if !ulaPrefixed d6 then none
      else findSessionByIp ctx (ip4At d6.toList 12)
  else
    match ipv4PktOk pkt with
    | none => none
    | some (_, daddr) =>
      if daddr = ip4U32 ctx.serverIp then none
      else findSessionByIp ctx (ip4At pkt 16)

def tunPrepDownlink (machine : Machine) (ctx : ServerCtx) (pkt : List UInt8) : Option Downlink :=
  if pkt.length < 20 ∨ 65536 < pkt.length then none
  else
    match downlinkOwner ctx pkt with
    | none => none
    | some i =>
      let snap := (ctx.sess i).snap
      let typ : FrameType := if snap.enc ≠ 0 then .ptDataEnc else .ptData
      some
        { snap
          hdr := pktHdr typ snap.enc snap.sid snap.token
          payload := if snap.enc ≠ 0 then xorCrypt machine pkt snap.xorKey.toList else pkt }

def handleTunDownlink (machine : Machine) (ctx : ServerCtx) (pkt : List UInt8) : List Effect :=
  match tunPrepDownlink machine ctx pkt with
  | none => []
  | some down => [.udpSend down.snap.peer down.frame]

/-- A packet for the session's address. -/
inductive RoutedTo (s : Session) (pkt : List UInt8) : Prop
  | ip4 (src : UInt32) (sane : ipv4PktOk pkt = some (src, ip4U32 s.ip))
  | ip6 (src : Ip6) (sane : ip6PktOk pkt = some (src, ip6DeriveUla (ip4U32 s.ip)))

theorem RoutedTo.length {s : Session} {pkt : List UInt8} (routed : RoutedTo s pkt) :
    20 ≤ pkt.length := by
  cases routed with
  | ip4 src sane => exact (ipv4PktOk_some _ _ _ sane).1
  | ip6 src sane => exact Nat.le_trans (by decide) (ip6PktOk_some _ _ _ sane).1

theorem ulaPrefixed_iff (d6 : Ip6) (ip : Ip4) :
    ulaPrefixed d6 = true ∧ ip4At d6.toList 12 = ip ↔ d6 = ip6DeriveUla (ip4U32 ip) := by
  constructor
  · rintro ⟨zeros, rfl⟩
    simp only [ulaPrefixed, Bool.and_eq_true, beq_iff_eq, List.all_eq_true, List.mem_range'_1]
      at zeros
    obtain ⟨first, zero⟩ := zeros
    apply Vector.ext
    intro k inside
    have read : d6[k] = byteAt d6.toList k := by
      rw [byteAt, List.getD_eq_getElem _ _ (by simpa using inside), Vector.getElem_toList]
    rw [read, ip6DeriveUla]
    simp only [u32Ip4_ip4U32]
    interval_cases k
    · exact first
    all_goals first | exact zero _ (by decide) | rfl
  · rintro rfl
    have shape : (ip6DeriveUla (ip4U32 ip)).toList =
        iwanIp6UlaByte0 :: (List.replicate 11 0 ++ ip.bytes) := by
      simp only [ip6DeriveUla, u32Ip4_ip4U32]
      rfl
    rw [ulaPrefixed, shape]
    exact ⟨rfl, rfl⟩

def ServerOutside (ctx : ServerCtx) : Prop :=
  ¬ (ctx.ipBase ≤ ip4U32 ctx.serverIp ∧ ip4U32 ctx.serverIp ≤ ctx.ipEnd)

section

variable {ctx : ServerCtx}

theorem TableSound.findSessionByIp (sound : TableSound ctx) (ip : Ip4) (i : Slot) :
    findSessionByIp ctx ip = some i ↔ (ctx.sess i).valid = true ∧ (ctx.sess i).ip = ip := by
  rw [sound.lookupIp ip]
  constructor
  · intro found
    exact (hasIp_iff _ _).mp (scan_some ctx _ i found)
  · rintro ⟨live, rfl⟩
    apply scan_eq_some ctx _ i _ ((hasIp_iff _ _).mpr ⟨live, rfl⟩)
    intro j carries
    obtain ⟨live', same⟩ := (hasIp_iff _ _).mp carries
    by_contra apart
    exact (sound.distinct j i live' live apart).2.1 same

theorem TableSound.ne_serverIp (sound : TableSound ctx) (outside : ServerOutside ctx) (i : Slot)
    (live : (ctx.sess i).valid = true) : ip4U32 (ctx.sess i).ip ≠ ip4U32 ctx.serverIp :=
  fun same => outside (same ▸ sound.inPool i live)

theorem downlinkOwner_iff (sound : TableSound ctx) (outside : ServerOutside ctx)
    (pkt : List UInt8) (i : Slot) :
    downlinkOwner ctx pkt = some i ↔ (ctx.sess i).valid = true ∧ RoutedTo (ctx.sess i) pkt := by
  unfold downlinkOwner
  constructor
  · intro found
    split_ifs at found with six
    · cases sane : ip6PktOk pkt with
      | none =>
        rw [sane] at found
        cases found
      | some pair =>
        simp only [sane] at found
        split_ifs at found with own other
        obtain ⟨live, address⟩ := (sound.findSessionByIp _ i).mp found
        have derived := (ulaPrefixed_iff pair.2 (ctx.sess i).ip).mp
          ⟨by simpa using other, address.symm⟩
        exact ⟨live, .ip6 pair.1 (by rw [← derived]; exact sane)⟩
    · cases sane : ipv4PktOk pkt with
      | none =>
        rw [sane] at found
        cases found
      | some pair =>
        simp only [sane] at found
        split_ifs at found with own
        obtain ⟨live, address⟩ := (sound.findSessionByIp _ i).mp found
        obtain ⟨_, _, _, dst⟩ := ipv4PktOk_some pkt pair.1 pair.2 sane
        exact ⟨live, .ip4 pair.1 (by rw [address, ← dst]; exact sane)⟩
  · rintro ⟨live, routed⟩
    have foreign := sound.ne_serverIp outside i live
    cases routed with
    | ip4 src sane =>
      obtain ⟨_, version, _, dst⟩ := ipv4PktOk_some _ _ _ sane
      have owner : findSessionByIp ctx (ip4At pkt 16) = some i :=
        (sound.findSessionByIp _ i).mpr ⟨live, (ip4U32_inj _ _).mp dst⟩
      simp [version, sane, foreign, owner]
    | ip6 src sane =>
      obtain ⟨_, version, _, _⟩ := ip6PktOk_some _ _ _ sane
      obtain ⟨inside, address⟩ := (ulaPrefixed_iff _ (ctx.sess i).ip).mpr rfl
      have owner : findSessionByIp ctx
          (ip4At (ip6DeriveUla (ip4U32 (ctx.sess i).ip)).toList 12) = some i :=
        (sound.findSessionByIp _ i).mpr ⟨live, address.symm⟩
      have other : ip6DeriveUla (ip4U32 (ctx.sess i).ip) ≠ ip6DeriveUla (ip4U32 ctx.serverIp) :=
        fun same => foreign (ip6DeriveUla_inj _ _ same)
      simp [version, sane, other, inside, owner]

def Session.downlink (machine : Machine) (s : Session) (pkt : List UInt8) : Downlink where
  snap := s.snap
  hdr := pktHdr s.frameType s.enc s.sid s.token
  payload := if s.enc ≠ 0 then xorCrypt machine pkt s.xorKey.toList else pkt

theorem tunPrepDownlink_iff (machine : Machine) (sound : TableSound ctx)
    (outside : ServerOutside ctx) (pkt : TunPacket) (down : Downlink) :
    tunPrepDownlink machine ctx pkt.bytes = some down ↔
      ∃ i, (ctx.sess i).valid = true ∧ RoutedTo (ctx.sess i) pkt.bytes ∧
        down = (ctx.sess i).downlink machine pkt.bytes := by
  unfold tunPrepDownlink
  constructor
  · intro sent
    split_ifs at sent with size
    cases owner : downlinkOwner ctx pkt.bytes with
    | none =>
      rw [owner] at sent
      cases sent
    | some i =>
      obtain ⟨live, routed⟩ := (downlinkOwner_iff sound outside pkt.bytes i).mp owner
      rw [owner] at sent
      exact ⟨i, live, routed, (Option.some.inj sent).symm⟩
  · rintro ⟨i, live, routed, rfl⟩
    have size : ¬ (pkt.bytes.length < 20 ∨ 65536 < pkt.bytes.length) := by
      have short := routed.length
      have fits := pkt.fits
      omega
    rw [if_neg size, (downlinkOwner_iff sound outside pkt.bytes i).mpr ⟨live, routed⟩]
    rfl

end

end Iwan
