import Iwan.Server.Open

/- Datagrams on the server (server.c, handle_udp): DATA, CLOSE, keepalives, purging. -/
namespace Iwan

open BigEndian

/-- The table and the rate limiter. -/
structure World where
  ctx : ServerCtx
  rate : RateState

structure Datagram where
  raw : List UInt8
  peer : SockaddrIn

/-- Clock readings, random draws, and whether the writes succeed. -/
structure UdpEnv where
  clock : Clock
  draws : Draws
  poolOk : Bool
  ownerOk : Bool

def upInnerDstBlocked4 (d : UInt32) : Bool :=
  d &&& 0xFF000000 == 0x7F000000 || d &&& 0xFF000000 == 0x00000000 ||
    d &&& 0xFFFF0000 == 0xA9FE0000

def upInnerDstInTunnel (ctx : ServerCtx) (d : UInt32) : Bool :=
  if !ctx.subnetSet then false
  else if d == ip4U32 ctx.serverIp then true
  else d &&& ctx.subnetMask == ctx.subnetBase

def loopback6 : List UInt8 := [0, 0, 0, 0, 0, 0, 0, 0, 0, 0, 0, 0, 0, 0, 0, 1]
def v4mapped : List UInt8 := [0, 0, 0, 0, 0, 0, 0, 0, 0, 0, 0xFF, 0xFF]
def nat64 : List UInt8 := [0x00, 0x64, 0xFF, 0x9B, 0, 0, 0, 0, 0, 0, 0, 0]
def compat : List UInt8 := [0, 0, 0, 0, 0, 0, 0, 0, 0, 0, 0, 0]
def siit : List UInt8 := [0, 0, 0, 0, 0, 0, 0, 0, 0xFF, 0xFF, 0, 0]

def embeddedShift (d : List UInt8) : Option Nat :=
  if d.take 12 = v4mapped then some 12
  else if d.take 12 = nat64 then some 12
  else if d.take 12 = compat then some 12
  else if d.take 12 = siit then some 12
  else if byteAt d 0 = 0x20 ∧ byteAt d 1 = 0x02 then some 2
  else none

def upInnerDstBlocked6 (ctx : ServerCtx) (dst : Ip6) : Bool :=
  let d := dst.toList
  if d = loopback6 then true
  else if byteAt d 0 = 0xFE ∧ byteAt d 1 &&& 0xC0 = 0x80 then true
  else
    match embeddedShift d with
    | some shift =>
      let emb := ip4U32 (ip4At d shift)
      upInnerDstBlocked4 emb && !upInnerDstInTunnel ctx emb
    | none => false

def innerAccepted (ctx : ServerCtx) (sIp : UInt32) (pkt : List UInt8) : Bool :=
  if pkt.length = 0 then false
  else if ipVersion pkt = 6 then
    match ip6PktOk pkt with
    | none => false
    | some (s6, d6) => s6 == ip6DeriveUla sIp && !upInnerDstBlocked6 ctx d6
  else
    match ipv4PktOk pkt with
    | none => false
    | some (saddr, daddr) =>
      saddr == sIp && !(upInnerDstBlocked4 daddr && !upInnerDstInTunnel ctx daddr)

/-- Charge a wrong-token frame to the session that now carries the sid. -/
def tokChargeUpgrade (ctx : ServerCtx) (sid : UInt16) (tok : UInt32) (peer : SockaddrIn)
    (now : UInt64) : ServerCtx × List Effect :=
  match findSession ctx sid with
  | none => (ctx, [])
  | some i =>
    if (ctx.sess i).token ≠ tok then
      let bound := decide ((ctx.sess i).peer = peer)
      (ctx.modify i (fun s => tokBudgetCharge s bound now), [.tokenCharge i bound])
    else (ctx, [])

def sidMiss (w : World) (peer : SockaddrIn) (clock : Clock) : World :=
  let (rate, allowed) := serverRateAllowSidMiss w.rate peer.sinAddr clock.entry clock.rate
  { w with rate := if allowed then rate else serverRateDropInc rate }

/-- A new source takes the session over unless a mismatch was charged in the running window. -/
def dataRebind (ctx : ServerCtx) (sid : UInt16) (tok : UInt32) (peer : SockaddrIn)
    (now : UInt64) : ServerCtx × List Effect × Option Slot :=
  match findSession ctx sid with
  | none => (ctx, [], none)
  | some i =>
    let s := ctx.sess i
    if s.token ≠ tok then
      let bound := decide (s.peer = peer)
      (ctx.modify i (fun s => tokBudgetCharge s bound now), [.tokenCharge i bound], none)
    else if s.peer ≠ peer then
      if !tokRebindAllowed s now then (ctx, [], none)
      else (ctx.modify i (fun s => { s with peer }), [], some i)
    else (ctx, [], some i)

def dataPayload (machine : Machine) (s : Session) (typ : FrameType) (raw : List UInt8) :
    Option (List UInt8) :=
  let payload := raw.drop iwanHdrLen
  if s.enc ≠ 0 then
    if typ ≠ .ptDataEnc then none else some (xorCrypt machine payload s.xorKey.toList)
  else if typ ≠ .ptData then none
  else some payload

def dataObtain (machine : Machine) (w : World) (typ : FrameType) (d : Datagram) (clock : Clock) :
    World × List Effect × Option (UInt32 × List UInt8) :=
  let sid := hdrSid d.raw
  let tok := hdrTok d.raw
  let now := clock.entry
  match findSession w.ctx sid with
  | none => (sidMiss w d.peer clock, [], none)
  | some i =>
    let s := w.ctx.sess i
    let bound := decide (s.peer = d.peer)
    if !bound && tokBudgetOver s now then
      ({ w with rate := serverRateDropInc w.rate }, [], none)
    else if s.token ≠ tok then
      let (rate, allowed) :=
        if bound then serverRateAllowTokbad w.rate d.peer.sinAddr now clock.rate
        else (w.rate, true)
      if !allowed then
        ({ w with rate := serverRateDropInc rate }, [.tokenCompare i bound false], none)
      else
        let (ctx, charges) := tokChargeUpgrade w.ctx sid tok d.peer now
        (⟨ctx, rate⟩, .tokenCompare i bound false :: charges, none)
    else if 0 ≤ w.ctx.tunFd ∧ now < s.throttleUntilMs then
      ({ w with rate := serverRateDropInc w.rate }, [.tokenCompare i bound true], none)
    else
      let (ctx, charges, owner) :=
        if bound then (w.ctx, [], some i) else dataRebind w.ctx sid tok d.peer now
      match owner with
      | none => ({ w with ctx }, .tokenCompare i bound true :: charges, none)
      | some j =>
        let s := ctx.sess j
        let ctx := ctx.modify j (fun s => { s with lastActiveMs := clock.stamp })
        ({ w with ctx }, .tokenCompare i bound true :: charges,
          (dataPayload machine s typ d.raw).map fun pkt => (ip4U32 s.ip, pkt))

def throttleStalled (w : World) (sid : UInt16) (tok : UInt32) (clock : Clock) : World :=
  match findSession w.ctx sid with
  | none => w
  | some i =>
    if (w.ctx.sess i).token = tok then
      let til := clock.stall + (serverRateGetThrottleMs w.rate).toUInt64
      { w with ctx := w.ctx.modify i (fun s => { s with throttleUntilMs := til }) }
    else w

def tunWrites (tunPool : Bool) (pkt : List UInt8) (env : UdpEnv) : List Effect × Bool :=
  if tunPool then
    if env.poolOk then ([.tunWrite true pkt], true)
    else ([.tunWrite true pkt, .tunWrite false pkt], env.ownerOk)
  else ([.tunWrite false pkt], env.ownerOk)

def dataWrite (w : World) (d : Datagram) (pkt : List UInt8) (env : UdpEnv) :
    World × List Effect :=
  if 0 ≤ w.ctx.tunFd then
    let (writes, written) := tunWrites w.ctx.tunPool pkt env
    if written then (w, writes)
    else (throttleStalled w (hdrSid d.raw) (hdrTok d.raw) env.clock, writes)
  else (w, [.echoMirror pkt])

def handleData (machine : Machine) (w : World) (typ : FrameType) (d : Datagram) (env : UdpEnv) :
    World × List Effect :=
  match dataObtain machine w typ d env.clock with
  | (w, fx, none) => (w, fx)
  | (w, fx, some (sIp, pkt)) =>
    if innerAccepted w.ctx sIp pkt then
      let (w, writes) := dataWrite w d pkt env
      (w, fx ++ writes)
    else (w, fx)

/-- A correct-token CLOSE wipes the session if it comes from its exact peer. -/
def closeWipe (w : World) (d : Datagram) (now : UInt64) : World × List Effect :=
  let tok := hdrTok d.raw
  match findSession w.ctx (hdrSid d.raw) with
  | none => (w, [])
  | some i =>
    let s := w.ctx.sess i
    if s.token ≠ tok then
      let bound := decide (s.peer = d.peer)
      ({ w with ctx := w.ctx.modify i (fun s => tokBudgetCharge s bound now) },
        [.tokenCharge i bound])
    else if s.peer.sinAddr ≠ d.peer.sinAddr ∨ s.peer.sinPort ≠ d.peer.sinPort then (w, [])
    else ({ w with ctx := sessWipe w.ctx i }, [.wipe i])

def handleClose (crypto : Crypto) (w : World) (d : Datagram) (clock : Clock) :
    World × List Effect :=
  let sid := hdrSid d.raw
  let tok := hdrTok d.raw
  let now := clock.entry
  if !verifySig crypto d.raw then (w, [])
  else
    match findSession w.ctx sid with
    | none => (sidMiss w d.peer clock, [])
    | some i =>
      let s := w.ctx.sess i
      let bound := decide (s.peer = d.peer)
      if !bound && tokBudgetOver s now then
        ({ w with rate := serverRateDropInc w.rate }, [])
      else if s.token ≠ tok then
        let (rate, allowed) := serverRateAllowClose w.rate d.peer.sinAddr now clock.rate
        if !allowed then
          ({ w with rate := serverRateDropInc rate }, [.tokenCompare i bound false])
        else
          let (ctx, charges) := tokChargeUpgrade w.ctx sid tok d.peer now
          (⟨ctx, rate⟩, .tokenCompare i bound false :: charges)
      else
        let (w, fx) := closeWipe w d now
        (w, .tokenCompare i bound true :: fx)

def keepaliveTouch (ctx : ServerCtx) (d : Datagram) (clock : Clock) :
    ServerCtx × List Effect × Bool :=
  let sid := hdrSid d.raw
  let tok := hdrTok d.raw
  match findSession ctx sid with
  | none => (ctx, [], false)
  | some i =>
    let s := ctx.sess i
    let bound := decide (s.peer = d.peer)
    if s.token = tok then
      if bound then
        (ctx.modify i (fun s => { s with lastActiveMs := clock.stamp }),
          [.tokenCompare i bound true], true)
      else
        match findSession ctx sid with
        | none => (ctx, [.tokenCompare i bound true], false)
        | some j =>
          if (ctx.sess j).token = tok ∧ tokRebindAllowed (ctx.sess j) clock.entry then
            (ctx.modify j (fun s => { s with peer := d.peer, lastActiveMs := clock.stamp }),
              [.tokenCompare i bound true], true)
          else (ctx, [.tokenCompare i bound true], false)
    else (ctx, [.tokenCompare i bound false], false)

def keepaliveReply (crypto : Crypto) (ping : Bool) (d : Datagram) : List UInt8 :=
  if ping then ctrlHdr crypto .ptPingRsp 0 iwanPingSid iwanPingTok
  else ctrlHdr crypto .ptEchoRes (hdrEnc d.raw) (hdrSid d.raw) (hdrTok d.raw)

def handleKeepalive (crypto : Crypto) (w : World) (ping : Bool) (d : Datagram) (clock : Clock) :
    World × List Effect :=
  if !verifySig crypto d.raw then (w, [])
  else
    let (ctx, fx, valid) := keepaliveTouch w.ctx d clock
    if !ping && !valid then ({ w with ctx }, fx)
    else ({ w with ctx }, fx ++ [.udpSend d.peer (keepaliveReply crypto ping d)])

def handleUdp (crypto : Crypto) (machine : Machine) (users : List ServerUser) (w : World)
    (d : Datagram) (env : UdpEnv) : World × List Effect :=
  if d.raw.length < iwanHdrLen then (w, [])
  else
    let typ := FrameType.ofCode (hdrTyp d.raw)
    let (rate, allowed) := serverRateAllowControl w.rate d.peer.sinAddr typ env.clock.rate
    let w := { w with rate }
    if !allowed then (w, [])
    else
      match typ with
      | some .ptOpen =>
        let (ctx, fx) := handleOpen crypto users w.ctx d.raw d.peer env.clock env.draws
        ({ w with ctx }, fx)
      | some .ptData => handleData machine w .ptData d env
      | some .ptDataEnc => handleData machine w .ptDataEnc d env
      | some .ptClose => handleClose crypto w d env.clock
      | some .ptPingReq => handleKeepalive crypto w true d env.clock
      | some .ptEchoReq => handleKeepalive crypto w false d env.clock
      | _ => (w, [])

def purgeExpired (ctx : ServerCtx) (now : UInt64) : ServerCtx × List Effect :=
  wipeWhere ctx fun s => s.valid && idleTimeoutMs < now - s.lastActiveMs

end Iwan
