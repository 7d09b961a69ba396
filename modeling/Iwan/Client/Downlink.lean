import Iwan.Lib.Trace
import Iwan.Client.Auth

/- Datagrams on the client (socks.c, proxy.c). -/
namespace Iwan

open BigEndian

/-- What the client does to the outside. -/
inductive ClientEffect where
  | portSend (frame : List UInt8)
  | dnsTryHandleResponse (pkt : List UInt8)
  | nsRxPacket (pkt : List UInt8)
  | nsRxPacketRef (slot : List UInt8)
  | tunWrite (pkt : List UInt8)
deriving DecidableEq, Repr

def openData (machine : Machine) (s : ClientSession) (typ : FrameType) (frame : List UInt8) :
    Option (List UInt8) :=
  if typ = .ptDataEnc then
    if s.enc = 0 then none
    else some (xorCrypt machine (frame.drop iwanHdrLen) s.xorKey.toList)
  else if s.enc ≠ 0 then none
  else some (frame.drop iwanHdrLen)

def ingressOk (innerIp : UInt32) (pkt : List UInt8) : Bool :=
  if ipVersion pkt = 6 then
    if pkt.length < 40 then false
    else
      match ip6PktOk pkt with
      | none => false
      | some (s6, d6) => d6 == ip6DeriveUla innerIp && s6 != ip6DeriveUla innerIp
  else
    match ipv4PktOk pkt with
    | none => false
    | some (saddr, daddr) => daddr == innerIp && saddr != innerIp

/-- The fields of the proxy's session that receive_vpn uses. -/
structure SocksConfig where
  session : ClientSession
  mtu : Nat
  lastRx : UInt64
  sessionLost : Bool
deriving DecidableEq, Repr

/-- The session stops, the caller releases the buffer, or the stack has taken it. -/
inductive RxCode where
  | stop
  | release
  | taken
deriving DecidableEq, Repr

def vpnHandleData (machine : Machine) (dns : List UInt8 → Bool) (cfg : SocksConfig)
    (typ : FrameType) (b : List UInt8) (copy : Bool) : List ClientEffect × RxCode :=
  match openData machine cfg.session typ b with
  | none => ([], .release)
  | some pkt =>
    if pkt.length < 20 ∨ cfg.mtu < pkt.length then ([], .release)
    else if !ingressOk cfg.session.innerIp pkt then ([], .release)
    else if dns pkt then ([.dnsTryHandleResponse pkt], .release)
    else if copy then ([.dnsTryHandleResponse pkt, .nsRxPacket pkt], .taken)
    else ([.dnsTryHandleResponse pkt, .nsRxPacketRef (b.take iwanHdrLen ++ pkt)], .taken)

def vpnHandleDatagram (crypto : Crypto) (machine : Machine) (dns : List UInt8 → Bool)
    (cfg : SocksConfig) (b : List UInt8) (copy : Bool) (now : UInt64) :
    SocksConfig × List ClientEffect × RxCode :=
  let s := cfg.session
  if hdrSid b ≠ s.sid ∨ hdrTok b ≠ s.token then (cfg, [], .release)
  else
    let cfg := { cfg with lastRx := now }
    match FrameType.ofCode (hdrTyp b) with
    | some .ptClose =>
      if !verifySig crypto b then (cfg, [], .release)
      else ({ cfg with sessionLost := true }, [], .stop)
    | some .ptEchoReq =>
      if !verifySig crypto b then (cfg, [], .release)
      else (cfg, [.portSend (ctrlHdr crypto .ptEchoRes s.enc s.sid s.token)], .release)
    | some .ptData => (cfg, vpnHandleData machine dns cfg .ptData b copy)
    | some .ptDataEnc => (cfg, vpnHandleData machine dns cfg .ptDataEnc b copy)
    | _ => (cfg, [], .release)

def pumpSlot : Nat := 2048
def pumpKeepaliveMs : UInt64 := 10000
def pumpKaFailMax : Nat := 3
def pumpErrPollMax : Nat := 64

/-- The state of the thread that writes the tunnel's packets to the device. -/
structure Udp2Tun where
  stop : Bool
  sessionLost : Bool
  lastKa : UInt64
  lastRx : UInt64
  kaFail : Nat
  kaResFail : Nat
  errPollN : Nat
deriving DecidableEq, Repr

def Udp2Tun.start (now : UInt64) : Udp2Tun where
  stop := false
  sessionLost := false
  lastKa := if pumpKeepaliveMs < now then now - pumpKeepaliveMs else 0
  lastRx := now
  kaFail := 0
  kaResFail := 0
  errPollN := 0

def Udp2Tun.lose (st : Udp2Tun) : Udp2Tun := { st with sessionLost := true, stop := true }

/-- How a write to the device ends. -/
inductive TunWriteResult where
  | written
  | transient
  | stopped
  | fatal
deriving DecidableEq, Repr

inductive PollResult where
  | failed
  | quiet
  | ready (nval err readable : Bool)
deriving DecidableEq, Repr

/-- A datagram of a batch, with the clock and the fates of its answers. -/
structure Arrival where
  frame : List UInt8
  now : UInt64
  replied : Bool
  write : TunWriteResult

/-- The loop head, an empty queue, an error and the datagrams of a batch. -/
inductive PumpEvent where
  | wake (now done : UInt64) (sent : Bool)
  | idle (poll : PollResult)
  | recvFailed
  | datagram (a : Arrival)

def udp2tunWake (crypto : Crypto) (s : ClientSession) (staleMs : UInt64) (st : Udp2Tun)
    (now done : UInt64) (sent : Bool) : Udp2Tun × List ClientEffect :=
  if staleMs ≠ 0 ∧ staleMs < now - st.lastRx then (st.lose, [])
  else if st.lastKa + pumpKeepaliveMs ≤ now then
    let frame := ctrlHdr crypto .ptEchoReq s.enc s.sid s.token
    if sent then ({ st with kaFail := 0, lastKa := done }, [.portSend frame])
    else if pumpKaFailMax ≤ st.kaFail + 1 then
      ({ st.lose with kaFail := st.kaFail + 1 }, [.portSend frame])
    else ({ st with kaFail := st.kaFail + 1, lastKa := done }, [.portSend frame])
  else (st, [])

def udp2tunIdle (st : Udp2Tun) : PollResult → Udp2Tun
  | .failed => st.lose
  | .quiet => { st with errPollN := 0 }
  | .ready nval err readable =>
    if nval then st.lose
    else if err && !readable then
      if pumpErrPollMax < st.errPollN + 1 then { st.lose with errPollN := st.errPollN + 1 }
      else { st with errPollN := st.errPollN + 1 }
    else { st with errPollN := 0 }

def udp2tunEcho (crypto : Crypto) (s : ClientSession) (st : Udp2Tun) (a : Arrival) :
    Udp2Tun × List ClientEffect :=
  let frame := ctrlHdr crypto .ptEchoRes s.enc s.sid s.token
  if !verifySig crypto a.frame then (st, [])
  else if a.replied then ({ st with kaResFail := 0 }, [.portSend frame])
  else if pumpKaFailMax ≤ st.kaResFail + 1 then
    ({ st.lose with kaResFail := st.kaResFail + 1 }, [.portSend frame])
  else ({ st with kaResFail := st.kaResFail + 1 }, [.portSend frame])

def udp2tunData (machine : Machine) (s : ClientSession) (st : Udp2Tun) (typ : FrameType)
    (a : Arrival) : Udp2Tun × List ClientEffect :=
  match openData machine s typ a.frame with
  | none => (st, [])
  | some pkt =>
    if pkt.length = 0 then (st, [])
    else if !ingressOk s.innerIp pkt then (st, [])
    else
      match a.write with
      | .written => (st, [.tunWrite pkt])
      | .transient => (st, [.tunWrite pkt])
      | .stopped => ({ st with stop := true }, [.tunWrite pkt])
      | .fatal => (st.lose, [.tunWrite pkt])

def udp2tunDatagram (crypto : Crypto) (machine : Machine) (s : ClientSession) (st : Udp2Tun)
    (a : Arrival) : Udp2Tun × List ClientEffect :=
  if a.frame.length < iwanHdrLen ∨ iwanHdrLen + pumpSlot < a.frame.length then (st, [])
  else if hdrSid a.frame ≠ s.sid ∨ hdrTok a.frame ≠ s.token then (st, [])
  else
    let st := { st with lastRx := a.now }
    match FrameType.ofCode (hdrTyp a.frame) with
    | some .ptClose => if !verifySig crypto a.frame then (st, []) else (st.lose, [])
    | some .ptEchoReq => udp2tunEcho crypto s st a
    | some .ptData => udp2tunData machine s st .ptData a
    | some .ptDataEnc => udp2tunData machine s st .ptDataEnc a
    | _ => (st, [])

def udp2tunStep (crypto : Crypto) (machine : Machine) (s : ClientSession) (staleMs : UInt64)
    (st : Udp2Tun) (e : PumpEvent) : Udp2Tun × List ClientEffect :=
  if st.stop then (st, [])
  else
    match e with
    | .wake now done sent => udp2tunWake crypto s staleMs st now done sent
    | .idle poll => (udp2tunIdle st poll, [])
    | .recvFailed => (st.lose, [])
    -- a batch that is not empty ends the streak of poll errors
    | .datagram a => udp2tunDatagram crypto machine s { st with errPollN := 0 } a

/-- A frame of the session with an acceptable packet in it. -/
structure DownlinkFrame (machine : Machine) (s : ClientSession) (frame pkt : List UInt8) :
    Prop where
  sid : hdrSid frame = s.sid
  tok : hdrTok frame = s.token
  payload : ∃ typ, FrameType.ofCode (hdrTyp frame) = some typ ∧
    (typ = .ptData ∨ typ = .ptDataEnc) ∧ openData machine s typ frame = some pkt
  ingress : ingressOk s.innerIp pkt = true

theorem ingressOk_length (innerIp : UInt32) (pkt : List UInt8)
    (passes : ingressOk innerIp pkt = true) : 20 ≤ pkt.length := by
  unfold ingressOk at passes
  split_ifs at passes with six short
  · exact Nat.le_trans (by decide) (Nat.le_of_not_lt short)
  · cases sane : ipv4PktOk pkt with
    | none =>
      rw [sane] at passes
      cases passes
    | some pair => exact (ipv4PktOk_some pkt pair.1 pair.2 sane).1

def ClientEffect.stackInput : ClientEffect → Option (List UInt8)
  | .nsRxPacket pkt => some pkt
  | .nsRxPacketRef slot => some (slot.drop iwanHdrLen)
  | _ => none

section

variable (crypto : Crypto) (machine : Machine) (dns : List UInt8 → Bool) (cfg : SocksConfig)
  (b : List UInt8) (copy : Bool) (now : UInt64)

theorem vpnHandleDatagram_foreign
    (other : hdrSid b ≠ cfg.session.sid ∨ hdrTok b ≠ cfg.session.token) :
    vpnHandleDatagram crypto machine dns cfg b copy now = (cfg, [], .release) := by
  simp only [vpnHandleDatagram, other, ↓reduceIte]

theorem vpnHandleDatagram_data (pkt : List UInt8)
    (good : DownlinkFrame machine cfg.session b pkt) (long : iwanHdrLen ≤ b.length)
    (fits : pkt.length ≤ cfg.mtu) :
    (vpnHandleDatagram crypto machine dns cfg b copy now).1 = { cfg with lastRx := now } ∧
      ((dns pkt = true ∧ (vpnHandleDatagram crypto machine dns cfg b copy now).2 =
          ([.dnsTryHandleResponse pkt], .release)) ∨
        ∃ handed : ClientEffect, handed.stackInput = some pkt ∧
          (vpnHandleDatagram crypto machine dns cfg b copy now).2 =
            ([.dnsTryHandleResponse pkt, handed], .taken)) := by
  obtain ⟨typ, named, isData, opened⟩ := good.payload
  have named' : ¬ (hdrSid b ≠ cfg.session.sid ∨ hdrTok b ≠ cfg.session.token) := by
    simp only [good.sid, good.tok, ne_eq, not_true_eq_false, or_self, not_false_eq_true]
  have sized : ¬ (pkt.length < 20 ∨ cfg.mtu < pkt.length) := by
    have short := ingressOk_length _ _ good.ingress
    omega
  have handler : vpnHandleDatagram crypto machine dns cfg b copy now =
      ({ cfg with lastRx := now },
        vpnHandleData machine dns { cfg with lastRx := now } typ b copy) := by
    rcases isData with rfl | rfl <;>
      simp only [vpnHandleDatagram, named', ↓reduceIte, named]
  rw [handler]
  refine ⟨rfl, ?_⟩
  simp only [vpnHandleData, opened, sized, ↓reduceIte, good.ingress, Bool.not_true,
    Bool.false_eq_true]
  by_cases consumed : dns pkt = true
  · exact .inl ⟨consumed, by simp only [consumed, ↓reduceIte]⟩
  · right
    simp only [consumed]
    cases copy with
    | true => exact ⟨.nsRxPacket pkt, rfl, rfl⟩
    | false =>
      refine ⟨.nsRxPacketRef (b.take iwanHdrLen ++ pkt), ?_, rfl⟩
      have front : (b.take iwanHdrLen).length = iwanHdrLen := by
        rw [List.length_take, Nat.min_eq_left long]
      simp only [ClientEffect.stackInput, List.drop_left' front]

end

section

variable (crypto : Crypto) (machine : Machine) (s : ClientSession) (staleMs : UInt64)

theorem udp2tunStep_foreign (st : Udp2Tun) (a : Arrival) (running : st.stop = false)
    (other : hdrSid a.frame ≠ s.sid ∨ hdrTok a.frame ≠ s.token) :
    udp2tunStep crypto machine s staleMs st (.datagram a) = ({ st with errPollN := 0 }, []) := by
  simp only [udp2tunStep, running, Bool.false_eq_true, ↓reduceIte, udp2tunDatagram, other, ite_self]

theorem udp2tunDatagram_data (st : Udp2Tun) (a : Arrival) (pkt : List UInt8)
    (good : DownlinkFrame machine s a.frame pkt) (long : iwanHdrLen ≤ a.frame.length)
    (fits : a.frame.length ≤ iwanHdrLen + pumpSlot) :
    (udp2tunDatagram crypto machine s st a).2 = [.tunWrite pkt] := by
  obtain ⟨typ, named, isData, opened⟩ := good.payload
  have whole : ¬ (a.frame.length < iwanHdrLen ∨ iwanHdrLen + pumpSlot < a.frame.length) := by
    omega
  have named' : ¬ (hdrSid a.frame ≠ s.sid ∨ hdrTok a.frame ≠ s.token) := by
    simp only [good.sid, good.tok, ne_eq, not_true_eq_false, or_self, not_false_eq_true]
  have nonempty : pkt.length ≠ 0 := by
    have short := ingressOk_length _ _ good.ingress
    omega
  have handler : udp2tunDatagram crypto machine s st a =
      udp2tunData machine s { st with lastRx := a.now } typ a := by
    rcases isData with rfl | rfl <;>
      simp only [udp2tunDatagram, whole, ↓reduceIte, named', named]
  rw [handler]
  simp only [udp2tunData, opened, nonempty, ↓reduceIte, good.ingress, Bool.not_true,
    Bool.false_eq_true]
  cases a.write <;> rfl

theorem udp2tunRun_data (st : Udp2Tun) (front back : List PumpEvent) (a : Arrival)
    (pkt : List UInt8) (good : DownlinkFrame machine s a.frame pkt)
    (long : iwanHdrLen ≤ a.frame.length) (fits : a.frame.length ≤ iwanHdrLen + pumpSlot)
    (running : (Trace.final (udp2tunStep crypto machine s staleMs) st front).stop = false) :
    ∃ later, Trace.emitted (udp2tunStep crypto machine s staleMs) st
        (front ++ .datagram a :: back) =
      Trace.emitted (udp2tunStep crypto machine s staleMs) st front ++ .tunWrite pkt :: later := by
  rw [Trace.emitted_append, Trace.emitted_cons]
  have here : (udp2tunStep crypto machine s staleMs
      (Trace.final (udp2tunStep crypto machine s staleMs) st front) (.datagram a)).2 =
        [.tunWrite pkt] := by
    simp only [udp2tunStep, running, Bool.false_eq_true, ↓reduceIte]
    exact udp2tunDatagram_data crypto machine s _ a pkt good long fits
  rw [here]
  exact ⟨_, rfl⟩

end

end Iwan
