import Iwan.Proxy.TxQueue
import Iwan.Proxy.Flow

/- The flow table of the lwIP proxy and its slots (socks_flow.c). -/
namespace Iwan

/-- What the flow table sees of a slot. -/
structure SlotConn where
  pcb : Bool
  reapPending : Bool
  rxq : Nat
deriving DecidableEq, Repr

def SlotConn.clear : SlotConn := ⟨false, false, 0⟩

def SlotConn.gone : SlotConn := ⟨false, true, 0⟩

/-- `refs` is g_flow_ref, `connects` records every ns_connect, `cursor` is the place of a re-auth.
-/
structure ProxyPlane where
  flows : Nat → Flow
  refs : Nat → Bool
  conns : Nat → SlotConn
  connects : List (UInt32 × TargetAddr)
  cursor : Option Nat

def ProxyPlane.start : ProxyPlane :=
  ⟨fun _ => { Flow.accepted 0 0 0 with active := false }, fun _ => false, fun _ => .clear, [], none⟩

def ProxyPlane.setFlow (s : ProxyPlane) (slot : Nat) (f : Flow) : ProxyPlane :=
  { s with flows := Function.update s.flows slot f }

def ProxyPlane.setConn (s : ProxyPlane) (idx : Nat) (c : SlotConn) : ProxyPlane :=
  { s with conns := Function.update s.conns idx c }

def nsFlowRef (s : ProxyPlane) (idx : Nat) : ProxyPlane :=
  if nsMaxConn ≤ idx then s else { s with refs := Function.update s.refs idx true }

def nsFlowUnref (s : ProxyPlane) (idx : Nat) : ProxyPlane :=
  if nsMaxConn ≤ idx then s else { s with refs := Function.update s.refs idx false }

def connSlotAlloc (s : ProxyPlane) : Option Nat :=
  (List.range nsMaxConn).find? fun i =>
    !(s.conns i).pcb && !(s.conns i).reapPending && !s.refs i

/-- What the lwIP calls of a connect come to. -/
structure ConnectInput where
  ok : Bool
  stale : Nat → Bool

def connSweepStaleBut (s : ProxyPlane) (idx : Nat) (stale : Nat → Bool) : ProxyPlane :=
  { s with conns := fun k => if k ≠ idx ∧ (s.conns k).pcb = true ∧ stale k = true then .gone
                             else s.conns k }

def nsConnect (s : ProxyPlane) (f : Flow) (addr : TargetAddr) (i : ConnectInput) :
    ProxyPlane × Option Nat :=
  let s := { s with connects := s.connects ++ [(f.peerIp, addr)] }
  match connSlotAlloc s with
  | none => (s, none)
  | some idx =>
    let s := connSweepStaleBut (s.setConn idx ⟨i.ok, false, 0⟩) idx i.stale
    (s, if i.ok then some idx else none)

def flowIdle (s : ProxyPlane) (self : Nat) (now : UInt64) (k : Nat) : Bool :=
  let f := s.flows k
  f.active && k != self && f.state == .established && f.output.isEmpty && !f.rxqWaiting &&
    (match f.nsIdx with
      | none => false
      | some idx => (s.conns idx).rxq == 0) &&
    !decide (now - f.lastProgressMs < 1000)

/-- The idle flow with the oldest progress. -/
def stalestIdle (s : ProxyPlane) (self : Nat) (now : UInt64) : Option Nat :=
  (List.range maxFlows).foldl (fun best k =>
    if flowIdle s self now k then
      match best with
      | none => some k
      | some b => if (s.flows k).lastProgressMs < (s.flows b).lastProgressMs then some k else best
    else best) none

def evictFlow (s : ProxyPlane) (now : UInt64) (k : Nat) : ProxyPlane :=
  let v := s.flows k
  match v.nsIdx with
  | none => s
  | some idx =>
    -- ns_abort and then the guard that it set is taken back
    let s := nsFlowUnref (s.setConn idx { s.conns idx with
      pcb := false, reapPending := false,
      rxq := if (s.conns idx).pcb then 0 else (s.conns idx).rxq }) idx
    s.setFlow k (setFlowState now { v with nsIdx := none, localEof := true } .closing)

/-- What a connect and its retry meet. -/
structure OpenInput where
  now : UInt64
  lport : UInt16
  first : ConnectInput
  second : ConnectInput

def attachFlow (s : ProxyPlane) (slot : Nat) (i : OpenInput) (f : Flow) (idx : Nat)
    (addr : TargetAddr) (port : UInt16) : ProxyPlane :=
  let f := { f with nsIdx := some idx, lport := i.lport, tgtPort := port }
  (nsFlowRef s idx).setFlow slot (match addr with
    | .v4 rip => setFlowState i.now { f with tgtAf := .v4, tgtIp4 := rip } .connecting
    | .v6 rip6 => setFlowState i.now { f with tgtAf := .v6, tgtIp6 := rip6 } .connecting)

/-- open_tcp_conn_af: connects, and evicts an idle flow to try again. -/
def openTcpConnAf (s : ProxyPlane) (slot : Nat) (f : Flow) (addr : TargetAddr) (port : UInt16)
    (i : OpenInput) : ProxyPlane :=
  let s := s.setFlow slot f
  if i.lport = 0 then s.setFlow slot (queueSocksError i.now f 1)
  else
    match nsConnect s f addr i.first with
    | (s, some idx) => attachFlow s slot i f idx addr port
    | (s, none) =>
      match stalestIdle s slot i.now with
      | none => s.setFlow slot (queueSocksError i.now f 1)
      | some k =>
        match nsConnect (evictFlow s i.now k) f addr i.second with
        | (s, some idx) => attachFlow s slot i f idx addr port
        | (s, none) => s.setFlow slot (queueSocksError i.now f 1)

def dispatchFlow (s : ProxyPlane) (slot : Nat) (i : OpenInput) (out : Flow × Option Dispatch) :
    ProxyPlane :=
  match out with
  | (f, none) => s.setFlow slot f
  | (f, some (.spawnDns _ _)) => s.setFlow slot f
  | (f, some (.openTcpConn addr port)) => openTcpConnAf s slot f addr port i

def dnsAnswered (cfg : SocksCfg) (now : UInt64) (f : Flow) (addr : TargetAddr) (port : UInt16) :
    Flow × Option Dispatch :=
  match addr with
  | .v4 rip => flowOpenGated cfg now f (.v4 rip) port
  | .v6 ip6 => flowOpenGated cfg now { f with targetAf := .v6 } (.v6 ip6) port

/-- A flow is detached from its slot with the reference. -/
def detachFlow (s : ProxyPlane) (slot : Nat) (g : Flow) : ProxyPlane :=
  match (s.flows slot).nsIdx with
  | none => s
  | some idx => (nsFlowUnref s idx).setFlow slot { g with nsIdx := none }

/-- flow_free: the slot's reference goes with the flow. -/
def flowFree (s : ProxyPlane) (slot : Nat) : ProxyPlane :=
  let f := s.flows slot
  if f.active = false then s
  else
    let s := match f.nsIdx with
      | none => s
      | some idx => nsFlowUnref s idx
    s.setFlow slot
      { f with active := false, fdOpen := false, input := [], output := [], nsIdx := none }

def failResolving (now : UInt64) (f : Flow) : Flow :=
  if f.active = true ∧ f.state = .resolving then
    setFlowState now (queueSocksError now { f with nsIdx := none } 4) .closing
  else f

/-- A pass of socks_reauth_flows. -/
def reauthFlow (s : ProxyPlane) (slot : Nat) (i : OpenInput) : ProxyPlane :=
  let f := s.flows slot
  if f.active = false then s
  else if f.state = .resolving then
    s.setFlow slot (setFlowState i.now (queueSocksError i.now { f with nsIdx := none } 4) .closing)
  else if f.nsIdx = none then s
  else if f.state ≠ .connecting ∧ f.state ≠ .established then
    s.setFlow slot { f with nsIdx := none }
  else
    let f := { f with nsIdx := none, rxPaused := false }
    match f.tgtAf with
    | .v6 => openTcpConnAf s slot f (.v6 f.tgtIp6) f.tgtPort i
    | .v4 => openTcpConnAf s slot f (.v4 f.tgtIp4) f.tgtPort i
    | .domain => s.setFlow slot (setFlowState i.now (queueSocksError i.now f 1) .closing)

def nextCursor (k : Nat) : Option Nat := if k + 1 < maxFlows then some (k + 1) else none

def FlowState.early : FlowState → Bool
  | .greeting => true
  | .request => true
  | .resolving => true
  | .connecting => false
  | .established => false
  | .closing => false

/-- What the event loop may do to a flow: peer and target stay, the handshake is not resumed. -/
def Flow.Proceeds (f g : Flow) : Prop :=
  f.active = true ∧ g.active = true ∧ g.peerIp = f.peerIp ∧ g.tgtAf = f.tgtAf ∧
    g.tgtIp4 = f.tgtIp4 ∧ g.tgtIp6 = f.tgtIp6 ∧
    (g.state.early = true → f.state.early = true) ∧
    (g.state = .connecting ∨ g.state = .established →
      f.state = .connecting ∨ f.state = .established)

instance (f g : Flow) : Decidable (f.Proceeds g) := by
  unfold Flow.Proceeds
  infer_instance

/-- The steps of the event loop and of a re-auth. -/
inductive ProxyEvent where
  | accept (slot : Nat) (id : UInt64) (peerIp : UInt32) (now : UInt64)
  | target (slot : Nat) (t : PpTarget) (i : OpenInput)
  | answer (slot : Nat) (addr : TargetAddr) (port : UInt16) (i : OpenInput)
  | proceed (slot : Nat) (g : Flow)
  | detach (slot : Nat) (g : Flow)
  | free (slot : Nat)
  | stack (conns : Nat → SlotConn)
  | renew (now : UInt64)
  | rebuild
  | pass (i : OpenInput)

def proxyStep (cfg : SocksCfg) (s : ProxyPlane) (e : ProxyEvent) : ProxyPlane × List Empty :=
  match s.cursor with
  | some k =>
    match e with
    | .pass i => ({ reauthFlow s k i with cursor := nextCursor k }, [])
    | _ => (s, [])
  | none =>
    match e with
    | .accept slot id peerIp now =>
      (if slot < maxFlows ∧ (s.flows slot).active = false then
        s.setFlow slot (Flow.accepted id peerIp now) else s, [])
    | .target slot t i =>
      (if slot < maxFlows ∧ (s.flows slot).active = true ∧
          ((s.flows slot).state = .greeting ∨ (s.flows slot).state = .request) then
        dispatchFlow s slot i (flowStartTarget cfg i.now (s.flows slot) t) else s, [])
    | .answer slot addr port i =>
      (if slot < maxFlows ∧ (s.flows slot).active = true ∧
          (s.flows slot).state = .resolving then
        dispatchFlow s slot i (dnsAnswered cfg i.now (s.flows slot) addr port) else s, [])
    | .proceed slot g =>
      (if slot < maxFlows ∧ (s.flows slot).Proceeds g ∧ g.nsIdx = (s.flows slot).nsIdx then
        s.setFlow slot g else s, [])
    | .detach slot g =>
      (if slot < maxFlows ∧ (s.flows slot).Proceeds g then detachFlow s slot g else s, [])
    | .free slot => (if slot < maxFlows then flowFree s slot else s, [])
    | .stack conns => ({ s with conns := conns }, [])
    | .renew now => ({ s with flows := fun k => failResolving now (s.flows k) }, [])
    | .rebuild =>
      ({ s with refs := fun _ => false, conns := fun _ => .clear, cursor := some 0 }, [])
    | .pass _ => (s, [])

end Iwan
