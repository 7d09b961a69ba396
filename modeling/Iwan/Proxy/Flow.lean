import Iwan.Lib.Scan
import Iwan.Proxy.Parse

/- One client of the lwIP proxy and its handshake (socks_flow.c). -/
namespace Iwan

open BigEndian

inductive FlowState where
  | greeting
  | request
  | resolving
  | connecting
  | established
  | closing
deriving DecidableEq, Repr

/-- An accepted client; addresses and ports in host order, `.domain` a family not known yet. -/
structure Flow where
  active : Bool
  id : UInt64
  fdOpen : Bool
  peerIp : UInt32
  state : FlowState
  input : List UInt8
  output : List UInt8
  nsIdx : Option Nat
  lport : UInt16
  localEof : Bool
  stateMs : UInt64
  lastProgressMs : UInt64
  authPending : Bool
  httpMode : Bool
  httpConnect : Bool
  httpScanOff : Nat
  rxPaused : Bool
  rxqWaiting : Bool
  errRounds : UInt8
  targetAf : PpAf
  dnsPending : Nat
  replySent : Bool
  tgtAf : PpAf
  tgtIp4 : UInt32
  tgtIp6 : List UInt8
  tgtPort : UInt16
deriving DecidableEq, Repr

def maxFlows : Nat := 256

def Flow.accepted (id : UInt64) (peerIp : UInt32) (now : UInt64) : Flow where
  active := true
  id := id
  fdOpen := true
  peerIp := peerIp
  state := .greeting
  input := []
  output := []
  nsIdx := none
  lport := 0
  localEof := false
  stateMs := now
  lastProgressMs := now
  authPending := false
  httpMode := false
  httpConnect := false
  httpScanOff := 0
  rxPaused := false
  rxqWaiting := false
  errRounds := 0
  targetAf := .domain
  dnsPending := 0
  replySent := false
  tgtAf := .domain
  tgtIp4 := 0
  tgtIp6 := List.replicate 16 0
  tgtPort := 0

/-- The settings of the proxy that the handshake reads. -/
structure SocksCfg where
  authToken : Option (List UInt8)
  ipv6 : Bool
  ssrfOff : Bool

def queueFlowOutput (f : Flow) (data : List UInt8) : Flow := { f with output := f.output ++ data }

def setFlowState (now : UInt64) (f : Flow) (st : FlowState) : Flow :=
  { f with state := st, stateMs := now }

def socksReplyFrame (rep : UInt8) (bndIp : UInt32) (bndPort : UInt16) : List UInt8 :=
  [5, rep, 0, 1] ++ bytes32 bndIp ++ bytes16 bndPort

def badGateway : List UInt8 := ascii "HTTP/1.1 502 Bad Gateway\r\n\r\n"

def errorReply (f : Flow) (rep : UInt8) : List UInt8 :=
  if f.httpMode then badGateway else socksReplyFrame rep 0 0

def queueSocksError (now : UInt64) (f : Flow) (rep : UInt8) : Flow :=
  -- once the success reply is queued, every byte after it belongs to the tunnel
  if f.replySent then setFlowState now f .closing
  else setFlowState now (queueFlowOutput f (errorReply f rep)) .closing

def authReject (now : UInt64) (f : Flow) : Flow :=
  setFlowState now (queueFlowOutput f [1, 1]) .closing

def greetReject (now : UInt64) (f : Flow) : Flow :=
  setFlowState now (queueFlowOutput f [5, 0xff]) .closing

inductive TargetAddr where
  | v4 (rip : UInt32)
  | v6 (rip6 : List UInt8)
deriving DecidableEq, Repr

def socksPeerIsLoopback (f : Flow) : Bool := f.peerIp &&& 0xff000000 = 0x7f000000

def hostLocal4 (p : List UInt8) : Bool :=
  byteAt p 0 = 0 ∨ byteAt p 0 = 127 ∨ (byteAt p 0 = 169 ∧ byteAt p 1 = 254)

def socksTargetBlocked (cfg : SocksCfg) (f : Flow) (addr : TargetAddr) : Bool :=
  if cfg.ssrfOff ∨ socksPeerIsLoopback f then false
  else
    match addr with
    | .v4 rip => hostLocal4 (bytes32 rip)
    | .v6 p =>
      if p.take 16 = List.replicate 15 0 ++ [1] then true
      else if p.take 16 = List.replicate 16 0 then true
      else if byteAt p 0 = 0xfe ∧ byteAt p 1 &&& 0xc0 = 0x80 then true
      else if p.take 12 = List.replicate 10 0 ++ [0xff, 0xff] then hostLocal4 (p.drop 12)
      else false

/-- What a flow starts: a connection or a lookup. -/
inductive Dispatch where
  | openTcpConn (addr : TargetAddr) (port : UInt16)
  | spawnDns (domain : List UInt8) (port : UInt16)
deriving DecidableEq, Repr

def flowOpenGated (cfg : SocksCfg) (now : UInt64) (f : Flow) (addr : TargetAddr)
    (port : UInt16) : Flow × Option Dispatch :=
  if socksTargetBlocked cfg f addr then (queueSocksError now f 2, none)
  else (f, some (.openTcpConn addr port))

def PpTarget.rip (t : PpTarget) : UInt32 :=
  be32 (byteAt t.ip4 0) (byteAt t.ip4 1) (byteAt t.ip4 2) (byteAt t.ip4 3)

def flowStartTarget (cfg : SocksCfg) (now : UInt64) (f : Flow) (t : PpTarget) :
    Flow × Option Dispatch :=
  match t.af with
  | .v4 => flowOpenGated cfg now { f with targetAf := .v4 } (.v4 t.rip) t.port
  | .v6 =>
    if ¬ cfg.ipv6 then (queueSocksError now f 8, none)
    else flowOpenGated cfg now { f with targetAf := .v6 } (.v6 t.ip6) t.port
  | .domain =>
    -- the resolver takes the name as a C string
    (setFlowState now { f with targetAf := .domain } .resolving,
      some (.spawnDns (cString t.host) t.port))

def consumeInput (f : Flow) (n : Nat) : Flow := { f with input := f.input.drop n }

/-- What the handshake calls outside the flow. -/
inductive HandshakeCall where
  | authFailNote (success : Bool)
  | flowStartTarget (t : PpTarget)
deriving DecidableEq, Repr

def isLineEnd (c : UInt8) : Bool := c = 0x0d ∨ c = 0x0a

def isSpace (c : UInt8) : Bool := c = 0x20

def notSpace (c : UInt8) : Bool := c ≠ 0x20

def endsHeader (d : List UInt8) (i : Nat) : Bool :=
  byteAt d (i - 3) = 0x0d ∧ byteAt d (i - 2) = 0x0a ∧ byteAt d (i - 1) = 0x0d ∧ byteAt d i = 0x0a

def scanHeader (d : List UInt8) (start : Nat) : Option Nat :=
  (List.range' start (d.length - start)).find? (endsHeader d)

def httpHandshake (pton : InetPton) (now : UInt64) (f : Flow) : Flow × List HandshakeCall :=
  let d := f.input
  let n := d.length
  let start := if f.httpScanOff < 3 ∨ n < f.httpScanOff then 3 else f.httpScanOff
  match scanHeader d start with
  | none => ({ f with httpScanOff := if 3 ≤ n then n - 3 else 0 }, [])
  | some last =>
    let hdr := last + 1
    let eol := scan isLineEnd d 0 n
    let mn := scan isSpace d 0 eol
    if mn = 0 ∨ eol ≤ mn then (queueSocksError now f 5, [])
    else
      let f := { f with httpConnect := mn = 7 ∧ d.take 7 = ascii "CONNECT" }
      let ts := scan notSpace d (mn + 1) eol
      if eol ≤ ts then (queueSocksError now f 5, [])
      else
        match ppHttpTarget pton ((d.drop ts).take (eol - ts)) f.httpConnect with
        | none => (queueSocksError now f 5, [])
        | some t => (if f.httpConnect then consumeInput f hdr else f, [.flowStartTarget t])

def handshakeAuth (cfg : SocksCfg) (now : UInt64) (f : Flow) :
    Bool × Flow × List HandshakeCall :=
  match ppSocksAuthFrame f.input 64 with
  | none => (false, f, [])
  | some .malformed => (false, authReject now f, [])
  | some .oversized => (false, authReject now f, [])
  | some (.valid _ pass) =>
    let nm := 2 + (byteAt f.input 1).toNat + 1 + pass.length
    let f := { consumeInput f nm with authPending := false }
    if ppSocksAuthOk pass cfg.authToken then
      (true, setFlowState now (queueFlowOutput f [1, 0]) .request, [.authFailNote true])
    else (false, authReject now f, [.authFailNote false])

def handshakeGreeting (cfg : SocksCfg) (pton : InetPton) (now : UInt64) (f : Flow) :
    Bool × Flow × List HandshakeCall :=
  if f.authPending then handshakeAuth cfg now f
  else if f.input.length < 2 then (false, f, [])
  else if byteAt f.input 0 ≠ 5 ∧ cfg.authToken = none then
    match ppHttpProbe f.input with
    | .http => (false, httpHandshake pton now { f with httpMode := true })
    | .wait => (false, f, [])
    | .other => (false, greetReject now f, [])
  else if byteAt f.input 0 ≠ 5 then (false, greetReject now f, [])
  else
    match ppSocksGreeting f.input cfg.authToken.isSome with
    | none => (false, f, [])
    | some offered =>
      let method := ppSocksPickMethod cfg.authToken.isSome offered
      if method = 0xff then (false, greetReject now f, [])
      else
        let f := consumeInput f (2 + (byteAt f.input 1).toNat)
        if method = 2 then (false, { queueFlowOutput f [5, 2] with authPending := true }, [])
        else (true, setFlowState now (queueFlowOutput f [5, 0]) .request, [])

def handshakeRequest (now : UInt64) (f : Flow) : Flow × List HandshakeCall :=
  match ppSocksRequest f.input with
  | none => (f, [])
  | some (.refused rep) => (queueSocksError now f rep, [])
  | some (.target t) =>
    match t.af with
    | .v4 => (consumeInput f 10, [.flowStartTarget t])
    | .v6 => (consumeInput f 22, [.flowStartTarget t])
    | .domain => (consumeInput f (5 + (byteAt f.input 4).toNat + 2), [.flowStartTarget t])

def handedOver (calls : List HandshakeCall) : Bool :=
  calls.any fun | .flowStartTarget _ => true | .authFailNote _ => false

def handshakePasses (cfg : SocksCfg) (pton : InetPton) (now : UInt64) :
    Nat → Flow → Flow × List HandshakeCall
  | 0, f => (f, [])
  | pass + 1, f =>
    match f.state with
    | .greeting =>
      if f.httpMode then httpHandshake pton now f
      else
        let (again, f', calls) := handshakeGreeting cfg pton now f
        let next := handshakePasses cfg pton now pass f'
        -- flow_start_target leaves the two states that the loop goes on in
        if handedOver calls then (f', calls)
        else if again then
          if f'.state = .request ∧ 0 < f'.input.length then (next.1, calls ++ next.2)
          else (f', calls)
        else if f.input.length ≤ f'.input.length then (f', calls)
        else (next.1, calls ++ next.2)
    | .request => handshakeRequest now f
    | _ => (f, [])

def processSocksHandshake (cfg : SocksCfg) (pton : InetPton) (now : UInt64) (f : Flow) :
    Flow × List HandshakeCall := handshakePasses cfg pton now 3 f

end Iwan
