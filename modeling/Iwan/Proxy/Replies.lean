import Iwan.Proxy.DnsRing
import Iwan.Proxy.TcpConn

/- What a client of the lwIP proxy reads (socks_flow.c, socks.c). -/
namespace Iwan

open BigEndian

/-- A client, with what was written to it and whether it was payload. -/
structure Client where
  flow : Flow
  conn : Option (List UInt8)
  written : List (Bool × UInt8)

def Client.start (id : UInt64) (peerIp : UInt32) (now : UInt64) : Client :=
  ⟨Flow.accepted id peerIp now, none, []⟩

def openedFlow (now : UInt64) (opened : Option (Nat × UInt16)) (f : Flow) (addr : TargetAddr)
    (port : UInt16) : Flow :=
  match opened with
  | none => queueSocksError now f 1
  | some (idx, lport) =>
    let f := { f with nsIdx := some idx, lport := lport, tgtPort := port }
    match addr with
    | .v4 rip => setFlowState now { f with tgtAf := .v4, tgtIp4 := rip } .connecting
    | .v6 rip6 => setFlowState now { f with tgtAf := .v6, tgtIp6 := rip6 } .connecting

def targetFlow (cfg : SocksCfg) (now : UInt64) (opened : Option (Nat × UInt16)) (f : Flow)
    (t : PpTarget) : Flow :=
  match flowStartTarget cfg now f t with
  | (f, none) => f
  | (f, some (.spawnDns _ _)) => f
  | (f, some (.openTcpConn addr port)) => openedFlow now opened f addr port

def targetOf : HandshakeCall → Option PpTarget
  | .authFailNote _ => none
  | .flowStartTarget t => some t

def handshakeFlow (cfg : SocksCfg) (pton : InetPton) (now : UInt64)
    (opened : Option (Nat × UInt16)) (f : Flow) : Flow :=
  let out := processSocksHandshake cfg pton now f
  match out.2.findSome? targetOf with
  | none => out.1
  | some t => targetFlow cfg now opened out.1 t

def okHeader : List UInt8 := ascii "HTTP/1.1 200 Connection Established\r\n\r\n"

def socksReply6Frame (rep : UInt8) (bnd6 : List UInt8) (bndPort : UInt16) : List UInt8 :=
  [5, rep, 0, 4] ++ bnd6 ++ bytes16 bndPort

def successReply (ip : UInt32) (f : Flow) : List UInt8 :=
  if f.httpConnect then okHeader
  else if f.httpMode then []
  else if f.targetAf = .v6 then socksReply6Frame 0 (ip6DeriveUla ip).toList f.lport
  else socksReplyFrame 0 ip f.lport

inductive ConnSeen where
  | up
  | closed (timeout : Bool)
  | pending
deriving DecidableEq, Repr

def updateTcpState (now : UInt64) (ip : UInt32) (late : Bool) (conn : ConnSeen) (f : Flow) :
    Flow :=
  match f.state with
  | .closing => f
  | .established => f
  | .connecting =>
    match conn with
    | .up =>
      let f := if f.replySent then f
        else { queueFlowOutput f (successReply ip f) with replySent := true }
      setFlowState now f .established
    | .closed timeout =>
      let f := { f with nsIdx := none }
      if f.replySent then setFlowState now f .closing
      else queueSocksError now f (if timeout then 4 else 5)
    | .pending =>
      if late = false then f
      else if f.replySent then setFlowState now f .closing
      else queueSocksError now f 4
  | _ =>
    if late = false then f
    else if f.httpMode then queueSocksError now f 5
    else setFlowState now f .closing

def reauthClient (now : UInt64) (rebuilt : Bool) (opened : Option (Nat × UInt16)) (f : Flow) :
    Flow :=
  if f.state = .resolving then
    setFlowState now (queueSocksError now { f with nsIdx := none } 4) .closing
  else if rebuilt = false ∨ f.nsIdx = none then f
  else if f.state ≠ .connecting ∧ f.state ≠ .established then { f with nsIdx := none }
  else
    let f := { f with nsIdx := none, rxPaused := false }
    match f.tgtAf with
    | .v6 => openedFlow now opened f (.v6 f.tgtIp6) f.tgtPort
    | .v4 => openedFlow now opened f (.v4 f.tgtIp4) f.tgtPort
    | .domain => setFlowState now (queueSocksError now f 1) .closing

inductive ClientWrite where
  | took (n : Nat)
  | again
  | failed
deriving DecidableEq, Repr

def Flow.write (f : Flow) (r : ClientWrite) : ClientWrite := if f.fdOpen then r else .failed

def Client.broken (c : Client) (now : UInt64) : Client :=
  { c with
    flow := setFlowState now { c.flow with localEof := true, output := [], rxqWaiting := false }
      .closing
    conn := none }

def drainOutput (now : UInt64) : List ClientWrite → Client → Client
  | [], c => c
  | r :: rest, c =>
    if c.flow.output = [] then c
    else
      match c.flow.write r with
      | .took 0 => c.broken now
      | .took n =>
        drainOutput now rest { c with
          flow := { c.flow with output := c.flow.output.drop n, lastProgressMs := now }
          written := c.written ++ (c.flow.output.take n).map (false, ·) }
      | .again => c
      | .failed => c.broken now

def drainQueue (now : UInt64) (r : ClientWrite) (c : Client) : Client :=
  if c.flow.nsIdx ≠ none ∧ c.flow.output = [] ∧ c.flow.replySent = true then
    match c.conn with
    | none => { c with flow := { c.flow with rxqWaiting := false } }
    | some [] => { c with flow := { c.flow with rxqWaiting := false } }
    | some queue =>
      match c.flow.write r with
      | .took 0 => { c with flow := { c.flow with rxqWaiting := true } }
      | .took n =>
        let n := min n (min queue.length localWriteLimit)
        { flow := { c.flow with rxqWaiting := n ≠ queue.length, lastProgressMs := now }
          conn := some (queue.drop n)
          written := c.written ++ (queue.take n).map (true, ·) }
      | .again => { c with flow := { c.flow with rxqWaiting := true } }
      | .failed => c.broken now
  else c

def serviceLocalOutput (now : UInt64) (sends : List ClientWrite) (last : ClientWrite)
    (c : Client) : Client :=
  drainQueue now last (drainOutput now sends c)

def Flow.Silent (f g : Flow) : Prop :=
  g.output = f.output ∧ g.replySent = f.replySent ∧ g.authPending = f.authPending ∧
    g.httpMode = f.httpMode ∧ g.httpConnect = f.httpConnect ∧
    (g.fdOpen = f.fdOpen ∨ g.fdOpen = false) ∧ (g.state = f.state ∨ g.state = .closing)

instance (f g : Flow) : Decidable (f.Silent g) := by
  unfold Flow.Silent
  infer_instance

def Client.queueAfter (c : Client) (g : Flow) : Option (List UInt8) :=
  if c.flow.state ≠ .connecting ∧ g.state = .connecting then some [] else c.conn

/-- `deliver` and `lost` are the stack's, `silent` is every other change of the flow. -/
inductive ClientEvent where
  | handshake (now : UInt64) (opened : Option (Nat × UInt16))
  | result (now : UInt64) (x : DnsResult) (opened : Option (Nat × UInt16))
  | update (now : UInt64) (ip : UInt32) (late : Bool) (conn : ConnSeen)
  | outputs (now : UInt64) (sends : List ClientWrite) (last : ClientWrite)
  | reauth (now : UInt64) (rebuilt : Bool) (opened : Option (Nat × UInt16))
  | deliver (data : List UInt8)
  | lost
  | silent (g : Flow)
  | discard (now : UInt64)

def clientStep (cfg : SocksCfg) (pton : InetPton) (c : Client) (e : ClientEvent) :
    Client × List Empty :=
  match e with
  | .handshake now opened =>
    let g := handshakeFlow cfg pton now opened c.flow
    ({ c with flow := g, conn := c.queueAfter g }, [])
  | .result now x opened =>
    if c.flow.state = .resolving then
      let g := dnsVerdict cfg now opened x c.flow
      ({ c with flow := g, conn := c.queueAfter g }, [])
    else (c, [])
  | .update now ip late conn => ({ c with flow := updateTcpState now ip late conn c.flow }, [])
  | .outputs now sends last => (serviceLocalOutput now sends last c, [])
  | .reauth now rebuilt opened =>
    let g := reauthClient now rebuilt opened c.flow
    -- the old connections are gone with the stack that had them
    let conn := if rebuilt = false then c.conn else if g.nsIdx = none then none else some []
    ({ c with flow := g, conn := conn }, [])
  | .deliver data => ({ c with conn := c.conn.map (· ++ data) }, [])
  | .lost => ({ c with conn := none }, [])
  | .silent g => (if c.flow.Silent g then { c with flow := g } else c, [])
  -- wait_events drops the output of a dead client with the descriptor, reap_flows with the flow
  | .discard now =>
    ({ c with
      flow := setFlowState now
        { c.flow with output := [], rxqWaiting := false, localEof := true, fdOpen := false }
        .closing }, [])

def Opening (script : List UInt8) : Prop :=
  script = [] ∨ script = [5, 2] ∨ script = [5, 0] ∨ script = [5, 2] ++ [1, 0]

def IsErrorReply (e : List UInt8) : Prop :=
  e = badGateway ∨ ∃ rep, rep ≠ 0 ∧ e = socksReplyFrame rep 0 0

def Refusal (script : List UInt8) : Prop :=
  script = [5, 0xff] ∨ script = [5, 2] ++ [1, 1] ∨ Opening script ∨
    ∃ o e, Opening o ∧ IsErrorReply e ∧ script = o ++ e

def Success (f : Flow) (script : List UInt8) : Prop :=
  ∃ o ip g, Opening o ∧ g.httpMode = f.httpMode ∧ g.httpConnect = f.httpConnect ∧
    script = o ++ successReply ip g

/-- What a client has been told so far. -/
structure Told (f : Flow) (script : List UInt8) : Prop where
  early : f.state = .greeting ∨ f.state = .request → f.replySent = false
  first : f.state = .greeting → f.authPending = false → script = []
  second : f.state = .greeting → f.authPending = true → script = [5, 2]
  opening : f.replySent = false → f.state ≠ .closing → Opening script
  refusal : f.replySent = false → f.state = .closing → Refusal script
  success : f.replySent = true → Success f script

/-- A step adds to it. -/
structure Spoke (f g : Flow) (added : List UInt8) : Prop where
  output : g.output = f.output ++ added
  fd : g.fdOpen = f.fdOpen
  told : ∀ script, Told f script → Told g (script ++ added)
  quiet : ∀ script, Told f script → f.replySent = true → added = [] ∧ g.replySent = true
  closed : f.state = .closing → added = [] ∧ g.state = .closing

def Speaks (f g : Flow) : Prop := ∃ added, Spoke f g added

variable {f g : Flow}

theorem Speaks.trans {h : Flow} (one : Speaks f g) (two : Speaks g h) : Speaks f h := by
  obtain ⟨front, one⟩ := one
  obtain ⟨back, two⟩ := two
  refine ⟨front ++ back, ?_, two.fd.trans one.fd, ?_, ?_, ?_⟩
  · rw [two.output, one.output, List.append_assoc]
  · intro script told
    rw [← List.append_assoc]
    exact two.told _ (one.told script told)
  · intro script told sent
    obtain ⟨none, sent'⟩ := one.quiet script told sent
    obtain ⟨none', sent''⟩ := two.quiet _ (one.told script told) sent'
    exact ⟨by rw [none, none', List.append_nil], sent''⟩
  · intro closing
    obtain ⟨none, closing'⟩ := one.closed closing
    obtain ⟨none', closing''⟩ := two.closed closing'
    exact ⟨by rw [none, none', List.append_nil], closing''⟩

variable {script : List UInt8}

theorem Success.congr (success : Success f script)
    (mode : g.httpMode = f.httpMode) (connect : g.httpConnect = f.httpConnect) :
    Success g script := by
  obtain ⟨o, ip, h, opening, mode', connect', script'⟩ := success
  exact ⟨o, ip, h, opening, mode'.trans mode.symm, connect'.trans connect.symm, script'⟩

theorem Told.same (told : Told f script)
    (state : g.state = f.state) (reply : g.replySent = f.replySent)
    (auth : g.authPending = f.authPending)
    (http : f.state = .greeting ∨ (g.httpMode = f.httpMode ∧ g.httpConnect = f.httpConnect)) :
    Told g script := by
  refine ⟨?_, ?_, ?_, ?_, ?_, ?_⟩
  · rw [state, reply]
    exact told.early
  · rw [state, auth]
    exact told.first
  · rw [state, auth]
    exact told.second
  · rw [state, reply]
    exact told.opening
  · rw [state, reply]
    exact told.refusal
  · intro sent
    rw [reply] at sent
    rcases http with greeting | ⟨mode, connect⟩
    · simp [told.early (.inl greeting)] at sent
    · exact (told.success sent).congr mode connect

theorem Speaks.same (output : g.output = f.output) (fd : g.fdOpen = f.fdOpen)
    (state : g.state = f.state) (reply : g.replySent = f.replySent)
    (auth : g.authPending = f.authPending)
    (http : f.state = .greeting ∨ (g.httpMode = f.httpMode ∧ g.httpConnect = f.httpConnect)) :
    Speaks f g := by
  refine ⟨[], by rw [output, List.append_nil], fd, ?_, ?_, ?_⟩
  · intro script told
    rw [List.append_nil]
    exact told.same state reply auth http
  · exact fun _ _ sent => ⟨rfl, reply.trans sent⟩
  · exact fun closing => ⟨rfl, state.trans closing⟩

theorem Speaks.refl (f : Flow) : Speaks f f := Speaks.same rfl rfl rfl rfl rfl (.inr ⟨rfl, rfl⟩)

theorem Speaks.advance (output : g.output = f.output) (fd : g.fdOpen = f.fdOpen)
    (reply : g.replySent = f.replySent) (mode : g.httpMode = f.httpMode)
    (connect : g.httpConnect = f.httpConnect) (alive : f.state ≠ .closing)
    (later : g.state = .resolving ∨ g.state = .connecting ∨ g.state = .established) :
    Speaks f g := by
  refine ⟨[], by rw [output, List.append_nil], fd, ?_, ?_, fun closing => absurd closing alive⟩
  · intro script told
    rw [List.append_nil]
    refine ⟨?_, ?_, ?_, ?_, ?_, ?_⟩
    · grind
    · grind
    · grind
    · intro unsent _
      exact told.opening (reply.symm.trans unsent) alive
    · grind
    · intro sent
      exact (told.success (reply.symm.trans sent)).congr mode connect
  · exact fun _ _ sent => ⟨rfl, reply.trans sent⟩

theorem Told.close (told : Told f script)
    (reply : g.replySent = f.replySent) (mode : g.httpMode = f.httpMode)
    (connect : g.httpConnect = f.httpConnect) (state : g.state = .closing) : Told g script := by
  refine ⟨?_, ?_, ?_, ?_, ?_, ?_⟩
  · simp [state]
  · simp [state]
  · simp [state]
  · simp [state]
  · intro unsent _
    rw [reply] at unsent
    by_cases closing : f.state = .closing
    · exact told.refusal unsent closing
    · exact .inr (.inr (.inl (told.opening unsent closing)))
  · intro sent
    exact (told.success (reply.symm.trans sent)).congr mode connect

theorem Speaks.close (output : g.output = f.output) (fd : g.fdOpen = f.fdOpen)
    (reply : g.replySent = f.replySent) (mode : g.httpMode = f.httpMode)
    (connect : g.httpConnect = f.httpConnect) (state : g.state = .closing) : Speaks f g := by
  refine ⟨[], by rw [output, List.append_nil], fd, ?_, ?_, fun _ => ⟨rfl, state⟩⟩
  · intro script told
    rw [List.append_nil]
    exact told.close reply mode connect state
  · exact fun _ _ sent => ⟨rfl, reply.trans sent⟩

variable (now : UInt64)

theorem queueSocksError_speaks (f : Flow) (rep : UInt8)
    (alive : f.state ≠ .closing) (error : rep ≠ 0) : Speaks f (queueSocksError now f rep) := by
  by_cases sent : f.replySent = true
  · rw [queueSocksError, if_pos sent]
    exact Speaks.close rfl rfl rfl rfl rfl rfl
  · rw [queueSocksError, if_neg sent]
    refine ⟨errorReply f rep, rfl, rfl, ?_, fun _ _ sent' => absurd sent' sent,
      fun closing => absurd closing alive⟩
    intro script told
    have opening := told.opening (by simpa using sent) alive
    have reply : IsErrorReply (errorReply f rep) := by
      unfold errorReply
      split
      · exact .inl rfl
      · exact .inr ⟨rep, error, rfl⟩
    refine ⟨?_, ?_, ?_, ?_, ?_, fun sent' => absurd sent' sent⟩
    · simp [setFlowState]
    · simp [setFlowState]
    · simp [setFlowState]
    · simp [setFlowState]
    · exact fun _ _ => .inr (.inr (.inr ⟨script, _, opening, reply, rfl⟩))

theorem openedFlow_speaks (opened : Option (Nat × UInt16)) (f : Flow)
    (addr : TargetAddr) (port : UInt16) (alive : f.state ≠ .closing) :
    Speaks f (openedFlow now opened f addr port) := by
  unfold openedFlow
  split
  · exact queueSocksError_speaks now f 1 alive (by decide)
  · cases addr <;> exact Speaks.advance rfl rfl rfl rfl rfl alive (.inr (.inl rfl))

variable (cfg : SocksCfg)

theorem flowOpenGated_speaks (now : UInt64) (f : Flow) (addr : TargetAddr)
    (port : UInt16) (alive : f.state ≠ .closing) :
    Speaks f (flowOpenGated cfg now f addr port).1 ∧
      ((flowOpenGated cfg now f addr port).2 ≠ none →
        (flowOpenGated cfg now f addr port).1.state ≠ .closing) := by
  unfold flowOpenGated
  split
  · exact ⟨queueSocksError_speaks now f 2 alive (by decide), by simp⟩
  · exact ⟨Speaks.refl f, fun _ => alive⟩

theorem targetFlow_speaks (now : UInt64) (opened : Option (Nat × UInt16))
    (f : Flow) (t : PpTarget) (alive : f.state ≠ .closing) :
    Speaks f (targetFlow cfg now opened f t) := by
  have gated (g : Flow) (addr : TargetAddr) (same : Speaks f g) (alive : g.state ≠ .closing) :
      Speaks f (match flowOpenGated cfg now g addr t.port with
        | (f, none) => f
        | (f, some (.spawnDns _ _)) => f
        | (f, some (.openTcpConn addr port)) => openedFlow now opened f addr port) := by
    obtain ⟨speaks, alive'⟩ := flowOpenGated_speaks cfg now g addr t.port alive
    revert speaks alive'
    rcases flowOpenGated cfg now g addr t.port with ⟨g', _ | _ | _⟩
    · exact fun speaks _ => same.trans speaks
    · intro speaks alive'
      exact same.trans (speaks.trans (openedFlow_speaks now opened g' _ _ (alive' (by simp))))
    · exact fun speaks _ => same.trans speaks
  unfold targetFlow flowStartTarget
  cases t.af with
  | v4 => exact gated _ _ (Speaks.same rfl rfl rfl rfl rfl (.inr ⟨rfl, rfl⟩)) alive
  | v6 =>
    by_cases ipv6 : cfg.ipv6 = true
    · simp only [ipv6, not_true_eq_false, if_false]
      exact gated _ _ (Speaks.same rfl rfl rfl rfl rfl (.inr ⟨rfl, rfl⟩)) alive
    · simp only [ipv6]
      exact queueSocksError_speaks now f 8 alive (by decide)
  | domain => exact Speaks.advance rfl rfl rfl rfl rfl alive (.inl rfl)

theorem dnsVerdict_speaks (now : UInt64) (opened : Option (Nat × UInt16))
    (x : DnsResult) (f : Flow) (alive : f.state ≠ .closing) :
    Speaks f (dnsVerdict cfg now opened x f) := by
  have gated (g : Flow) (addr : TargetAddr) (same : Speaks f g) (alive : g.state ≠ .closing) :
      Speaks f (dnsOpened cfg now opened g addr x.port) := by
    obtain ⟨speaks, alive'⟩ := flowOpenGated_speaks cfg now g addr x.port alive
    unfold dnsOpened
    revert speaks alive'
    rcases flowOpenGated cfg now g addr x.port with ⟨g', _ | d⟩
    · exact fun speaks _ => same.trans speaks
    · intro speaks alive'
      exact same.trans
        (speaks.trans (openedFlow_speaks now opened g' addr x.port (alive' (by simp))))
  unfold dnsVerdict
  split
  · exact gated _ _ (Speaks.same rfl rfl rfl rfl rfl (.inr ⟨rfl, rfl⟩)) alive
  · exact gated _ _ (Speaks.refl f) alive
  · have counted : Speaks f { f with dnsPending := f.dnsPending - 1 } :=
      Speaks.same rfl rfl rfl rfl rfl (.inr ⟨rfl, rfl⟩)
    dsimp only
    split
    · exact counted.trans (queueSocksError_speaks now _ 4 alive (by decide))
    · exact counted

theorem reauthClient_speaks (rebuilt : Bool) (opened : Option (Nat × UInt16))
    (f : Flow) : Speaks f (reauthClient now rebuilt opened f) := by
  have failed (g : Flow) (rep : UInt8) (same : Speaks f g) (alive : g.state ≠ .closing)
      (error : rep ≠ 0) : Speaks f (setFlowState now (queueSocksError now g rep) .closing) :=
    same.trans ((queueSocksError_speaks now g rep alive error).trans
      (Speaks.close rfl rfl rfl rfl rfl rfl))
  unfold reauthClient
  split
  · rename_i resolving
    refine failed _ 4 (Speaks.same rfl rfl rfl rfl rfl (.inr ⟨rfl, rfl⟩)) ?_ (by decide)
    simp [resolving]
  · split
    · exact Speaks.refl f
    · split
      · exact Speaks.same rfl rfl rfl rfl rfl (.inr ⟨rfl, rfl⟩)
      · rename_i running
        have alive : f.state ≠ .closing := by
          intro closing
          simp [closing] at running
        have detached : Speaks f { f with nsIdx := none, rxPaused := false } :=
          Speaks.same rfl rfl rfl rfl rfl (.inr ⟨rfl, rfl⟩)
        dsimp only
        split
        · exact detached.trans (openedFlow_speaks now opened _ _ _ alive)
        · exact detached.trans (openedFlow_speaks now opened _ _ _ alive)
        · exact failed _ 1 detached alive (by decide)

theorem Speaks.greeted (added : List UInt8) (greeting : f.state = .greeting)
    (output : g.output = f.output ++ added) (fd : g.fdOpen = f.fdOpen)
    (told : ∀ script, Told f script → f.replySent = false → Told g (script ++ added)) :
    Speaks f g := by
  refine ⟨added, output, fd, ?_, ?_, ?_⟩
  · exact fun script before => told script before (before.early (.inl greeting))
  · intro script before sent
    simp [before.early (.inl greeting)] at sent
  · intro closing
    simp [greeting] at closing

theorem Told.closing (state : f.state = .closing)
    (unsent : f.replySent = false) (refusal : Refusal script) : Told f script := by
  refine ⟨?_, ?_, ?_, ?_, fun _ _ => refusal, ?_⟩ <;> simp [state, unsent]

theorem Told.request (state : f.state = .request)
    (unsent : f.replySent = false) (opening : Opening script) : Told f script := by
  refine ⟨fun _ => unsent, ?_, ?_, fun _ _ => opening, ?_, ?_⟩ <;> simp [state, unsent]

/-- A handshake step. -/
structure Handled (f : Flow) (out : Flow × List HandshakeCall) : Prop where
  speaks : Speaks f out.1
  target : out.2.findSome? targetOf ≠ none → out.1.state ≠ .closing

variable (pton : InetPton)

theorem httpHandshake_handled (now : UInt64) (f : Flow)
    (greeting : f.state = .greeting) : Handled f (httpHandshake pton now f) := by
  have alive : f.state ≠ .closing := by simp [greeting]
  have marked (connect : Bool) : Speaks f { f with httpConnect := connect } :=
    Speaks.same rfl rfl rfl rfl rfl (.inl greeting)
  have failed (connect : Bool) :
      Speaks f (queueSocksError now { f with httpConnect := connect } 5) :=
    (marked connect).trans (queueSocksError_speaks now _ 5 alive (by decide))
  unfold httpHandshake
  dsimp only
  split
  · exact ⟨Speaks.same rfl rfl rfl rfl rfl (.inl greeting), by simp⟩
  · split
    · exact ⟨queueSocksError_speaks now f 5 alive (by decide), by simp⟩
    · split
      · exact ⟨failed _, by simp⟩
      · split
        · exact ⟨failed _, by simp⟩
        · split
          · exact ⟨Speaks.same rfl rfl rfl rfl rfl (.inl greeting), fun _ => alive⟩
          · exact ⟨Speaks.same rfl rfl rfl rfl rfl (.inl greeting), fun _ => alive⟩

theorem handshakeAuth_handled (now : UInt64) (f : Flow)
    (greeting : f.state = .greeting) (pending : f.authPending = true) :
    Handled f (handshakeAuth cfg now f).2 := by
  have rejected (g : Flow) (output : g.output = f.output) (fd : g.fdOpen = f.fdOpen)
      (reply : g.replySent = f.replySent) : Speaks f (authReject now g) := by
    have queued : (authReject now g).output = f.output ++ [1, 1] := by
      simp [authReject, setFlowState, queueFlowOutput, output]
    refine Speaks.greeted [1, 1] greeting queued fd ?_
    intro script told unsent
    rw [told.second greeting pending]
    exact Told.closing rfl (reply.trans unsent) (.inr (.inl rfl))
  unfold handshakeAuth
  split
  · exact ⟨Speaks.refl f, by simp⟩
  · exact ⟨rejected f rfl rfl rfl, by simp⟩
  · exact ⟨rejected f rfl rfl rfl, by simp⟩
  · dsimp only
    split
    · refine ⟨Speaks.greeted [1, 0] greeting rfl rfl ?_, by simp [targetOf]⟩
      intro script told unsent
      rw [told.second greeting pending]
      exact Told.request rfl unsent (.inr (.inr (.inr rfl)))
    · exact ⟨rejected _ rfl rfl rfl, by simp [targetOf]⟩

theorem handshakeGreeting_handled (now : UInt64) (f : Flow)
    (greeting : f.state = .greeting) : Handled f (handshakeGreeting cfg pton now f).2 := by
  unfold handshakeGreeting
  split
  · rename_i pending
    exact handshakeAuth_handled cfg now f greeting pending
  · rename_i pending
    have fresh : f.authPending = false := by simpa using pending
    have rejected : Speaks f (greetReject now f) := by
      refine Speaks.greeted [5, 0xff] greeting rfl rfl ?_
      intro script told unsent
      rw [told.first greeting fresh]
      exact Told.closing rfl unsent (.inl rfl)
    split
    · exact ⟨Speaks.refl f, by simp⟩
    · split
      · split
        · have marked : Speaks f { f with httpMode := true } :=
            Speaks.same rfl rfl rfl rfl rfl (.inl greeting)
          have http := httpHandshake_handled pton now { f with httpMode := true } greeting
          exact ⟨marked.trans http.speaks, http.target⟩
        · exact ⟨Speaks.refl f, by simp⟩
        · exact ⟨rejected, by simp⟩
      · split
        · exact ⟨rejected, by simp⟩
        · split
          · exact ⟨Speaks.refl f, by simp⟩
          · dsimp only
            split
            · exact ⟨rejected, by simp⟩
            · split
              · refine ⟨Speaks.greeted [5, 2] greeting rfl rfl ?_, by simp⟩
                intro script told unsent
                rw [told.first greeting fresh]
                refine ⟨fun _ => unsent, ?_, fun _ _ => rfl, fun _ _ => .inr (.inl rfl), ?_, ?_⟩
                · simp
                · simp [queueFlowOutput, consumeInput, greeting]
                · simp [queueFlowOutput, consumeInput, unsent]
              · refine ⟨Speaks.greeted [5, 0] greeting rfl rfl ?_, by simp⟩
                intro script told unsent
                rw [told.first greeting fresh]
                exact Told.request rfl unsent (.inr (.inr (.inl rfl)))

theorem ppSocksRequest_refused {d : List UInt8} {rep : UInt8}
    (refused : ppSocksRequest d = some (.refused rep)) : rep ≠ 0 := by
  unfold ppSocksRequest ppSocksAddress at refused
  rintro rfl
  revert refused
  repeat' split
  all_goals simp

theorem handshakeRequest_handled (f : Flow) (request : f.state = .request) :
    Handled f (handshakeRequest now f) := by
  have alive : f.state ≠ .closing := by simp [request]
  unfold handshakeRequest
  split
  · exact ⟨Speaks.refl f, by simp⟩
  · rename_i rep refused
    exact ⟨queueSocksError_speaks now f rep alive (ppSocksRequest_refused refused), by simp⟩
  · split <;>
      exact ⟨Speaks.same rfl rfl rfl rfl rfl (.inr ⟨rfl, rfl⟩), fun _ => alive⟩

variable {calls : List HandshakeCall}

theorem findSome_of_not_handed (kept : handedOver calls ≠ true) :
    calls.findSome? targetOf = none := by
  rw [List.findSome?_eq_none_iff]
  intro call member
  cases call with
  | authFailNote _ => rfl
  | flowStartTarget t =>
    refine absurd ?_ kept
    exact List.any_eq_true.mpr ⟨_, member, rfl⟩

theorem Handled.append
    {next : Flow × List HandshakeCall} (one : Handled f (g, calls)) (two : Handled g next)
    (kept : handedOver calls ≠ true) : Handled f (next.1, calls ++ next.2) := by
  refine ⟨one.speaks.trans two.speaks, ?_⟩
  rw [List.findSome?_append, findSome_of_not_handed kept]
  exact two.target

theorem handshakePasses_handled (now : UInt64) (passes : Nat)
    (f : Flow) : Handled f (handshakePasses cfg pton now passes f) := by
  induction passes generalizing f with
  | zero => exact ⟨Speaks.refl f, by simp [handshakePasses]⟩
  | succ passes ih =>
    unfold handshakePasses
    split
    · rename_i greeting
      split
      · exact httpHandshake_handled pton now f greeting
      · have pass := handshakeGreeting_handled cfg pton now f greeting
        revert pass
        rcases handshakeGreeting cfg pton now f with ⟨again, g, calls⟩
        intro pass
        dsimp only
        split
        · exact pass
        · rename_i kept
          have next := Handled.append pass (ih g) kept
          split
          · split
            · exact next
            · exact pass
          · split
            · exact pass
            · exact next
    · rename_i request
      exact handshakeRequest_handled now f request
    · exact ⟨Speaks.refl f, by simp⟩

theorem handshakeFlow_speaks (now : UInt64) (opened : Option (Nat × UInt16)) (f : Flow) :
    Speaks f (handshakeFlow cfg pton now opened f) := by
  have handled := handshakePasses_handled cfg pton now 3 f
  unfold handshakeFlow
  dsimp only
  split
  · exact handled.speaks
  · rename_i t found
    refine handled.speaks.trans (targetFlow_speaks cfg now opened _ t (handled.target ?_))
    rw [show (handshakePasses cfg pton now 3 f).2.findSome? targetOf = some t from found]
    simp

theorem Speaks.succeed (ip : UInt32) (f : Flow) (connecting : f.state = .connecting)
    (unsent : f.replySent = false) :
    Speaks f (setFlowState now { queueFlowOutput f (successReply ip f) with replySent := true }
      .established) := by
  have alive : f.state ≠ .closing := by simp [connecting]
  refine ⟨successReply ip f, rfl, rfl, ?_, ?_, fun closing => absurd closing alive⟩
  · intro script told
    refine ⟨?_, ?_, ?_, ?_, ?_, ?_⟩
    · simp [setFlowState]
    · simp [setFlowState]
    · simp [setFlowState]
    · simp [setFlowState]
    · simp [setFlowState]
    · exact fun _ => ⟨script, ip, f, told.opening unsent alive, rfl, rfl, rfl⟩
  · intro script told sent
    simp [unsent] at sent

theorem updateTcpState_speaks (ip : UInt32) (late : Bool) (conn : ConnSeen)
    (f : Flow) : Speaks f (updateTcpState now ip late conn f) := by
  have closed (g : Flow) (same : Speaks f g) : Speaks f (setFlowState now g .closing) :=
    same.trans (Speaks.close rfl rfl rfl rfl rfl rfl)
  unfold updateTcpState
  split
  · exact Speaks.refl f
  · exact Speaks.refl f
  · rename_i connecting
    have alive : f.state ≠ .closing := by simp [connecting]
    have detached : Speaks f { f with nsIdx := none } :=
      Speaks.same rfl rfl rfl rfl rfl (.inr ⟨rfl, rfl⟩)
    cases conn with
    | up =>
      by_cases sent : f.replySent = true
      · simp only [sent, if_true]
        exact Speaks.advance rfl rfl rfl rfl rfl alive (.inr (.inr rfl))
      · simp only [sent]
        exact Speaks.succeed now ip f connecting (by simpa using sent)
    | closed timeout =>
      dsimp only
      split
      · exact closed _ detached
      · refine detached.trans (queueSocksError_speaks now _ _ alive ?_)
        cases timeout <;> decide
    | pending =>
      dsimp only
      split
      · exact Speaks.refl f
      · split
        · exact closed f (Speaks.refl f)
        · exact queueSocksError_speaks now f 4 alive (by decide)
  · rename_i alive _ _
    split
    · exact Speaks.refl f
    · split
      · exact queueSocksError_speaks now f 5 (by assumption) (by decide)
      · exact closed f (Speaks.refl f)

/-- What has reached the client. -/
structure Heard (c : Client) (script sent payload : List UInt8) : Prop where
  written : c.written = sent.map (false, ·) ++ payload.map (true, ·)
  told : Told c.flow script
  front : sent <+: script
  late : payload ≠ [] → sent = script ∧ c.flow.replySent = true
  rest : script = sent ++ c.flow.output ∨
    (c.flow.output = [] ∧ c.flow.state = .closing ∧ (c.conn = none ∨ c.flow.fdOpen = false))

def Client.Orderly (c : Client) : Prop := ∃ script sent payload, Heard c script sent payload

theorem Client.Orderly.speaks {c : Client} (orderly : c.Orderly) {g : Flow}
    {conn : Option (List UInt8)} (speaks : Speaks c.flow g)
    (kept : c.flow.state = .closing → g.state = .closing → c.conn = none → conn = none) :
    Client.Orderly { c with flow := g, conn := conn } := by
  obtain ⟨script, sent, payload, heard⟩ := orderly
  obtain ⟨added, spoke⟩ := speaks
  refine ⟨script ++ added, sent, payload, heard.written, spoke.told script heard.told,
    heard.front.trans (List.prefix_append _ _), ?_, ?_⟩
  · intro some
    obtain ⟨all, replied⟩ := heard.late some
    obtain ⟨nothing, replied'⟩ := spoke.quiet script heard.told replied
    exact ⟨by rw [nothing, List.append_nil, all], replied'⟩
  · rcases heard.rest with queued | ⟨empty, closing, gone⟩
    · left
      rw [spoke.output, ← List.append_assoc, ← queued]
    · obtain ⟨nothing, closing'⟩ := spoke.closed closing
      refine .inr ⟨by rw [spoke.output, empty, nothing, List.append_nil], closing', ?_⟩
      exact gone.imp (kept closing closing') spoke.fd.trans

theorem Heard.broken {c : Client} {sent payload : List UInt8}
    (heard : Heard c script sent payload) (now : UInt64) :
    Heard (c.broken now) script sent payload where
  written := heard.written
  told := heard.told.close rfl rfl rfl rfl
  front := heard.front
  late := heard.late
  rest := .inr ⟨rfl, rfl, .inl rfl⟩

theorem drainOutput_orderly (sends : List ClientWrite) (c : Client)
    (orderly : c.Orderly) : (drainOutput now sends c).Orderly := by
  induction sends generalizing c with
  | nil => exact orderly
  | cons r rest ih =>
    unfold drainOutput
    split
    · exact orderly
    · rename_i some
      obtain ⟨script, sent, payload, heard⟩ := orderly
      split
      · exact ⟨script, sent, payload, heard.broken now⟩
      · rename_i n _ _
        apply ih
        have queued : script = sent ++ c.flow.output :=
          heard.rest.resolve_right fun gone => some gone.1
        -- payload behind the whole script would leave nothing in the output
        have early : payload = [] := by
          by_contra late
          have all := (heard.late late).1
          rw [queued] at all
          exact some (List.self_eq_append_right.mp all)
        refine ⟨script, sent ++ c.flow.output.take n, [], ?_,
          heard.told.same rfl rfl rfl (.inr ⟨rfl, rfl⟩), ?_, fun late => absurd rfl late, ?_⟩
        · simp [heard.written, early]
        · rw [queued]
          exact (List.prefix_append_right_inj _).mpr (List.take_prefix _ _)
        · left
          rw [List.append_assoc, List.take_append_drop]
          exact queued
      · exact ⟨script, sent, payload, heard⟩
      · exact ⟨script, sent, payload, heard.broken now⟩

theorem Heard.waits {c : Client} {sent payload : List UInt8}
    (heard : Heard c script sent payload) (waiting : Bool) :
    Heard { c with flow := { c.flow with rxqWaiting := waiting } } script sent payload where
  written := heard.written
  told := heard.told.same rfl rfl rfl (.inr ⟨rfl, rfl⟩)
  front := heard.front
  late := heard.late
  rest := heard.rest

theorem drainQueue_orderly (r : ClientWrite) (c : Client) (orderly : c.Orderly) :
    (drainQueue now r c).Orderly := by
  obtain ⟨script, sent, payload, heard⟩ := orderly
  unfold drainQueue
  split
  · rename_i ready
    obtain ⟨_, empty, replied⟩ := ready
    split
    · exact ⟨script, sent, payload, heard.waits false⟩
    · exact ⟨script, sent, payload, heard.waits false⟩
    · rename_i queue _ held
      split
      · exact ⟨script, sent, payload, heard.waits true⟩
      · rename_i n _ taken
        have all : sent = script := by
          rcases heard.rest with queued | ⟨_, _, gone | gone⟩
          · rw [queued, empty, List.append_nil]
          · simp [held] at gone
          · simp [Flow.write, gone] at taken
        refine ⟨script, sent, payload ++ queue.take (min n (min queue.length localWriteLimit)), ?_,
          heard.told.same rfl rfl rfl (.inr ⟨rfl, rfl⟩), heard.front, fun _ => ⟨all, replied⟩, ?_⟩
        · simp [heard.written]
        · left
          simp [all, empty]
      · exact ⟨script, sent, payload, heard.waits true⟩
      · exact ⟨script, sent, payload, heard.broken now⟩
  · exact ⟨script, sent, payload, heard⟩

theorem Flow.Silent.told {f g : Flow} {script : List UInt8} (silent : f.Silent g)
    (told : Told f script) : Told g script := by
  obtain ⟨_, reply, auth, mode, connect, _, same | closing⟩ := silent
  · exact told.same same reply auth (.inr ⟨mode, connect⟩)
  · exact told.close reply mode connect closing

theorem reauthClient_closing {now : UInt64} {opened : Option (Nat × UInt16)}
    (closing : f.state = .closing) : (reauthClient now true opened f).nsIdx = none := by
  by_cases detached : f.nsIdx = none <;> simp [reauthClient, closing, detached]

theorem clientStep_orderly (c : Client) (e : ClientEvent)
    (orderly : c.Orderly) : (clientStep cfg pton c e).1.Orderly := by
  have after (g : Flow) : c.flow.state = .closing → g.state = .closing → c.conn = none →
      c.queueAfter g = none := by
    intro _ closing none
    simp [Client.queueAfter, closing, none]
  cases e with
  | handshake now opened =>
    exact orderly.speaks (handshakeFlow_speaks cfg pton now opened c.flow) (after _)
  | result now x opened =>
    unfold clientStep
    dsimp only
    split
    · rename_i resolving
      have alive : c.flow.state ≠ .closing := by simp [resolving]
      exact orderly.speaks (dnsVerdict_speaks cfg now opened x c.flow alive) (after _)
    · exact orderly
  | update now ip late conn =>
    exact orderly.speaks (updateTcpState_speaks now ip late conn c.flow) fun _ _ none => none
  | outputs now sends last =>
    exact drainQueue_orderly now last _ (drainOutput_orderly now sends c orderly)
  | reauth now rebuilt opened =>
    refine orderly.speaks (reauthClient_speaks now rebuilt opened c.flow) ?_
    intro closing _ none
    cases rebuilt with
    | false => exact none
    | true => simp [reauthClient_closing closing]
  | deliver data =>
    refine orderly.speaks (Speaks.refl c.flow) ?_
    intro _ _ none
    rw [none]
    rfl
  | lost => exact orderly.speaks (Speaks.refl c.flow) fun _ _ _ => rfl
  | silent g =>
    unfold clientStep
    dsimp only
    split
    · rename_i silent
      obtain ⟨script, sent, payload, heard⟩ := orderly
      have told := silent.told heard.told
      obtain ⟨output, reply, _, _, _, fd, state⟩ := silent
      refine ⟨script, sent, payload, heard.written, told, heard.front, ?_, ?_⟩
      · intro late
        exact ⟨(heard.late late).1, reply.trans (heard.late late).2⟩
      · rcases heard.rest with queued | ⟨empty, closing, gone⟩
        · exact .inl (by rw [output, ← queued])
        · refine .inr ⟨output.trans empty, state.elim (·.trans closing) id, ?_⟩
          exact gone.imp id fun shut => fd.elim (·.trans shut) id
    · exact orderly
  | discard now =>
    obtain ⟨script, sent, payload, heard⟩ := orderly
    exact ⟨script, sent, payload, heard.written, heard.told.close rfl rfl rfl rfl, heard.front,
      heard.late, .inr ⟨rfl, rfl, .inr rfl⟩⟩

theorem start_orderly (id : UInt64) (peerIp : UInt32) (now : UInt64) :
    (Client.start id peerIp now).Orderly := by
  refine ⟨[], [], [], rfl, ⟨fun _ => rfl, fun _ _ => rfl, ?_, fun _ _ => .inl rfl, ?_, ?_⟩,
    List.prefix_rfl, fun late => absurd rfl late, .inl rfl⟩
  · intro _ pending
    cases pending
  · intro _ closing
    cases closing
  · intro sent
    cases sent

/-- In every run a client is written a front of one script: the handshake's replies, then at most
one error or the one success reply. -/
theorem clientRun_replies (cfg : SocksCfg) (pton : InetPton) (id : UInt64) (peerIp : UInt32)
    (now : UInt64) (events : List ClientEvent) :
    let c := Trace.final (clientStep cfg pton) (Client.start id peerIp now) events
    ∃ script sent payload, c.written = sent.map (false, ·) ++ payload.map (true, ·) ∧
      sent ++ c.flow.output <+: script ∧
      (Refusal script ∧ payload = [] ∨
        Success c.flow script ∧ (payload ≠ [] → sent = script ∧ c.flow.output = [])) := by
  intro c
  obtain ⟨script, sent, payload, heard⟩ : c.Orderly :=
    Trace.final_invariant (clientStep cfg pton) Client.Orderly (clientStep_orderly cfg pton)
      (Client.start id peerIp now) events (start_orderly id peerIp now)
  have front : sent ++ c.flow.output <+: script := by
    rcases heard.rest with queued | ⟨empty, _, _⟩
    · rw [← queued]
    · rw [empty, List.append_nil]
      exact heard.front
  refine ⟨script, sent, payload, heard.written, front, ?_⟩
  by_cases replied : c.flow.replySent = true
  · refine .inr ⟨heard.told.success replied, ?_⟩
    intro late
    have all := (heard.late late).1
    have short := front.length_le
    rw [List.length_append, all] at short
    exact ⟨all, List.length_eq_zero_iff.mp (by omega)⟩
  · have unsent : c.flow.replySent = false := by simpa using replied
    have early : payload = [] := by
      by_contra late
      exact replied (heard.late late).2
    refine .inl ⟨?_, early⟩
    by_cases closing : c.flow.state = .closing
    · exact heard.told.refusal unsent closing
    · exact .inr (.inr (.inl (heard.told.opening unsent closing)))

end Iwan
