import Iwan.Proxy.Ownership

/- When open_tcp_conn_af evicts a flow (socks_flow.c), and which one. -/
namespace Iwan

/-- A call of open_tcp_conn_af. -/
structure OpenCall where
  plane : ProxyPlane
  slot : Nat
  flow : Flow
  addr : TargetAddr
  port : UInt16
  input : OpenInput

def OpenCall.run (c : OpenCall) : ProxyPlane :=
  openTcpConnAf c.plane c.slot c.flow c.addr c.port c.input

def dispatchCall (s : ProxyPlane) (slot : Nat) (i : OpenInput) (out : Flow × Option Dispatch) :
    Option OpenCall :=
  match out with
  | (f, some (.openTcpConn addr port)) => some ⟨s, slot, f, addr, port, i⟩
  | _ => none

def reauthCall (s : ProxyPlane) (slot : Nat) (i : OpenInput) : Option OpenCall :=
  let f := s.flows slot
  if f.active = false ∨ f.state = .resolving ∨ f.nsIdx = none ∨
      f.state ≠ .connecting ∧ f.state ≠ .established then none
  else
    let f := { f with nsIdx := none, rxPaused := false }
    match f.tgtAf with
    | .v6 => some ⟨s, slot, f, .v6 f.tgtIp6, f.tgtPort, i⟩
    | .v4 => some ⟨s, slot, f, .v4 f.tgtIp4, f.tgtPort, i⟩
    | .domain => none

/-- The call that a step makes. -/
def openCall (cfg : SocksCfg) (s : ProxyPlane) (e : ProxyEvent) : Option OpenCall :=
  match s.cursor with
  | some k =>
    match e with
    | .pass i => reauthCall s k i
    | _ => none
  | none =>
    match e with
    | .target slot t i =>
      if slot < maxFlows ∧ (s.flows slot).active = true ∧
          ((s.flows slot).state = .greeting ∨ (s.flows slot).state = .request) then
        dispatchCall s slot i (flowStartTarget cfg i.now (s.flows slot) t)
      else none
    | .answer slot addr port i =>
      if slot < maxFlows ∧ (s.flows slot).active = true ∧ (s.flows slot).state = .resolving then
        dispatchCall s slot i (dnsAnswered cfg i.now (s.flows slot) addr port)
      else none
    | _ => none

/-- The flow that a call evicts, and the plane at that point. -/
def OpenCall.eviction (c : OpenCall) : Option (ProxyPlane × Nat) :=
  if c.input.lport = 0 then none
  else
    match nsConnect (c.plane.setFlow c.slot c.flow) c.flow c.addr c.input.first with
    | (_, some _) => none
    | (s, none) => (stalestIdle s c.slot c.input.now).map fun k => (s, k)

section

variable {cfg : SocksCfg} {s : ProxyPlane} {e : ProxyEvent} {c : OpenCall} {slot : Nat}
  {i : OpenInput}

theorem dispatchCall_run {out : Flow × Option Dispatch}
    (call : dispatchCall s slot i out = some c) :
    dispatchFlow s slot i out = c.run ∧ c.plane = s := by
  unfold dispatchCall at call
  split at call
  · cases call
    exact ⟨rfl, rfl⟩
  · cases call

theorem reauthCall_run (call : reauthCall s slot i = some c) :
    reauthFlow s slot i = c.run ∧ c.plane = s := by
  unfold reauthCall at call
  dsimp only at call
  by_cases skipped : (s.flows slot).active = false ∨ (s.flows slot).state = .resolving ∨
      (s.flows slot).nsIdx = none ∨
      (s.flows slot).state ≠ .connecting ∧ (s.flows slot).state ≠ .established
  · rw [if_pos skipped] at call
    cases call
  · rw [if_neg skipped] at call
    rw [not_or, not_or, not_or] at skipped
    obtain ⟨active, resolving, index, state⟩ := skipped
    unfold reauthFlow
    dsimp only
    rw [if_neg active, if_neg resolving, if_neg index, if_neg state]
    cases af : (s.flows slot).tgtAf with
    | domain =>
      rw [af] at call
      cases call
    | _ =>
      rw [af] at call
      cases call
      exact ⟨rfl, rfl⟩

theorem openCall_run (call : openCall cfg s e = some c) :
    c.plane = s ∧ ∃ cursor, (proxyStep cfg s e).1 = { c.run with cursor := cursor } := by
  unfold openCall at call
  unfold proxyStep
  cases cursor : s.cursor with
  | some k =>
    rw [cursor] at call
    cases e with
    | pass i =>
      obtain ⟨same, plane⟩ := reauthCall_run call
      exact ⟨plane, nextCursor k, by rw [← same]⟩
    | _ => cases call
  | none =>
    rw [cursor] at call
    cases e with
    | target slot t i =>
      dsimp only at call ⊢
      split at call
      · next may =>
        obtain ⟨same, plane⟩ := dispatchCall_run call
        rw [if_pos may, same]
        exact ⟨plane, c.run.cursor, rfl⟩
      · cases call
    | answer slot addr port i =>
      dsimp only at call ⊢
      split at call
      · next may =>
        obtain ⟨same, plane⟩ := dispatchCall_run call
        rw [if_pos may, same]
        exact ⟨plane, c.run.cursor, rfl⟩
      · cases call
    | _ => cases call

/-- The flow that an event is about. -/
def ProxyEvent.worksFor (s : ProxyPlane) : ProxyEvent → Option Nat
  | .accept slot _ _ _ => some slot
  | .target slot _ _ => some slot
  | .answer slot _ _ _ => some slot
  | .proceed slot _ => some slot
  | .detach slot _ => some slot
  | .free slot => some slot
  | .pass _ => s.cursor
  | .stack _ => none
  | .renew _ => none
  | .rebuild => none

section

variable {k : Nat}

theorem ProxyPlane.setFlow_other (s : ProxyPlane) (f : Flow) (other : k ≠ slot) :
    (s.setFlow slot f).flows k = s.flows k :=
  Function.update_of_ne other _ _

theorem nsFlowUnref_flows (s : ProxyPlane) (idx : Nat) : (nsFlowUnref s idx).flows = s.flows := by
  unfold nsFlowUnref
  split <;> rfl

theorem attachFlow_other (s : ProxyPlane) (i : OpenInput) (f : Flow) (idx : Nat)
    (addr : TargetAddr) (port : UInt16) (other : k ≠ slot) :
    (attachFlow s slot i f idx addr port).flows k = s.flows k := by
  refine (ProxyPlane.setFlow_other _ _ other).trans ?_
  unfold nsFlowRef
  split <;> rfl

theorem OpenCall.run_spares (spared : c.eviction = none) (other : k ≠ c.slot) :
    c.run.flows k = c.plane.flows k := by
  have placed := c.plane.setFlow_other c.flow other
  unfold OpenCall.eviction at spared
  unfold OpenCall.run openTcpConnAf
  dsimp only
  split
  · exact (ProxyPlane.setFlow_other _ _ other).trans placed
  · next bound =>
    rw [if_neg bound] at spared
    have kept := (nsConnect_spec (c.plane.setFlow c.slot c.flow) c.flow c.addr c.input.first).1
    cases tried : nsConnect (c.plane.setFlow c.slot c.flow) c.flow c.addr c.input.first with
    | mk t got =>
      rw [tried] at spared kept
      cases got with
      | some idx =>
        dsimp only at kept ⊢
        rw [attachFlow_other _ _ _ _ _ _ other, kept, placed]
      | none =>
        dsimp only at spared kept ⊢
        rw [Option.map_eq_none_iff.mp spared]
        dsimp only
        rw [ProxyPlane.setFlow_other _ _ other, kept, placed]

theorem dispatchFlow_spares {out : Flow × Option Dispatch}
    (spared : ∀ c, dispatchCall s slot i out = some c → c.eviction = none) (other : k ≠ slot) :
    (dispatchFlow s slot i out).flows k = s.flows k := by
  rcases out with ⟨f, _ | ⟨addr, port⟩ | _⟩
  · exact s.setFlow_other f other
  · exact OpenCall.run_spares (c := ⟨s, slot, f, addr, port, i⟩) (spared _ rfl) other
  · exact s.setFlow_other f other

theorem reauthFlow_spares (spared : ∀ c, reauthCall s slot i = some c → c.eviction = none)
    (other : k ≠ slot) : (reauthFlow s slot i).flows k = s.flows k := by
  unfold reauthCall at spared
  unfold reauthFlow
  dsimp only at spared ⊢
  split
  · rfl
  · next active =>
    split
    · exact s.setFlow_other _ other
    · next resolving =>
      split
      · rfl
      · next index =>
        split
        · exact s.setFlow_other _ other
        · next state =>
          rw [if_neg (by simp only [not_or]; exact ⟨active, resolving, index, state⟩)] at spared
          cases af : (s.flows slot).tgtAf with
          | domain => exact s.setFlow_other _ other
          | _ =>
            rw [af] at spared
            exact (OpenCall.run_spares (spared _ rfl) other :)

/-- A step that opens no connection, or opens one without an eviction, leaves every established
flow alone but the one it is about. -/
theorem proxyStep_spares (spared : ∀ c, openCall cfg s e = some c → c.eviction = none)
    (established : (s.flows k).state = .established) (other : e.worksFor s ≠ some k) :
    (proxyStep cfg s e).1.flows k = s.flows k := by
  have slots : ∀ slot, some slot ≠ some k → k ≠ slot := fun slot differ same =>
    differ (congrArg some same.symm)
  unfold openCall at spared
  unfold proxyStep
  cases cursor : s.cursor with
  | some place =>
    rw [cursor] at spared
    cases e with
    | pass i => exact reauthFlow_spares spared (slots place (cursor ▸ other))
    | _ => rfl
  | none =>
    rw [cursor] at spared
    cases e with
    | accept slot id peerIp now =>
      dsimp only
      split
      · exact s.setFlow_other _ (slots slot other)
      · rfl
    | target slot t i =>
      dsimp only at spared ⊢
      split
      · next may =>
        rw [if_pos may] at spared
        exact dispatchFlow_spares spared (slots slot other)
      · rfl
    | answer slot addr port i =>
      dsimp only at spared ⊢
      split
      · next may =>
        rw [if_pos may] at spared
        exact dispatchFlow_spares spared (slots slot other)
      · rfl
    | proceed slot g =>
      dsimp only
      split
      · exact s.setFlow_other _ (slots slot other)
      · rfl
    | detach slot g =>
      dsimp only
      split
      · unfold detachFlow
        split
        · rfl
        · rw [ProxyPlane.setFlow_other _ _ (slots slot other), nsFlowUnref_flows]
      · rfl
    | free slot =>
      dsimp only
      split
      · unfold flowFree
        dsimp only
        split
        · rfl
        · rw [ProxyPlane.setFlow_other _ _ (slots slot other)]
          split
          · rfl
          · rw [nsFlowUnref_flows]
      · rfl
    | renew now =>
      have settled : ¬ ((s.flows k).active = true ∧ (s.flows k).state = .resolving) := by
        rw [established]
        rintro ⟨-, wrong⟩
        cases wrong
      exact if_neg settled
    | _ => rfl

end

end

section

variable {s t : ProxyPlane} {self k : Nat} {now : UInt64} {c : OpenCall}

/-- No slot can be allocated, and the victim is the stalest idle flow and holds nothing. -/
structure UnderPressure (s : ProxyPlane) (self : Nat) (now : UInt64) (k : Nat) : Prop where
  full : ∀ idx, idx < nsMaxConn →
    s.refs idx = true ∨ (s.conns idx).pcb = true ∨ (s.conns idx).reapPending = true
  victim : k < maxFlows ∧ IdleFlow s self now k
  stalest : ∀ b, b < maxFlows → flowIdle s self now b = true →
    (s.flows k).lastProgressMs ≤ (s.flows b).lastProgressMs
  input : (s.flows k).input = []

theorem connSlotAlloc_none (none : connSlotAlloc s = none) {idx : Nat} (inside : idx < nsMaxConn) :
    s.refs idx = true ∨ (s.conns idx).pcb = true ∨ (s.conns idx).reapPending = true := by
  have refused := List.find?_eq_none.mp none idx (List.mem_range.mpr inside)
  rw [Bool.and_eq_true, Bool.and_eq_true, Bool.not_eq_true', Bool.not_eq_true',
    Bool.not_eq_true'] at refused
  cases refs : s.refs idx with
  | true => exact .inl rfl
  | false =>
    right
    cases pcb : (s.conns idx).pcb with
    | true => exact .inl rfl
    | false =>
      right
      cases reap : (s.conns idx).reapPending with
      | true => rfl
      | false => exact absurd ⟨⟨pcb, reap⟩, refs⟩ refused

theorem flowIdle_before {connects : List (UInt32 × TargetAddr)}
    (idle : flowIdle { c.plane.setFlow c.slot c.flow with connects := connects } c.slot now k =
      true) :
    flowIdle c.plane c.slot now k = true ∧
      (c.plane.setFlow c.slot c.flow).flows k = c.plane.flows k := by
  have other : k ≠ c.slot := IdleFlow.other (flowIdle_idleFlow idle)
  have same : (c.plane.setFlow c.slot c.flow).flows k = c.plane.flows k :=
    Function.update_of_ne other _ _
  refine ⟨?_, same⟩
  unfold flowIdle at idle ⊢
  dsimp only at idle ⊢
  rw [same] at idle
  exact idle

theorem OpenCall.eviction_underPressure (evicted : c.eviction = some (t, k))
    (works : connSlotAlloc c.plane = none ∨ c.input.first.ok = true)
    (drained : ∀ b, b < maxFlows → flowIdle c.plane c.slot c.input.now b = true →
      (c.plane.flows b).input = []) :
    UnderPressure t c.slot c.input.now k := by
  unfold OpenCall.eviction at evicted
  split at evicted
  · cases evicted
  · split at evicted
    · cases evicted
    · next failed =>
      obtain ⟨k', found, same⟩ := Option.map_eq_some_iff.mp evicted
      cases same
      have alloc : connSlotAlloc (c.plane.setFlow c.slot c.flow) = connSlotAlloc c.plane := rfl
      have none : connSlotAlloc c.plane = none := by
        have refused := (nsConnect_spec (c.plane.setFlow c.slot c.flow) c.flow c.addr
          c.input.first).2.2.2 (by rw [failed])
        rw [alloc] at refused
        rcases works with full | ok
        · exact full
        · exact refused.resolve_right (by simp [ok])
      have here : t = { c.plane.setFlow c.slot c.flow with
          connects := c.plane.connects ++ [(c.flow.peerIp, c.addr)] } := by
        unfold nsConnect at failed
        dsimp only at failed
        have alloc' : connSlotAlloc { c.plane.setFlow c.slot c.flow with
          connects := (c.plane.setFlow c.slot c.flow).connects ++ [(c.flow.peerIp, c.addr)] } =
            Option.none := none
        rw [alloc'] at failed
        exact (Prod.mk.inj failed).1.symm
      obtain ⟨small, idle, least⟩ := stalestIdle_least found
      refine ⟨fun idx inside => ?_, ⟨small, flowIdle_idleFlow idle⟩, least, ?_⟩
      · rw [here]
        exact connSlotAlloc_none none inside
      · rw [here] at idle ⊢
        obtain ⟨before, same⟩ := flowIdle_before idle
        have input := drained _ small before
        rw [← same] at input
        exact input

end

/-- In every run an eviction is under pressure, as long as lwIP refuses no connection that could
have a slot and no idle flow holds input. -/
theorem proxyRun_eviction (cfg : SocksCfg) (events : List ProxyEvent) (e : ProxyEvent)
    (c : OpenCall) (t : ProxyPlane) (k : Nat)
    (call : openCall cfg (Trace.final (proxyStep cfg) ProxyPlane.start events) e = some c)
    (evicted : c.eviction = some (t, k))
    (works : connSlotAlloc (Trace.final (proxyStep cfg) ProxyPlane.start events) = none ∨
      c.input.first.ok = true)
    (drained : ∀ b, b < maxFlows →
      flowIdle (Trace.final (proxyStep cfg) ProxyPlane.start events) c.slot c.input.now b = true →
      ((Trace.final (proxyStep cfg) ProxyPlane.start events).flows b).input = []) :
    UnderPressure t c.slot c.input.now k := by
  obtain ⟨plane, _⟩ := openCall_run call
  rw [← plane] at works drained
  exact c.eviction_underPressure evicted works drained

def openCfg : SocksCfg := ⟨none, false, false⟩

def idleClient (input : List UInt8) : List ProxyEvent :=
  let opened : List ProxyEvent :=
    [.accept 0 1 0x0A000001 0, .target 0 sampleTarget (sampleAttempt true)]
  let s := Trace.final (proxyStep openCfg) ProxyPlane.start opened
  opened ++ [.proceed 0 { s.flows 0 with state := .established, input := input },
    .accept 1 2 0x0A000001 0]

def fullTable : List ProxyEvent := idleClient [] ++ [.stack fun _ => ⟨true, false, 0⟩]

def fullPlane : ProxyPlane := Trace.final (proxyStep openCfg) ProxyPlane.start fullTable

theorem fullPlane_calls :
    (openCall openCfg fullPlane (.target 1 sampleTarget (sampleAttempt true))).isSome = true := by
  decide +kernel

def fullCall : OpenCall := Option.get _ fullPlane_calls

theorem fullCall_evicts : fullCall.eviction.isSome = true := by
  decide +kernel

theorem proxyRun_eviction_sample :
    UnderPressure (fullCall.eviction.get fullCall_evicts).1 1 2000
      (fullCall.eviction.get fullCall_evicts).2 := by
  have full : connSlotAlloc fullPlane = none := by decide +kernel
  have drained : ∀ b, b < maxFlows →
      flowIdle fullPlane fullCall.slot fullCall.input.now b = true →
      (fullPlane.flows b).input = [] := by decide +kernel
  have call : openCall openCfg fullPlane (.target 1 sampleTarget (sampleAttempt true)) =
      some fullCall := (Option.some_get fullPlane_calls).symm
  have slot : fullCall.slot = 1 := by decide +kernel
  have now : fullCall.input.now = 2000 := by decide +kernel
  have pressed : ∀ p, fullCall.eviction = some p → UnderPressure p.1 1 2000 p.2 := by
    rintro ⟨t, k⟩ evicted
    have pressed := proxyRun_eviction openCfg fullTable
      (.target 1 sampleTarget (sampleAttempt true)) fullCall t k call evicted (.inl full) drained
    rw [slot, now] at pressed
    exact pressed
  exact pressed _ (Option.some_get fullCall_evicts).symm

def refusedPlane : ProxyPlane :=
  Trace.final (proxyStep openCfg) ProxyPlane.start (idleClient (ascii "a"))

theorem refusedPlane_calls :
    (openCall openCfg refusedPlane (.target 1 sampleTarget (sampleAttempt false))).isSome =
      true := by
  decide +kernel

def refusedCall : OpenCall := Option.get _ refusedPlane_calls

theorem refusedCall_evicts : refusedCall.eviction.isSome = true := by
  decide +kernel

/-- All slots but one are free, and still a client is evicted, with a byte not sent. -/
theorem proxyRun_evicts_freely :
    connSlotAlloc (refusedCall.eviction.get refusedCall_evicts).1 = some 1 ∧
      (refusedCall.eviction.get refusedCall_evicts).2 = 0 ∧
      ((refusedCall.eviction.get refusedCall_evicts).1.flows 0).input = ascii "a" := by
  refine ⟨?_, ?_, ?_⟩
  · decide +kernel
  · decide +kernel
  · decide +kernel

end Iwan
