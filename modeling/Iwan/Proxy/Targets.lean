import Iwan.Proxy.Gate
import Iwan.Proxy.Verdict
import Iwan.Proxy.World

/- Where the flows of the lwIP proxy connect to. -/
namespace Iwan

def Cleared (cfg : SocksCfg) (peerIp : UInt32) (addr : TargetAddr) : Prop :=
  cfg.ssrfOff = false → peerIp &&& 0xff000000 ≠ 0x7f000000 → ¬ addr.HostLocal

def Flow.kept (f : Flow) : Option TargetAddr :=
  match f.tgtAf with
  | .v4 => some (.v4 f.tgtIp4)
  | .v6 => some (.v6 f.tgtIp6)
  | .domain => none

variable {f : Flow} {addr : TargetAddr}

theorem cleared_of_gate {cfg : SocksCfg}
    (passed : socksTargetBlocked cfg f addr = false) : Cleared cfg f.peerIp addr := by
  intro on remote hostLocal
  have guard : socksGuard cfg f = true := by
    have outside : socksPeerIsLoopback f = false := decide_eq_false remote
    unfold socksGuard
    rw [on, outside]
    rfl
  rw [socksTargetBlocked_eq, guard, hostLocal.blocked] at passed
  cases passed

def Flow.Safely (cfg : SocksCfg) (f : Flow) : Prop :=
  f.state = .connecting ∨ f.state = .established → ∀ addr ∈ f.kept, Cleared cfg f.peerIp addr

/-- No flow of a remote peer has, or is connected to, a host-local target. -/
structure ProxyPlane.Guarded (cfg : SocksCfg) (s : ProxyPlane) : Prop where
  flows : ∀ slot, (s.flows slot).active = true → (s.flows slot).Safely cfg
  connects : ∀ made ∈ s.connects, Cleared cfg made.1 made.2

variable {cfg : SocksCfg}

theorem Flow.Safely.of_closing (state : f.state = .closing) : f.Safely cfg := by
  intro live
  rw [state] at live
  rcases live with live | live <;> cases live

variable {s : ProxyPlane}

theorem ProxyPlane.Guarded.setFlow (guarded : s.Guarded cfg) (slot : Nat)
    (safely : f.active = true → f.Safely cfg) : (s.setFlow slot f).Guarded cfg := by
  refine ⟨fun k active => ?_, guarded.connects⟩
  have flows : (s.setFlow slot f).flows k = Function.update s.flows slot f k := rfl
  rw [flows] at active ⊢
  by_cases here : k = slot
  · rw [here, Function.update_self] at active ⊢
    exact safely active
  · rw [Function.update_of_ne here] at active ⊢
    exact guarded.flows k active

theorem ProxyPlane.Guarded.congr {t : ProxyPlane} (guarded : s.Guarded cfg)
    (flows : t.flows = s.flows) (connects : t.connects = s.connects) : t.Guarded cfg := by
  refine ⟨fun slot active => ?_, fun made member => ?_⟩
  · rw [flows] at active ⊢
    exact guarded.flows slot active
  · rw [connects] at member
    exact guarded.connects made member

theorem nsFlowRef_guarded (guarded : s.Guarded cfg) (idx : Nat) :
    (nsFlowRef s idx).Guarded cfg := by
  unfold nsFlowRef
  split <;> exact guarded.congr rfl rfl

theorem nsFlowUnref_guarded (guarded : s.Guarded cfg) (idx : Nat) :
    (nsFlowUnref s idx).Guarded cfg := by
  unfold nsFlowUnref
  split <;> exact guarded.congr rfl rfl

theorem nsConnect_guarded (guarded : s.Guarded cfg)
    (cleared : Cleared cfg f.peerIp addr) (i : ConnectInput) :
    (nsConnect s f addr i).1.Guarded cfg := by
  have logged : ProxyPlane.Guarded cfg
      { s with connects := s.connects ++ [(f.peerIp, addr)] } := by
    refine ⟨guarded.flows, fun made member => ?_⟩
    rcases List.mem_append.mp member with before | last
    · exact guarded.connects made before
    · rw [List.mem_singleton.mp last]
      exact cleared
  unfold nsConnect
  dsimp only
  split <;> exact logged.congr rfl rfl

theorem attachFlow_guarded (guarded : s.Guarded cfg) (slot : Nat) (i : OpenInput)
    (f : Flow) (idx : Nat) (port : UInt16)
    (cleared : Cleared cfg f.peerIp addr) :
    (attachFlow s slot i f idx addr port).Guarded cfg := by
  refine (nsFlowRef_guarded guarded idx).setFlow slot fun _ _ other kept => ?_
  cases addr with
  | v4 rip =>
    rw [← Option.some.inj kept]
    exact cleared
  | v6 rip6 =>
    rw [← Option.some.inj kept]
    exact cleared

theorem evictFlow_guarded (guarded : s.Guarded cfg) (now : UInt64) (k : Nat) :
    (evictFlow s now k).Guarded cfg := by
  unfold evictFlow
  dsimp only
  split
  · exact guarded
  · refine ProxyPlane.Guarded.setFlow (nsFlowUnref_guarded ?_ _) k fun _ => .of_closing rfl
    exact guarded.congr rfl rfl

theorem openTcpConnAf_guarded (guarded : s.Guarded cfg) (slot : Nat)
    (port : UInt16) (i : OpenInput) (safely : f.Safely cfg)
    (cleared : Cleared cfg f.peerIp addr) : (openTcpConnAf s slot f addr port i).Guarded cfg := by
  have refused : (queueSocksError i.now f 1).Safely cfg :=
    .of_closing (queueSocksError_state i.now f 1)
  have placed := guarded.setFlow slot fun _ => safely
  unfold openTcpConnAf
  dsimp only
  generalize s.setFlow slot f = s at placed ⊢
  split
  · exact placed.setFlow slot fun _ => refused
  · have tried := nsConnect_guarded placed cleared i.first
    split
    · next t idx first =>
      rw [first] at tried
      exact attachFlow_guarded tried slot i f idx port cleared
    · next t first =>
      rw [first] at tried
      split
      · exact tried.setFlow slot fun _ => refused
      · next k victim =>
        have again := nsConnect_guarded (evictFlow_guarded tried i.now k) cleared i.second
        split
        · next u idx second =>
          rw [second] at again
          exact attachFlow_guarded again slot i f idx port cleared
        · next u second =>
          rw [second] at again
          exact again.setFlow slot fun _ => refused

theorem flowOpenGated_guarded (guarded : s.Guarded cfg) (slot : Nat)
    (i : OpenInput) (addr : TargetAddr) (port : UInt16) (safely : f.Safely cfg) :
    (dispatchFlow s slot i (flowOpenGated cfg i.now f addr port)).Guarded cfg := by
  unfold flowOpenGated
  cases gate : socksTargetBlocked cfg f addr with
  | true => exact guarded.setFlow slot fun _ => .of_closing (queueSocksError_state i.now f 2)
  | false => exact openTcpConnAf_guarded guarded slot port i safely (cleared_of_gate gate)

theorem flowStartTarget_guarded (guarded : s.Guarded cfg) (slot : Nat)
    (i : OpenInput) (t : PpTarget) (safely : f.Safely cfg) :
    (dispatchFlow s slot i (flowStartTarget cfg i.now f t)).Guarded cfg := by
  unfold flowStartTarget
  cases t.af with
  | v4 => exact flowOpenGated_guarded guarded slot i _ _ safely
  | v6 =>
    dsimp only
    split
    · exact guarded.setFlow slot fun _ => .of_closing (queueSocksError_state i.now f 8)
    · exact flowOpenGated_guarded guarded slot i _ _ safely
  | domain =>
    refine guarded.setFlow slot fun _ live => ?_
    rcases live with live | live <;> cases live

theorem reauthFlow_guarded (guarded : s.Guarded cfg) (slot : Nat)
    (i : OpenInput) : (reauthFlow s slot i).Guarded cfg := by
  unfold reauthFlow
  dsimp only
  split
  · exact guarded
  · next inactive =>
    have active : (s.flows slot).active = true := by
      cases here : (s.flows slot).active with
      | true => rfl
      | false => exact absurd here inactive
    have safely := guarded.flows slot active
    split
    · exact guarded.setFlow slot fun _ => .of_closing rfl
    · split
      · exact guarded
      · split
        · exact guarded.setFlow slot fun _ => safely
        · next runs =>
          have live : (s.flows slot).state = .connecting ∨
              (s.flows slot).state = .established := by
            by_contra none
            exact runs (not_or.mp none)
          split
          · next family =>
            have kept : (s.flows slot).kept = some (.v6 (s.flows slot).tgtIp6) := by
              unfold Flow.kept
              rw [family]
            exact openTcpConnAf_guarded guarded slot _ i safely (safely live _ kept)
          · next family =>
            have kept : (s.flows slot).kept = some (.v4 (s.flows slot).tgtIp4) := by
              unfold Flow.kept
              rw [family]
            exact openTcpConnAf_guarded guarded slot _ i safely (safely live _ kept)
          · exact guarded.setFlow slot fun _ => .of_closing rfl

theorem failResolving_safely (safely : f.Safely cfg) (now : UInt64) :
    (failResolving now f).Safely cfg := by
  unfold failResolving
  split
  · exact .of_closing rfl
  · exact safely

theorem failResolving_active {now : UInt64}
    (active : (failResolving now f).active = true) : f.active = true := by
  unfold failResolving at active
  split at active
  · next waits => exact waits.1
  · exact active

theorem detachFlow_guarded (guarded : s.Guarded cfg) (slot : Nat) {g : Flow}
    (safely : g.Safely cfg) : (detachFlow s slot g).Guarded cfg := by
  unfold detachFlow
  split
  · exact guarded
  · exact (nsFlowUnref_guarded guarded _).setFlow slot fun _ => safely

theorem flowFree_guarded (guarded : s.Guarded cfg) (slot : Nat) :
    (flowFree s slot).Guarded cfg := by
  unfold flowFree
  dsimp only
  split
  · exact guarded
  · split
    · exact guarded.setFlow slot fun active => absurd active Bool.false_ne_true
    · exact (nsFlowUnref_guarded guarded _).setFlow slot
        fun active => absurd active Bool.false_ne_true

theorem Flow.Safely.proceeds {f g : Flow} (safely : f.Safely cfg) (proceeds : f.Proceeds g) :
    g.Safely cfg := by
  obtain ⟨-, -, peer, family, four, six, -, back⟩ := proceeds
  intro live addr kept
  have same : g.kept = f.kept := by
    unfold Flow.kept
    rw [family, four, six]
  rw [peer]
  exact safely (back live) addr (same ▸ kept)

theorem proxyStep_guarded (cfg : SocksCfg) (s : ProxyPlane) (e : ProxyEvent)
    (guarded : s.Guarded cfg) : (proxyStep cfg s e).1.Guarded cfg := by
  unfold proxyStep
  cases s.cursor with
  | some k =>
    cases e with
    | pass i => exact (reauthFlow_guarded guarded k i).congr rfl rfl
    | _ => exact guarded
  | none =>
    cases e with
    | accept slot id peerIp now =>
      dsimp only
      split
      · refine guarded.setFlow slot fun _ live => ?_
        rcases live with live | live <;> cases live
      · exact guarded
    | target slot t i =>
      dsimp only
      split
      · next may => exact flowStartTarget_guarded guarded slot i t (guarded.flows slot may.2.1)
      · exact guarded
    | answer slot addr port i =>
      dsimp only
      split
      · next may =>
        have safely := guarded.flows slot may.2.1
        cases addr with
        | v4 rip => exact flowOpenGated_guarded guarded slot i _ port safely
        | v6 ip6 => exact flowOpenGated_guarded guarded slot i _ port safely
      · exact guarded
    | proceed slot g =>
      dsimp only
      split
      · next may =>
        have safely := guarded.flows slot may.2.1.1
        exact guarded.setFlow slot fun _ => safely.proceeds may.2.1
      · exact guarded
    | detach slot g =>
      dsimp only
      split
      · next may =>
        have safely := guarded.flows slot may.2.1
        exact detachFlow_guarded guarded slot (safely.proceeds may.2)
      · exact guarded
    | free slot =>
      dsimp only
      split
      · exact flowFree_guarded guarded slot
      · exact guarded
    | renew now =>
      refine ⟨fun slot active => ?_, guarded.connects⟩
      exact failResolving_safely (guarded.flows slot (failResolving_active active)) now
    | pass i => exact guarded
    | _ => exact guarded.congr rfl rfl

theorem ProxyPlane.start_guarded (cfg : SocksCfg) : ProxyPlane.start.Guarded cfg :=
  ⟨fun _ active => absurd active Bool.false_ne_true, nofun⟩

/-- With the gate on, no run connects a flow of a remote peer to a host-local address. -/
theorem targets_guarded (cfg : SocksCfg) (on : cfg.ssrfOff = false) :
    (∀ events : List ProxyEvent,
      ∀ made ∈ (Trace.final (proxyStep cfg) ProxyPlane.start events).connects,
        made.1 &&& 0xff000000 ≠ 0x7f000000 → ¬ made.2.HostLocal) ∧
      (∀ (t : PpTarget) (literal : RpTry) (lookup : RpLookup) (addr : TargetAddr),
        RpAddr.ip addr ∈ (rpConnectTarget true t literal lookup).connects → ¬ addr.HostLocal) ∧
      ∀ (f : Flow) (addr : TargetAddr),
        socksTargetBlocked cfg f addr = (RpAddr.ip addr).blocked (socksGuard cfg f) := by
  refine ⟨fun events made member => ?_, fun t literal lookup addr member hostLocal => ?_,
    socksTargetBlocked_eq cfg⟩
  · have guarded := Trace.final_invariant (proxyStep cfg) (ProxyPlane.Guarded cfg)
      (proxyStep_guarded cfg) ProxyPlane.start events (ProxyPlane.start_guarded cfg)
    exact guarded.connects made member on
  · have passed := rpConnectTarget_connects true t literal lookup _ member
    rw [hostLocal.blocked] at passed
    cases passed

theorem targets_guarded_sample :
    let cfg : SocksCfg := ⟨none, false, false⟩
    let t : PpTarget := ⟨.v4, [8, 8, 8, 8], List.replicate 16 0, [], 443⟩
    let open' : ConnectInput := ⟨true, fun _ => false⟩
    let events : List ProxyEvent :=
      [.accept 0 1 0x0A000001 0, .target 0 t ⟨0, 50000, open', open'⟩]
    let made := (Trace.final (proxyStep cfg) ProxyPlane.start events).connects
    made = [(0x0A000001, .v4 0x08080808)] ∧ ∀ m ∈ made, ¬ m.2.HostLocal := by
  intro cfg t open' events made
  have only : made = [(0x0A000001, .v4 0x08080808)] := by decide +kernel
  refine ⟨only, fun m member => (targets_guarded cfg rfl).1 events m member ?_⟩
  rw [only] at member
  rw [List.mem_singleton.mp member]
  decide

end Iwan
