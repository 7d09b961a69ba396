import Iwan.Lib.Least
import Iwan.Proxy.Verdict
import Iwan.Proxy.World

/- A connection slot belongs to one flow. -/
namespace Iwan

open Function (update update_of_ne update_self)

/-- How far a re-auth has come; behind it the slots are stale. -/
def ProxyPlane.reach (s : ProxyPlane) : Nat := s.cursor.getD maxFlows

/-- A flow before `reach` holds a slot with its reference, alone. -/
structure ProxyPlane.Owned (s : ProxyPlane) (reach : Nat) : Prop where
  held : ∀ a i, a < reach → (s.flows a).active = true → (s.flows a).nsIdx = some i →
    i < nsMaxConn ∧ s.refs i = true
  alone : ∀ a b i, a < reach → b < reach → (s.flows a).active = true →
    (s.flows b).active = true → (s.flows a).nsIdx = some i → (s.flows b).nsIdx = some i → a = b
  early : ∀ a, (s.flows a).active = true → (s.flows a).state.early = true →
    (s.flows a).nsIdx = none

variable {s : ProxyPlane} {reach : Nat}

theorem ProxyPlane.Owned.congr {t : ProxyPlane} (owned : s.Owned reach) (flows : t.flows = s.flows)
    (refs : t.refs = s.refs) : t.Owned reach := by
  refine ⟨?_, ?_, ?_⟩
  · rw [flows, refs]
    exact owned.held
  · rw [flows]
    exact owned.alone
  · rw [flows]
    exact owned.early

variable {f : Flow}

theorem ProxyPlane.Owned.setFlow (owned : s.Owned reach) (slot : Nat)
    (same : f.active = true → ∀ i, f.nsIdx = some i →
      (s.flows slot).active = true ∧ (s.flows slot).nsIdx = some i)
    (early : f.active = true → f.state.early = true → f.nsIdx = none) :
    (s.setFlow slot f).Owned reach := by
  have seen : ∀ a i, ((s.setFlow slot f).flows a).active = true →
      ((s.setFlow slot f).flows a).nsIdx = some i →
      (s.flows a).active = true ∧ (s.flows a).nsIdx = some i := by
    intro a i active idx
    have flows : (s.setFlow slot f).flows a = update s.flows slot f a := rfl
    rw [flows] at active idx
    by_cases here : a = slot
    · subst here
      rw [update_self] at active idx
      exact same active i idx
    · rw [update_of_ne here] at active idx
      exact ⟨active, idx⟩
  refine ⟨?_, ?_, ?_⟩
  · intro a i below active idx
    obtain ⟨was, had⟩ := seen a i active idx
    exact owned.held a i below was had
  · intro a b i below below' active active' idx idx'
    obtain ⟨was, had⟩ := seen a i active idx
    obtain ⟨was', had'⟩ := seen b i active' idx'
    exact owned.alone a b i below below' was was' had had'
  · intro a active state
    have flows : (s.setFlow slot f).flows a = update s.flows slot f a := rfl
    rw [flows] at active state ⊢
    by_cases here : a = slot
    · rw [here, update_self] at active state ⊢
      exact early active state
    · rw [update_of_ne here] at active state ⊢
      exact owned.early a active state

theorem ProxyPlane.Owned.setFree (owned : s.Owned reach) (slot : Nat)
    (none : f.nsIdx = none) : (s.setFlow slot f).Owned reach := by
  refine owned.setFlow slot (fun _ i idx => ?_) fun _ _ => none
  rw [none] at idx
  cases idx

variable {slot idx : Nat}

theorem ProxyPlane.Owned.release (owned : s.Owned reach) (below : slot < reach)
    (active : (s.flows slot).active = true) (holds : (s.flows slot).nsIdx = some idx) {g : Flow}
    (none : g.nsIdx = none) : ((nsFlowUnref s idx).setFlow slot g).Owned reach := by
  have freed := owned.setFree slot none
  obtain ⟨inside, -⟩ := owned.held slot idx below active holds
  have unref : (nsFlowUnref s idx).setFlow slot g =
      { s.setFlow slot g with refs := update s.refs idx false } := by
    unfold nsFlowUnref
    rw [if_neg (Nat.not_le.mpr inside)]
    rfl
  rw [unref]
  refine ⟨fun a i under live has => ?_, freed.alone, freed.early⟩
  obtain ⟨small, marked⟩ := freed.held a i under live has
  refine ⟨small, ?_⟩
  have apart : i ≠ idx := by
    intro same
    have live' : (update s.flows slot g a).active = true := live
    have has' : (update s.flows slot g a).nsIdx = some i := has
    by_cases here : a = slot
    · rw [here, update_self, none] at has'
      cases has'
    · rw [update_of_ne here] at live' has'
      exact here (owned.alone a slot idx under below live' active (same ▸ has') holds)
  show update s.refs idx false i = true
  rw [update_of_ne apart]
  exact marked

theorem ProxyPlane.Owned.take (owned : s.Owned reach) (slot : Nat)
    (inside : idx < nsMaxConn) (unmarked : s.refs idx = false) {g : Flow}
    (holds : g.nsIdx = some idx) (late : g.state.early = false) :
    ((nsFlowRef s idx).setFlow slot g).Owned reach := by
  have ref : (nsFlowRef s idx).setFlow slot g =
      { s.setFlow slot g with refs := update s.refs idx true } := by
    unfold nsFlowRef
    rw [if_neg (Nat.not_le.mpr inside)]
    rfl
  have others : ∀ a i, a < reach → a ≠ slot → (s.flows a).active = true →
      (s.flows a).nsIdx = some i → i ≠ idx := by
    intro a i under _ active has same
    have marked := (owned.held a i under active has).2
    rw [same, unmarked] at marked
    cases marked
  rw [ref]
  refine ⟨fun a i under live has => ?_, fun a b i under under' live live' has has' => ?_,
    fun a live state => ?_⟩
  · have live : (update s.flows slot g a).active = true := live
    have has : (update s.flows slot g a).nsIdx = some i := has
    show i < nsMaxConn ∧ update s.refs idx true i = true
    by_cases here : a = slot
    · rw [here, update_self, holds] at has
      rw [← Option.some.inj has, update_self]
      exact ⟨inside, rfl⟩
    · rw [update_of_ne here] at live has
      rw [update_of_ne (others a i under here live has)]
      exact owned.held a i under live has
  · have live : (update s.flows slot g a).active = true := live
    have live' : (update s.flows slot g b).active = true := live'
    have has : (update s.flows slot g a).nsIdx = some i := has
    have has' : (update s.flows slot g b).nsIdx = some i := has'
    by_cases here : a = slot
    · by_cases there : b = slot
      · rw [here, there]
      · rw [here, update_self, holds] at has
        rw [update_of_ne there] at live' has'
        exact absurd (Option.some.inj has).symm (others b i under' there live' has')
    · rw [update_of_ne here] at live has
      by_cases there : b = slot
      · rw [there, update_self, holds] at has'
        exact absurd (Option.some.inj has').symm (others a i under here live has)
      · rw [update_of_ne there] at live' has'
        exact owned.alone a b i under under' live live' has has'
  · have live : (update s.flows slot g a).active = true := live
    have state : (update s.flows slot g a).state.early = true := state
    show (update s.flows slot g a).nsIdx = none
    by_cases here : a = slot
    · rw [here, update_self, late] at state
      cases state
    · rw [update_of_ne here] at live state ⊢
      exact owned.early a live state

theorem connSlotAlloc_some (found : connSlotAlloc s = some idx) :
    idx < nsMaxConn ∧ s.refs idx = false := by
  have passes := List.find?_some found
  rw [Bool.and_eq_true, Bool.not_eq_true'] at passes
  exact ⟨List.mem_range.mp (List.mem_of_find?_eq_some found), passes.2⟩

theorem nsConnect_spec (s : ProxyPlane) (f : Flow) (addr : TargetAddr) (i : ConnectInput) :
    (nsConnect s f addr i).1.flows = s.flows ∧ (nsConnect s f addr i).1.refs = s.refs ∧
      (∀ idx, (nsConnect s f addr i).2 = some idx → idx < nsMaxConn ∧ s.refs idx = false) ∧
      ((nsConnect s f addr i).2 = none → connSlotAlloc s = none ∨ i.ok = false) := by
  have alloc : connSlotAlloc { s with connects := s.connects ++ [(f.peerIp, addr)] } =
    connSlotAlloc s := rfl
  unfold nsConnect
  dsimp only
  rw [alloc]
  cases found : connSlotAlloc s with
  | none =>
    refine ⟨rfl, rfl, fun idx got => ?_, fun _ => Or.inl rfl⟩
    cases got
  | some idx =>
    dsimp only
    refine ⟨rfl, rfl, fun got taken => ?_, fun failed => ?_⟩
    · cases ok : i.ok with
      | false => rw [ok] at taken; cases taken
      | true =>
        rw [ok] at taken
        rw [← Option.some.inj taken]
        exact connSlotAlloc_some found
    · cases ok : i.ok with
      | false => exact .inr rfl
      | true => rw [ok] at failed; cases failed

section

variable {self k : Nat} {now : UInt64}

theorem stalestIdle_eq (s : ProxyPlane) (self : Nat) (now : UInt64) :
    stalestIdle s self now = Least.scan (flowIdle s self now)
      (fun a b => (s.flows a).lastProgressMs < (s.flows b).lastProgressMs)
      (List.range maxFlows) := by
  unfold stalestIdle Least.scan
  congr 1
  funext best k
  cases best <;> rfl

theorem stalestIdle_least (found : stalestIdle s self now = some k) :
    k < maxFlows ∧ flowIdle s self now k = true ∧ ∀ b, b < maxFlows →
      flowIdle s self now b = true → (s.flows k).lastProgressMs ≤ (s.flows b).lastProgressMs := by
  rw [stalestIdle_eq] at found
  obtain ⟨member, idle, least⟩ :=
    Least.scan_some found (fun _ => UInt64.lt_irrefl _) UInt64.lt_trans
  refine ⟨List.mem_range.mp member, idle, fun b below passes => ?_⟩
  exact UInt64.not_lt.mp (least b (List.mem_range.mpr below) passes)

/-- A flow that may be evicted. -/
structure IdleFlow (s : ProxyPlane) (self : Nat) (now : UInt64) (k : Nat) : Prop where
  active : (s.flows k).active = true
  other : k ≠ self
  established : (s.flows k).state = .established
  output : (s.flows k).output = []
  rxq : ∃ idx, (s.flows k).nsIdx = some idx ∧ (s.conns idx).rxq = 0
  stale : 1000 ≤ now - (s.flows k).lastProgressMs

theorem flowIdle_idleFlow (idle : flowIdle s self now k = true) : IdleFlow s self now k := by
  unfold flowIdle at idle
  simp only [Bool.and_eq_true, bne_iff_ne, ne_eq, beq_iff_eq, List.isEmpty_iff, Bool.not_eq_true',
    decide_eq_false_iff_not] at idle
  obtain ⟨⟨⟨⟨⟨⟨active, other⟩, established⟩, output⟩, -⟩, conn⟩, stale⟩ := idle
  refine ⟨active, other, established, output, ?_, UInt64.not_lt.mp stale⟩
  cases index : (s.flows k).nsIdx with
  | none => rw [index] at conn; cases conn
  | some idx => rw [index] at conn; exact ⟨idx, rfl, by simpa using conn⟩

theorem stalestIdle_some (found : stalestIdle s self now = some k) :
    k < maxFlows ∧ k ≠ self ∧ (s.flows k).active = true ∧ (s.flows k).state = .established ∧
      ∃ idx, (s.flows k).nsIdx = some idx := by
  obtain ⟨small, passes, -⟩ := stalestIdle_least found
  obtain ⟨active, other, established, -, ⟨idx, has, -⟩, -⟩ := flowIdle_idleFlow passes
  exact ⟨small, other, active, established, idx, has⟩

end

variable {k : Nat}

theorem evictFlow_owned (owned : s.Owned reach) (now : UInt64) (below : k < reach)
    (active : (s.flows k).active = true) : (evictFlow s now k).Owned reach := by
  unfold evictFlow
  dsimp only
  cases idx : (s.flows k).nsIdx with
  | none => exact owned
  | some i =>
    dsimp only
    have moved : ∀ c, (s.setConn i c).Owned reach := fun c => owned.congr rfl rfl
    exact (moved _).release below active idx rfl

theorem queueSocksError_nsIdx (now : UInt64) (f : Flow) (rep : UInt8) :
    (queueSocksError now f rep).nsIdx = f.nsIdx := by
  unfold queueSocksError
  split <;> rfl

theorem attachFlow_owned (owned : s.Owned reach) (slot : Nat) (i : OpenInput) (f : Flow)
    (free : idx < nsMaxConn ∧ s.refs idx = false) (addr : TargetAddr) (port : UInt16) :
    (attachFlow s slot i f idx addr port).Owned reach := by
  unfold attachFlow
  cases addr with
  | v4 rip => exact owned.take slot free.1 free.2 rfl rfl
  | v6 rip6 => exact owned.take slot free.1 free.2 rfl rfl

theorem openTcpConnAf_owned (placed : (s.setFlow slot f).Owned reach)
    (addr : TargetAddr) (port : UInt16) (i : OpenInput) (none : f.nsIdx = none)
    (fair : i.lport ≠ 0 → ∀ t k, nsConnect (s.setFlow slot f) f addr i.first = (t, .none) →
      stalestIdle t slot i.now = some k → k < reach) :
    (openTcpConnAf s slot f addr port i).Owned reach := by
  have refused : (queueSocksError i.now f 1).nsIdx = .none :=
    (queueSocksError_nsIdx i.now f 1).trans none
  unfold openTcpConnAf
  dsimp only
  generalize s.setFlow slot f = s at placed fair ⊢
  split
  · exact placed.setFree slot refused
  · next port' =>
    obtain ⟨flows, refs, free, -⟩ := nsConnect_spec s f addr i.first
    have tried := placed.congr flows refs
    split
    · next t idx first =>
      rw [first] at tried refs free
      have got := free idx rfl
      exact attachFlow_owned tried slot i f ⟨got.1, (congrFun refs idx).trans got.2⟩ addr port
    · next t first =>
      rw [first] at tried
      split
      · exact tried.setFree slot refused
      · next k victim =>
        obtain ⟨-, -, active, -, -⟩ := stalestIdle_some victim
        have evicted := evictFlow_owned tried i.now (fair port' t k first victim) active
        obtain ⟨flows', refs', free', -⟩ :=
          nsConnect_spec (evictFlow t i.now k) f addr i.second
        have again := evicted.congr flows' refs'
        split
        · next u idx second =>
          rw [second] at again refs' free'
          have got := free' idx rfl
          exact attachFlow_owned again slot i f ⟨got.1, (congrFun refs' idx).trans got.2⟩
            addr port
        · next u second =>
          rw [second] at again
          exact again.setFree slot refused

theorem nsFlowUnref_cursor (s : ProxyPlane) (idx : Nat) :
    (nsFlowUnref s idx).cursor = s.cursor := by
  unfold nsFlowUnref
  split <;> rfl

theorem nsConnect_cursor (s : ProxyPlane) (f : Flow) (addr : TargetAddr) (i : ConnectInput) :
    (nsConnect s f addr i).1.cursor = s.cursor := by
  unfold nsConnect
  dsimp only
  split <;> rfl

theorem attachFlow_cursor (s : ProxyPlane) (slot : Nat) (i : OpenInput) (f : Flow) (idx : Nat)
    (addr : TargetAddr) (port : UInt16) :
    (attachFlow s slot i f idx addr port).cursor = s.cursor := by
  show (nsFlowRef s idx).cursor = _
  unfold nsFlowRef
  split <;> rfl

theorem evictFlow_cursor (s : ProxyPlane) (now : UInt64) (k : Nat) :
    (evictFlow s now k).cursor = s.cursor := by
  unfold evictFlow
  dsimp only
  split
  · rfl
  · exact nsFlowUnref_cursor _ _

theorem openTcpConnAf_cursor (s : ProxyPlane) (slot : Nat) (f : Flow) (addr : TargetAddr)
    (port : UInt16) (i : OpenInput) :
    (openTcpConnAf s slot f addr port i).cursor = s.cursor := by
  unfold openTcpConnAf
  dsimp only
  split
  · rfl
  · have first := nsConnect_cursor (s.setFlow slot f) f addr i.first
    split
    · next t idx got =>
      rw [got] at first
      exact (attachFlow_cursor t slot i f idx addr port).trans first
    · next t got =>
      rw [got] at first
      split
      · exact first
      · next k victim =>
        have second := nsConnect_cursor (evictFlow t i.now k) f addr i.second
        split
        · next u idx got' =>
          rw [got'] at second
          exact (attachFlow_cursor u slot i f idx addr port).trans
            (second.trans ((evictFlow_cursor t i.now k).trans first))
        · next u got' =>
          rw [got'] at second
          exact second.trans ((evictFlow_cursor t i.now k).trans first)

theorem dispatchFlow_cursor (s : ProxyPlane) (slot : Nat) (i : OpenInput)
    (out : Flow × Option Dispatch) : (dispatchFlow s slot i out).cursor = s.cursor := by
  unfold dispatchFlow
  split
  · rfl
  · rfl
  · exact openTcpConnAf_cursor s slot _ _ _ i

/-- A flow that is connected again gets its slot at once, or no other established one has one. -/
def ProxyPlane.Calm (s : ProxyPlane) (e : ProxyEvent) : Prop :=
  ∀ i k, e = .pass i → s.cursor = some k → (s.flows k).active = true →
    (s.flows k).state = .connecting ∨ (s.flows k).state = .established →
    connSlotAlloc s ≠ none ∧ i.first.ok = true ∨
      ∀ a, a < maxFlows → a ≠ k → (s.flows a).active = true →
        (s.flows a).state = .established → (s.flows a).nsIdx = none

theorem ProxyPlane.Owned.extend (owned : s.Owned k)
    (none : (s.flows k).active = true → (s.flows k).nsIdx = none) : s.Owned (k + 1) := by
  have below : ∀ a i, a < k + 1 → (s.flows a).active = true → (s.flows a).nsIdx = some i →
      a < k := by
    intro a i under active has
    refine Nat.lt_of_le_of_ne (Nat.le_of_lt_succ under) fun here => ?_
    rw [here] at active has
    rw [none active] at has
    cases has
  refine ⟨?_, ?_, owned.early⟩
  · intro a i under active has
    exact owned.held a i (below a i under active has) active has
  · intro a b i under under' active active' has has'
    exact owned.alone a b i (below a i under active has) (below b i under' active' has') active
      active' has has'

theorem ProxyPlane.Owned.extendFree (owned : s.Owned k)
    (none : f.nsIdx = none) : (s.setFlow k f).Owned (k + 1) := by
  refine (owned.setFree k none).extend fun _ => ?_
  have here : (s.setFlow k f).flows k = f := update_self _ _ _
  rw [here]
  exact none

theorem reauthFlow_owned {i : OpenInput} (owned : s.Owned k)
    (cursor : s.cursor = some k) (calm : s.Calm (.pass i)) :
    (reauthFlow s k i).Owned (k + 1) := by
  unfold reauthFlow
  dsimp only
  split
  · next inactive =>
    exact owned.extend fun active => absurd (inactive.symm.trans active) Bool.false_ne_true
  · next live =>
    have active : (s.flows k).active = true := by
      cases here : (s.flows k).active with
      | true => rfl
      | false => exact absurd here live
    split
    · refine owned.extendFree ?_
      exact queueSocksError_nsIdx i.now { s.flows k with nsIdx := none } 4
    · split
      · next none => exact owned.extend fun _ => none
      · split
        · exact owned.extendFree rfl
        · next runs =>
          have state : (s.flows k).state = .connecting ∨
              (s.flows k).state = .established := by
            by_contra none
            exact runs (not_or.mp none)
          have fair : ∀ (f : Flow) (addr : TargetAddr), i.lport ≠ 0 → ∀ t v,
              nsConnect (s.setFlow k f) f addr i.first = (t, .none) →
              stalestIdle t k i.now = some v → v < k + 1 := by
            intro f addr _ t v first victim
            obtain ⟨flows, -, -, failed⟩ := nsConnect_spec (s.setFlow k f) f addr i.first
            rw [first] at flows failed
            obtain ⟨small, apart, live', settled, idx, has⟩ := stalestIdle_some victim
            have other : t.flows v = s.flows v := by
              rw [flows]
              exact update_of_ne apart _ _
            rw [other] at live' settled has
            rcases calm i k rfl cursor active state with ⟨free, ok⟩ | nobody
            · rcases failed rfl with full | refused
              · exact absurd full free
              · exact absurd (refused.symm.trans ok) Bool.false_ne_true
            · rw [nobody v small apart live' settled] at has
              cases has
          split
          · exact openTcpConnAf_owned (owned.extendFree rfl) _ _ i rfl (fair _ _)
          · exact openTcpConnAf_owned (owned.extendFree rfl) _ _ i rfl (fair _ _)
          · refine owned.extendFree ?_
            exact queueSocksError_nsIdx i.now
              { s.flows k with nsIdx := none, rxPaused := false } 1

theorem openTcpConnAf_all (owned : s.Owned maxFlows) (slot : Nat) (addr : TargetAddr)
    (port : UInt16) (i : OpenInput) (none : f.nsIdx = none) :
    (openTcpConnAf s slot f addr port i).Owned maxFlows :=
  openTcpConnAf_owned (owned.setFree slot none) addr port i none
    fun _ _ _ _ victim => (stalestIdle_some victim).1

theorem flowOpenGated_owned (cfg : SocksCfg) (owned : s.Owned maxFlows) (slot : Nat)
    (i : OpenInput) (addr : TargetAddr) (port : UInt16) (none : f.nsIdx = none) :
    (dispatchFlow s slot i (flowOpenGated cfg i.now f addr port)).Owned maxFlows := by
  unfold flowOpenGated
  split
  · exact owned.setFree slot ((queueSocksError_nsIdx i.now f 2).trans none)
  · exact openTcpConnAf_all owned slot addr port i none

theorem flowStartTarget_owned (cfg : SocksCfg) (owned : s.Owned maxFlows) (slot : Nat)
    (i : OpenInput) (t : PpTarget) (none : f.nsIdx = none) :
    (dispatchFlow s slot i (flowStartTarget cfg i.now f t)).Owned maxFlows := by
  unfold flowStartTarget
  cases t.af with
  | v4 => exact flowOpenGated_owned cfg owned slot i _ _ none
  | v6 =>
    dsimp only
    split
    · exact owned.setFree slot ((queueSocksError_nsIdx i.now f 8).trans none)
    · exact flowOpenGated_owned cfg owned slot i _ _ none
  | domain => exact owned.setFree slot none

theorem detachFlow_owned (owned : s.Owned maxFlows) (inside : slot < maxFlows)
    (active : (s.flows slot).active = true) (g : Flow) :
    (detachFlow s slot g).Owned maxFlows := by
  unfold detachFlow
  cases holds : (s.flows slot).nsIdx with
  | none => exact owned
  | some idx => exact owned.release inside active holds rfl

theorem flowFree_owned (owned : s.Owned maxFlows) (inside : slot < maxFlows) :
    (flowFree s slot).Owned maxFlows := by
  unfold flowFree
  dsimp only
  split
  · exact owned
  · next live =>
    have active : (s.flows slot).active = true := by
      cases here : (s.flows slot).active with
      | true => rfl
      | false => exact absurd here live
    cases holds : (s.flows slot).nsIdx with
    | none => exact owned.setFree slot rfl
    | some idx => exact owned.release inside active holds rfl

theorem renew_owned (owned : s.Owned maxFlows) (now : UInt64) :
    ProxyPlane.Owned { s with flows := fun k => failResolving now (s.flows k) } maxFlows := by
  have seen : ∀ a i, (failResolving now (s.flows a)).active = true →
      (failResolving now (s.flows a)).nsIdx = some i →
      (s.flows a).active = true ∧ (s.flows a).nsIdx = some i := by
    intro a i active has
    unfold failResolving at active has
    split at has
    · have none := queueSocksError_nsIdx now { s.flows a with nsIdx := none } 4
      have has' : (queueSocksError now { s.flows a with nsIdx := .none } 4).nsIdx = some i := has
      rw [none] at has'
      cases has'
    · next calm =>
      rw [if_neg calm] at active
      exact ⟨active, has⟩
  refine ⟨?_, ?_, ?_⟩
  · intro a i below active has
    obtain ⟨was, had⟩ := seen a i active has
    exact owned.held a i below was had
  · intro a b i below below' active active' has has'
    obtain ⟨was, had⟩ := seen a i active has
    obtain ⟨was', had'⟩ := seen b i active' has'
    exact owned.alone a b i below below' was was' had had'
  · intro a active state
    cases has : (failResolving now (s.flows a)).nsIdx with
    | none => rfl
    | some i =>
      obtain ⟨was, had⟩ := seen a i active has
      have early : (s.flows a).state.early = true := by
        have state' : (failResolving now (s.flows a)).state.early = true := state
        unfold failResolving at state'
        split at state'
        · cases state'
        · exact state'
      rw [owned.early a was early] at had
      cases had

theorem nextCursor_reach (small : k < maxFlows) : (nextCursor k).getD maxFlows = k + 1 := by
  unfold nextCursor
  split
  · rfl
  · show maxFlows = k + 1
    omega

/-- The ownership of slots, during a re-auth as well. -/
structure ProxyPlane.Sound (s : ProxyPlane) : Prop where
  cursor : ∀ k ∈ s.cursor, k < maxFlows
  owned : s.Owned s.reach

theorem pass_sound {i : OpenInput} (sound : s.Sound) (cursor : s.cursor = some k)
    (calm : s.Calm (.pass i)) :
    ProxyPlane.Sound { reauthFlow s k i with cursor := nextCursor k } := by
  have small := sound.cursor k cursor
  have owned : s.Owned k := by
    have reach : s.reach = k := by
      unfold ProxyPlane.reach
      rw [cursor]
      rfl
    exact reach ▸ sound.owned
  refine ⟨fun j next => ?_, ?_⟩
  · have next' : nextCursor k = some j := next
    unfold nextCursor at next'
    split at next'
    · next more =>
      rw [← Option.some.inj next']
      exact more
    · cases next'
  · have reach : ProxyPlane.reach { reauthFlow s k i with cursor := nextCursor k } = k + 1 :=
      nextCursor_reach small
    rw [reach]
    exact (reauthFlow_owned owned cursor calm).congr rfl rfl

theorem proxyStep_sound (cfg : SocksCfg) (s : ProxyPlane) (e : ProxyEvent) (calm : s.Calm e)
    (sound : s.Sound) : (proxyStep cfg s e).1.Sound := by
  unfold proxyStep
  cases cursor : s.cursor with
  | some k =>
    cases e with
    | pass i => exact pass_sound sound cursor calm
    | _ => exact sound
  | none =>
    have owned : s.Owned maxFlows := by
      have reach : s.reach = maxFlows := by
        unfold ProxyPlane.reach
        rw [cursor]
        rfl
      exact reach ▸ sound.owned
    -- a step that leaves no re-auth running
    have settled : ∀ t : ProxyPlane, t.cursor = none → t.Owned maxFlows → t.Sound := by
      intro t none all
      refine ⟨fun k some => ?_, ?_⟩
      · rw [none] at some
        cases some
      · unfold ProxyPlane.reach
        rw [none]
        exact all
    cases e with
    | accept slot id peerIp now =>
      dsimp only
      split
      · exact settled _ cursor (owned.setFree slot rfl)
      · exact sound
    | target slot t i =>
      dsimp only
      split
      · next may =>
        have none := owned.early slot may.2.1 (by
          rcases may.2.2 with state | state <;> rw [state] <;> rfl)
        refine settled _ ?_ (flowStartTarget_owned cfg owned slot i t none)
        exact (dispatchFlow_cursor s slot i _).trans cursor
      · exact sound
    | answer slot addr port i =>
      dsimp only
      split
      · next may =>
        have none := owned.early slot may.2.1 (by rw [may.2.2]; rfl)
        refine settled _ ((dispatchFlow_cursor s slot i _).trans cursor) ?_
        cases addr with
        | v4 rip => exact flowOpenGated_owned cfg owned slot i _ port none
        | v6 ip6 => exact flowOpenGated_owned cfg owned slot i _ port none
      · exact sound
    | proceed slot g =>
      dsimp only
      split
      · next may =>
        obtain ⟨-, ⟨active, -, -, -, -, -, early, -⟩, same⟩ := may
        refine settled _ cursor (owned.setFlow slot (fun _ i idx => ?_) fun _ state => ?_)
        · exact ⟨active, same ▸ idx⟩
        · exact same.trans (owned.early slot active (early state))
      · exact sound
    | detach slot g =>
      dsimp only
      split
      · next may =>
        refine settled _ ?_ (detachFlow_owned owned may.1 may.2.1 g)
        unfold detachFlow
        split
        · exact cursor
        · exact (nsFlowUnref_cursor s _).trans cursor
      · exact sound
    | free slot =>
      dsimp only
      split
      · next inside =>
        refine settled _ ?_ (flowFree_owned owned inside)
        unfold flowFree
        dsimp only
        split
        · exact cursor
        · split
          · exact cursor
          · exact (nsFlowUnref_cursor s _).trans cursor
      · exact sound
    | stack conns => exact settled _ rfl (owned.congr rfl rfl)
    | renew now =>
      exact settled _ rfl ((renew_owned owned now).congr rfl rfl)
    | rebuild =>
      refine ⟨fun k first => ?_, ?_⟩
      · rw [← Option.some.inj first]
        decide
      · exact ⟨fun a i below => absurd below (Nat.not_lt_zero a),
          fun a b i below => absurd below (Nat.not_lt_zero a), owned.early⟩
    | pass i => exact sound

theorem ProxyPlane.start_sound : ProxyPlane.start.Sound :=
  ⟨nofun, fun _ _ _ active => absurd active Bool.false_ne_true,
    fun _ _ _ _ _ active => absurd active Bool.false_ne_true,
    fun _ active => absurd active Bool.false_ne_true⟩

/-- In every run of calm re-auths no two flows hold one slot, each held slot has its reference, and
a connect gets a slot that no flow holds. -/
theorem proxyRun_owned (cfg : SocksCfg) (events : List ProxyEvent)
    (calm : Trace.Along (proxyStep cfg) ProxyPlane.Calm ProxyPlane.start events) :
    let s := Trace.final (proxyStep cfg) ProxyPlane.start events
    (s.cursor = none → s.reach = maxFlows) ∧
      (∀ a b i, a < s.reach → b < s.reach → (s.flows a).active = true →
        (s.flows b).active = true → (s.flows a).nsIdx = some i → (s.flows b).nsIdx = some i →
        a = b) ∧
      (∀ a i, a < s.reach → (s.flows a).active = true → (s.flows a).nsIdx = some i →
        s.refs i = true) ∧
      ∀ idx, connSlotAlloc s = some idx → ∀ a, a < s.reach → (s.flows a).active = true →
        (s.flows a).nsIdx ≠ some idx := by
  intro s
  have sound : s.Sound := Trace.final_along_invariant (proxyStep cfg) ProxyPlane.Calm
    ProxyPlane.Sound (fun s e calm sound => proxyStep_sound cfg s e calm sound) ProxyPlane.start
    events calm ProxyPlane.start_sound
  refine ⟨fun none => ?_, sound.owned.alone, fun a i below active has => ?_, ?_⟩
  · unfold ProxyPlane.reach
    rw [none]
    rfl
  · exact (sound.owned.held a i below active has).2
  · intro idx found a below active has
    have marked := (sound.owned.held a idx below active has).2
    rw [(connSlotAlloc_some found).2] at marked
    cases marked

def sampleTarget : PpTarget := ⟨.v4, [8, 8, 8, 8], List.replicate 16 0, [], 443⟩

def sampleAttempt (first : Bool) : OpenInput :=
  ⟨2000, 50000, ⟨first, fun _ => false⟩, ⟨true, fun _ => false⟩⟩

def sampleClients : List ProxyEvent :=
  [.accept 2 1 0x0A000001 0, .accept 0 2 0x0A000001 0, .accept 1 3 0x0A000001 0,
    .target 2 sampleTarget (sampleAttempt true), .target 0 sampleTarget (sampleAttempt true),
    .target 1 sampleTarget (sampleAttempt true)]

def ProxyEvent.granted : ProxyEvent → Bool
  | .pass i => i.first.ok
  | _ => true

theorem ProxyPlane.calm_of_granted (s : ProxyPlane) (e : ProxyEvent)
    (served : connSlotAlloc s ≠ none ∧ e.granted = true) : s.Calm e := by
  rintro i k rfl - - -
  exact .inl served

/-- Three clients, the stack is rebuilt, and the whole re-auth passes over them. -/
def sampleRebuild : List ProxyEvent :=
  sampleClients ++ .rebuild :: List.replicate maxFlows (.pass (sampleAttempt true))

theorem proxyRun_owned_sample :
    let cfg : SocksCfg := ⟨none, false, false⟩
    let s := Trace.final (proxyStep cfg) ProxyPlane.start sampleClients
    let t := Trace.final (proxyStep cfg) ProxyPlane.start sampleRebuild
    Trace.Along (proxyStep cfg) ProxyPlane.Calm ProxyPlane.start sampleRebuild ∧
      [(s.flows 0).nsIdx, (s.flows 1).nsIdx, (s.flows 2).nsIdx] = [some 1, some 2, some 0] ∧
      [(t.flows 0).nsIdx, (t.flows 1).nsIdx, (t.flows 2).nsIdx] = [some 0, some 1, some 2] ∧
      t.reach = maxFlows ∧ t.refs 2 = true := by
  intro cfg s t
  have calm : Trace.Along (proxyStep cfg) ProxyPlane.Calm ProxyPlane.start sampleRebuild :=
    Trace.Along.mono _ ProxyPlane.calm_of_granted _ _ (by decide +kernel)
  have slots : [(s.flows 0).nsIdx, (s.flows 1).nsIdx, (s.flows 2).nsIdx] =
      [some 1, some 2, some 0] ∧
      [(t.flows 0).nsIdx, (t.flows 1).nsIdx, (t.flows 2).nsIdx] = [some 0, some 1, some 2] := by
    decide +kernel
  have last : t.cursor = none ∧ 2 < t.reach ∧ (t.flows 2).active = true ∧
      (t.flows 2).nsIdx = some 2 := by
    decide +kernel
  -- the run is not to be unfolded from here on
  have owned : ∀ t, t = Trace.final (proxyStep cfg) ProxyPlane.start sampleRebuild →
      t.cursor = none ∧ 2 < t.reach ∧ (t.flows 2).active = true ∧ (t.flows 2).nsIdx = some 2 →
      t.reach = maxFlows ∧ t.refs 2 = true := by
    intro t run last
    have owned := proxyRun_owned cfg sampleRebuild calm
    dsimp only at owned
    rw [← run] at owned
    exact ⟨owned.1 last.1, owned.2.2.1 2 2 last.2.1 last.2.2.1 last.2.2.2⟩
  exact ⟨calm, slots.1, slots.2, owned t rfl last⟩

/-- The last client is established, and the stack is rebuilt. -/
theorem proxyRun_shared_slot :
    let cfg : SocksCfg := ⟨none, false, false⟩
    let s := Trace.final (proxyStep cfg) ProxyPlane.start sampleClients
    let t := Trace.final (proxyStep cfg) s
      ([.proceed 2 { s.flows 2 with state := .established }, .rebuild, .pass (sampleAttempt true),
        .pass (sampleAttempt false)] ++ List.replicate 254 (.pass (sampleAttempt true)))
    t.cursor = none ∧ (t.flows 0).active = true ∧ (t.flows 1).active = true ∧
      (t.flows 0).nsIdx = some 0 ∧ (t.flows 1).nsIdx = some 0 := by
  decide +kernel

end Iwan
