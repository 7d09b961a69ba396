import Iwan.Lib.Trace
import Iwan.Server.Steps

/- The remaining arms of handle_udp, its dispatch, and the server's runs. -/
namespace Iwan

def Effect.isQuiet : Effect → Bool
  | .udpSend _ _ => true
  | .tokenCompare _ _ _ => true
  | _ => false

section

variable (crypto : Crypto) (w : World) (d : Datagram) (clock : Clock)

/-- What a CLOSE can do. -/
inductive CloseStep : World → List Effect → Prop
  | unsigned (bad : verifySig crypto d.raw = false) : CloseStep w []
  | miss (unknown : findSession w.ctx (hdrSid d.raw) = none) :
      CloseStep (sidMiss w d.peer clock) []
  | overBudget (i : Slot) (found : findSession w.ctx (hdrSid d.raw) = some i)
      (foreign : (w.ctx.sess i).peer ≠ d.peer)
      (spent : tokBudgetOver (w.ctx.sess i) clock.entry = true) :
      CloseStep { w with rate := serverRateDropInc w.rate } []
  | uncharged (i : Slot) (tested : Tested w d i clock.entry)
      (wrong : (w.ctx.sess i).token ≠ hdrTok d.raw)
      (refused : (serverRateAllowClose w.rate d.peer.sinAddr clock.entry clock.rate).2 = false)
      (rate : RateState) (limits : rate.limits = w.rate.limits) :
      CloseStep { w with rate } [.tokenCompare i (peerBound w i d) false]
  | charged (i : Slot) (tested : Tested w d i clock.entry)
      (wrong : (w.ctx.sess i).token ≠ hdrTok d.raw)
      (allowed : (serverRateAllowClose w.rate d.peer.sinAddr clock.entry clock.rate).2 = true)
      (rate : RateState) (limits : rate.limits = w.rate.limits) :
      CloseStep ⟨w.ctx.modify i (fun s => tokBudgetCharge s (peerBound w i d) clock.entry), rate⟩
        [.tokenCompare i (peerBound w i d) false, .tokenCharge i (peerBound w i d)]
  | elsewhere (i : Slot) (tested : Tested w d i clock.entry)
      (right : (w.ctx.sess i).token = hdrTok d.raw) (foreign : (w.ctx.sess i).peer ≠ d.peer) :
      CloseStep w [.tokenCompare i (peerBound w i d) true]
  | wiped (i : Slot) (tested : Tested w d i clock.entry) (signed : verifySig crypto d.raw = true)
      (right : (w.ctx.sess i).token = hdrTok d.raw) (bound : (w.ctx.sess i).peer = d.peer) :
      CloseStep { w with ctx := sessWipe w.ctx i }
        [.tokenCompare i (peerBound w i d) true, .wipe i]

theorem peer_eq_iff (p q : SockaddrIn) :
    ¬ (p.sinAddr ≠ q.sinAddr ∨ p.sinPort ≠ q.sinPort) ↔ p = q := by
  cases p
  cases q
  simp only [not_or, not_not, SockaddrIn.mk.injEq]

private theorem closeWipe_found (i : Slot) (found : findSession w.ctx (hdrSid d.raw) = some i)
    (right : (w.ctx.sess i).token = hdrTok d.raw) (now : UInt64) :
    closeWipe w d now =
      if (w.ctx.sess i).peer = d.peer then ({ w with ctx := sessWipe w.ctx i }, [.wipe i])
      else (w, []) := by
  simp only [closeWipe, found, right, ne_eq, not_true_eq_false, ↓reduceIte]
  by_cases bound : (w.ctx.sess i).peer = d.peer
  · have same := (peer_eq_iff _ _).mpr bound
    simp only [ne_eq] at same
    rw [if_neg same, if_pos bound]
  · have differs := not_not.mp fun same => bound ((peer_eq_iff _ _).mp same)
    simp only [ne_eq] at differs
    rw [if_pos differs, if_neg bound]

theorem handleClose_step :
    CloseStep crypto w d clock (handleClose crypto w d clock).1
      (handleClose crypto w d clock).2 := by
  unfold handleClose
  dsimp only
  split
  · rename_i bad
    exact .unsigned (by simpa only [Bool.not_eq_true'] using bad)
  · rename_i signed
    have signed : verifySig crypto d.raw = true := by
      simpa only [Bool.not_eq_true', Bool.not_eq_false] using signed
    cases found : findSession w.ctx (hdrSid d.raw) with
    | none => exact .miss found
    | some i =>
      dsimp only
      split
      · rename_i spent
        simp only [Bool.and_eq_true, Bool.not_eq_true', decide_eq_false_iff_not] at spent
        exact .overBudget i found spent.1 spent.2
      · rename_i passes
        have tested : Tested w d i clock.entry := by
          refine ⟨found, ?_⟩
          by_cases bound : (w.ctx.sess i).peer = d.peer
          · exact .inl bound
          · simp only [bound, decide_false, Bool.not_false, Bool.true_and,
              Bool.not_eq_true] at passes
            exact .inr passes
        split
        · rename_i wrong
          have limits := serverRateAllowMismatch_limits .close w.rate d.peer.sinAddr
            clock.entry clock.rate
          split
          · rename_i refused
            simp only [Bool.not_eq_true'] at refused
            exact .uncharged i tested wrong refused _ limits
          · rename_i allowed
            simp only [Bool.not_eq_true', Bool.not_eq_false] at allowed
            rw [tokChargeUpgrade_found w.ctx _ _ d.peer clock.entry i found wrong]
            exact .charged i tested wrong allowed _ limits
        · rename_i right
          have right := not_not.mp right
          rw [closeWipe_found w d i found right]
          split
          · rename_i bound
            exact .wiped i tested signed right bound
          · rename_i foreign
            exact .elsewhere i tested right foreign

end

section

variable (crypto : Crypto) (w : World) (ping : Bool) (d : Datagram) (clock : Clock)

/-- What a PING or ECHO can do. -/
inductive KeepaliveStep : World → List Effect → Prop
  | untouched (fx : List Effect) (quiet : ∀ e ∈ fx, e.isQuiet = true) : KeepaliveStep w fx
  | touched (i : Slot) (fx : List Effect) (quiet : ∀ e ∈ fx, e.isQuiet = true)
      (signed : verifySig crypto d.raw = true)
      (found : findSession w.ctx (hdrSid d.raw) = some i)
      (right : (w.ctx.sess i).token = hdrTok d.raw)
      (gate : (w.ctx.sess i).peer = d.peer ∨
        tokRebindAllowed (w.ctx.sess i) clock.entry = true) :
      KeepaliveStep (w.modify i (fun s => s.driven d clock s.throttleUntilMs)) fx

theorem keepaliveTouch_cases :
    (∃ fx valid, (∀ e ∈ fx, e.isQuiet = true) ∧
      keepaliveTouch w.ctx d clock = (w.ctx, fx, valid)) ∨
    (∃ i fx, (∀ e ∈ fx, e.isQuiet = true) ∧ findSession w.ctx (hdrSid d.raw) = some i ∧
      (w.ctx.sess i).token = hdrTok d.raw ∧
      ((w.ctx.sess i).peer = d.peer ∨ tokRebindAllowed (w.ctx.sess i) clock.entry = true) ∧
      keepaliveTouch w.ctx d clock =
        (w.ctx.modify i (fun s => s.driven d clock s.throttleUntilMs), fx, true)) := by
  have single : ∀ i bound equal, ∀ e ∈ [Effect.tokenCompare i bound equal], e.isQuiet = true := by
    intro i bound equal e member
    rw [List.mem_singleton.mp member]
    rfl
  cases found : findSession w.ctx (hdrSid d.raw) with
  | none =>
    refine .inl ⟨[], false, fun e member => absurd member List.not_mem_nil, ?_⟩
    simp only [keepaliveTouch, found]
  | some i =>
    by_cases right : (w.ctx.sess i).token = hdrTok d.raw
    · by_cases bound : (w.ctx.sess i).peer = d.peer
      · have same : w.ctx.modify i (fun s => { s with lastActiveMs := clock.stamp }) =
            w.ctx.modify i (fun s => s.driven d clock s.throttleUntilMs) := by
          simp only [ServerCtx.modify, Session.driven, ← bound]
        refine .inr ⟨i, _, single i true true, rfl, right, .inl bound, ?_⟩
        simp only [keepaliveTouch, found, right, bound, decide_true, ↓reduceIte, same]
      · by_cases gate : tokRebindAllowed (w.ctx.sess i) clock.entry = true
        · refine .inr ⟨i, _, single i false true, rfl, right, .inr gate, ?_⟩
          simp only [keepaliveTouch, found, right, bound, decide_false, Bool.false_eq_true,
            ↓reduceIte, gate, and_self, Session.driven]
        · refine .inl ⟨_, false, single i false true, ?_⟩
          simp only [keepaliveTouch, found, right, bound, decide_false, Bool.false_eq_true,
            ↓reduceIte, gate, and_false]
    · refine .inl ⟨_, false, single i (decide ((w.ctx.sess i).peer = d.peer)) false, ?_⟩
      simp only [keepaliveTouch, found, right, ↓reduceIte]

theorem handleKeepalive_step :
    KeepaliveStep crypto w d clock (handleKeepalive crypto w ping d clock).1
      (handleKeepalive crypto w ping d clock).2 := by
  have reply : ∀ fx : List Effect, (∀ e ∈ fx, e.isQuiet = true) →
      ∀ e ∈ fx ++ [Effect.udpSend d.peer (keepaliveReply crypto ping d)], e.isQuiet = true := by
    intro fx quiet e member
    rcases List.mem_append.mp member with inside | sent
    · exact quiet e inside
    · rw [List.mem_singleton.mp sent]
      rfl
  unfold handleKeepalive
  split
  · exact .untouched [] fun e member => absurd member List.not_mem_nil
  · rename_i signed
    have signed : verifySig crypto d.raw = true := by
      simpa only [Bool.not_eq_true', Bool.not_eq_false] using signed
    rcases keepaliveTouch_cases w d clock with
      ⟨fx, valid, quiet, touch⟩ | ⟨i, fx, quiet, found, right, gate, touch⟩
    · rw [touch]
      dsimp only
      split
      · exact .untouched fx quiet
      · exact .untouched _ (reply fx quiet)
    · rw [touch]
      dsimp only
      split
      · exact .touched i fx quiet signed found right gate
      · exact .touched i _ (reply fx quiet) signed found right gate

end

section

variable (crypto : Crypto) (machine : Machine) (users : List ServerUser) (w : World)
  (d : Datagram) (env : UdpEnv)

/-- What a datagram can do. -/
inductive UdpStep : World → List Effect → Prop
  | dropped (rate : RateState) (limits : rate.limits = w.rate.limits) : UdpStep { w with rate } []
  | opened (named : FrameType.ofCode (hdrTyp d.raw) = some .ptOpen) (rate : RateState)
      (limits : rate.limits = w.rate.limits) (ctx : ServerCtx) (fx : List Effect)
      (step : OpenStep crypto users w.ctx d.raw d.peer env.clock env.draws ctx fx) :
      UdpStep ⟨ctx, rate⟩ fx
  | data (typ : FrameType) (isData : typ = .ptData ∨ typ = .ptDataEnc)
      (named : FrameType.ofCode (hdrTyp d.raw) = some typ) (w' : World) (fx : List Effect)
      (step : DataStep machine w typ d env w' fx) : UdpStep w' fx
  | close (named : FrameType.ofCode (hdrTyp d.raw) = some .ptClose) (w' : World)
      (fx : List Effect) (step : CloseStep crypto w d env.clock w' fx) : UdpStep w' fx
  | keepalive (typ : FrameType) (isProbe : typ = .ptPingReq ∨ typ = .ptEchoReq)
      (named : FrameType.ofCode (hdrTyp d.raw) = some typ) (rate : RateState)
      (limits : rate.limits = w.rate.limits) (w' : World) (fx : List Effect)
      (step : KeepaliveStep crypto { w with rate } d env.clock w' fx) : UdpStep w' fx

theorem handleUdp_step (inv : TableInv w.ctx) :
    UdpStep crypto machine users w d env (handleUdp crypto machine users w d env).1
      (handleUdp crypto machine users w d env).2 := by
  have limits := serverRateAllowControl_limits w.rate d.peer.sinAddr
    (FrameType.ofCode (hdrTyp d.raw)) env.clock.rate
  unfold handleUdp
  split
  · exact .dropped w.rate rfl
  · dsimp only
    split
    · exact .dropped _ limits
    · cases named : FrameType.ofCode (hdrTyp d.raw) with
      | none =>
        rw [named] at limits
        exact .dropped _ limits
      | some typ =>
        rw [named] at limits
        cases typ with
        | ptOpen => exact .opened named _ limits _ _ (handleOpen_step inv)
        | ptData =>
          exact .data .ptData (Or.inl rfl) named _ _ (handleData_step machine w .ptData d env)
        | ptDataEnc =>
          exact .data .ptDataEnc (Or.inr rfl) named _ _
            (handleData_step machine w .ptDataEnc d env)
        | ptClose => exact .close named _ _ (handleClose_step crypto w d env.clock)
        | ptPingReq =>
          exact .keepalive .ptPingReq (Or.inl rfl) named _ limits _ _
            (handleKeepalive_step crypto _ true d env.clock)
        | ptEchoReq =>
          exact .keepalive .ptEchoReq (Or.inr rfl) named _ limits _ _
            (handleKeepalive_step crypto _ false d env.clock)
        | _ => exact .dropped _ limits

end

inductive Event where
  | udp (d : Datagram) (env : UdpEnv)
  | purge (now : UInt64)

def Event.start : Event → UInt64
  | .udp _ env => env.clock.entry
  | .purge now => now

def Event.finish : Event → UInt64
  | .udp _ env => env.clock.stall
  | .purge now => now

section

variable (crypto : Crypto) (machine : Machine) (users : List ServerUser)

def serverStep (w : World) : Event → World × List Effect
  | .udp d env => handleUdp crypto machine users w d env
  | .purge now =>
    let (ctx, fx) := purgeExpired w.ctx now
    ({ w with ctx }, fx)

def serverRun (w : World) (events : List Event) : World :=
  Trace.final (serverStep crypto machine users) w events

def serverTrace (w : World) (events : List Event) : List Effect :=
  Trace.emitted (serverStep crypto machine users) w events

def ServerClocked (now : UInt64) (events : List Event) : Prop :=
  Trace.Clocked Event.start Event.finish now events

def serverClock (now : UInt64) (events : List Event) : UInt64 :=
  Trace.clockAfter Event.finish now events

end

/-- The table at the start. -/
structure Booted (ctx : ServerCtx) : Prop where
  zeroed : ∀ i, ctx.sess i = Session.zero
  unmapped : ∀ sid, ctx.sidMap sid = -1

theorem Booted.tableInv {ctx : ServerCtx} (boot : Booted ctx) : TableInv ctx := by
  have dead : ∀ i, (ctx.sess i).valid ≠ true := by
    intro i
    rw [boot.zeroed i]
    exact Bool.false_ne_true
  have index : ctx.index = fun _ => none := by
    funext sid
    rw [ServerCtx.index, boot.unmapped sid, mapSlot_free]
  refine ⟨?_, ?_, ?_, ?_, ?_⟩
  · rw [index]
    exact SlotIndex.Exact.empty dead
  · intro sid mapped
    rw [boot.unmapped sid] at mapped
    omega
  · exact fun i live => absurd live (dead i)
  · exact fun i live => absurd live (dead i)
  · exact fun i j live => absurd live (dead i)

section

variable {crypto : Crypto} {machine : Machine} {users : List ServerUser}

theorem driven_identity (s : Session) (d : Datagram) (clock : Clock) (til : UInt64) :
    (s.driven d clock til).identity = s.identity := rfl

@[simp] theorem sidMiss_ctx (w : World) (peer : SockaddrIn) (clock : Clock) :
    (sidMiss w peer clock).ctx = w.ctx := by
  unfold sidMiss
  cases serverRateAllowSidMiss w.rate peer.sinAddr clock.entry clock.rate with
  | mk rate allowed => rfl

variable {fx : List Effect}

theorem OpenStep.tableInv {ctx ctx' : ServerCtx} {raw : List UInt8} {peer : SockaddrIn}
    {clock : Clock} {draws : Draws} (inv : TableInv ctx)
    (step : OpenStep crypto users ctx raw peer clock draws ctx' fx) : TableInv ctx' := by
  cases step with
  | fresh a u slot ipu granted free newUser narrow probed =>
    have moved := inv.setNextIp (if ipu = ctx.ipEnd then ctx.ipBase else ipu + 1)
    apply moved.install slot (grantedSession crypto peer clock draws a u ipu.toUInt16 ipu) free
    · exact openProbe_free ctx _ _ ipu probed
    · rfl
    · exact (congrArg UInt32.toUInt16 (ip4U32_u32Ip4 ipu)).symm
    · exact mintToken_ne_zero draws
    · exact newUser
  | reopened a u slot granted live sameUser here =>
    apply inv.reinstall slot (grantedSession crypto peer clock draws a u (ctx.sess slot).sid
      (ip4U32 (ctx.sess slot).ip)) live rfl sameUser.symm rfl
    · have low := inv.lowSid slot live
      exact low.trans (congrArg UInt32.toUInt16 (ip4U32_u32Ip4 _)).symm
    · exact mintToken_ne_zero draws
  | _ => exact inv

theorem DataStep.tableInv {w w' : World} {typ : FrameType} {d : Datagram} {env : UdpEnv}
    (inv : TableInv w.ctx) (step : DataStep machine w typ d env w' fx) :
    TableInv w'.ctx := by
  cases step with
  | miss unknown =>
    rw [sidMiss_ctx]
    exact inv
  | charged i tested wrong rate limits =>
    exact inv.modify i (fun s => tokBudgetCharge s (peerBound w i d) env.clock.entry)
      (tokBudgetCharge_identity _ _ _)
  | driven i tested right idle gate =>
    exact inv.modify i (fun s => s.driven d env.clock
      (driveWrites machine w (w.ctx.sess i) typ d env).2) (driven_identity _ _ _ _)
  | _ => exact inv

theorem CloseStep.tableInv {w w' : World} {d : Datagram} {clock : Clock}
    (inv : TableInv w.ctx) (step : CloseStep crypto w d clock w' fx) : TableInv w'.ctx := by
  cases step with
  | miss unknown =>
    rw [sidMiss_ctx]
    exact inv
  | charged i tested wrong allowed rate limits =>
    exact inv.modify i (fun s => tokBudgetCharge s (peerBound w i d) clock.entry)
      (tokBudgetCharge_identity _ _ _)
  | wiped i tested signed right bound => exact inv.sessWipe i
  | _ => exact inv

theorem serverStep_tableInv (w : World) (e : Event) (inv : TableInv w.ctx) :
    TableInv (serverStep crypto machine users w e).1.ctx := by
  cases e with
  | purge now =>
    exact TableInv.wipeWhere inv fun s => s.valid && idleTimeoutMs < now - s.lastActiveMs
  | udp d env =>
    have step := handleUdp_step crypto machine users w d env inv
    change TableInv (handleUdp crypto machine users w d env).1.ctx
    generalize (handleUdp crypto machine users w d env).1 = w' at step ⊢
    generalize (handleUdp crypto machine users w d env).2 = fx at step
    cases step with
    | dropped rate limits => exact inv
    | opened named rate limits ctx fx step => exact step.tableInv inv
    | data typ isData named w' fx step => exact step.tableInv inv
    | close named w' fx step => exact step.tableInv inv
    | keepalive typ isProbe named rate limits w' fx step =>
      cases step with
      | untouched fx quiet => exact inv
      | touched i fx quiet signed found right gate =>
        exact inv.modify i (fun s => s.driven d env.clock s.throttleUntilMs)
          (driven_identity _ _ _ _)

theorem serverRun_tableInv (w : World) (events : List Event) (inv : TableInv w.ctx) :
    TableInv (serverRun crypto machine users w events).ctx :=
  Trace.final_invariant _ (fun w => TableInv w.ctx) serverStep_tableInv w events inv

end

end Iwan
