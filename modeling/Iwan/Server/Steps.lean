import Iwan.Server.Table

/- What each arm of handle_udp can do, said once. The second lookups under the write lock find what
the first found. -/
namespace Iwan

/-- What the server never changes. -/
structure ServerConfig where
  serverIp : Ip4
  dns : Ip4
  ipBase : UInt32
  ipEnd : UInt32
  subnetBase : UInt32
  subnetMask : UInt32
  subnetSet : Bool
  tunFd : Int
  tunPool : Bool
deriving DecidableEq

def ServerCtx.config (ctx : ServerCtx) : ServerConfig :=
  ⟨ctx.serverIp, ctx.dns, ctx.ipBase, ctx.ipEnd, ctx.subnetBase, ctx.subnetMask, ctx.subnetSet,
    ctx.tunFd, ctx.tunPool⟩

theorem openProbe_free (ctx : ServerCtx) (tries : Nat) (probe ipu : UInt32)
    (found : openProbe ctx tries probe = some ipu) : findSession ctx ipu.toUInt16 = none := by
  induction tries generalizing probe with
  | zero => cases found
  | succ tries ih =>
    rw [openProbe] at found
    generalize (if ctx.ipEnd < probe then ctx.ipBase else probe) = address at found
    split at found
    · rename_i free
      rw [← Option.some.inj found]
      exact Option.isNone_iff_eq_none.mp free
    · exact ih _ found

theorem wipeWhere_own {ctx : ServerCtx} (inv : TableInv ctx) (slot : Slot)
    (live : (ctx.sess slot).valid = true) :
    wipeWhere ctx (·.hasSid (ctx.sess slot).sid) = (sessWipe ctx slot, [.wipe slot]) := by
  apply wipeLoop_single _ _ _ (List.nodup_finRange _) slot (List.mem_finRange slot)
    ((hasSid_iff _ _).mpr ⟨live, rfl⟩)
  intro j carries
  obtain ⟨live', same⟩ := (hasSid_iff _ _).mp carries
  exact inv.sid_inj j slot live' live same

theorem wipeWhere_unused {ctx : ServerCtx} (inv : TableInv ctx) (sid : UInt16)
    (unused : findSession ctx sid = none) : wipeWhere ctx (·.hasSid sid) = (ctx, []) := by
  apply wipeLoop_none
  intro j _
  apply Bool.eq_false_iff.mpr
  intro carries
  obtain ⟨live, same⟩ := (hasSid_iff _ _).mp carries
  exact (findSession_none_iff inv sid).mp unused j live same

section

variable (crypto : Crypto) (users : List ServerUser) (ctx : ServerCtx) (raw : List UInt8)
  (peer : SockaddrIn) (clock : Clock) (draws : Draws)

/-- An OPEN with the user's password. -/
structure OpenGranted (a : OpenCtx) (u : ServerUser) : Prop where
  read : openRead crypto raw = .ok a
  listed : users.find? (fun u => u.name == a.user) = some u
  block : a.ct = encryptPassword crypto u.pass a.user

def grantedSession (a : OpenCtx) (u : ServerUser) (sid : UInt16) (ipu : UInt32) : Session :=
  openSession a sid (mintToken draws) ipu peer (sessionKey crypto a.user u.pass) clock.stamp

/-- What an OPEN can do. -/
inductive OpenStep : ServerCtx → List Effect → Prop
  | silent (unread : openRead crypto raw = .error none) : OpenStep ctx []
  | refused (reason : RejectReason) : OpenStep ctx [openReject crypto peer reason]
  | fresh (a : OpenCtx) (u : ServerUser) (slot : Slot) (ipu : UInt32)
      (granted : OpenGranted crypto users raw a u)
      (free : (ctx.sess slot).valid = false)
      (newUser : ∀ j, (ctx.sess j).valid = true → (ctx.sess j).user ≠ a.user)
      (narrow : ¬ 65536 < ctx.ipEnd - ctx.ipBase + 1)
      (probed : openProbe ctx (ctx.ipEnd - ctx.ipBase + 1).toNat ctx.nextIp = some ipu) :
      OpenStep
        (({ ctx with nextIp := if ipu = ctx.ipEnd then ctx.ipBase else ipu + 1 }).install slot
          (grantedSession crypto peer clock draws a u ipu.toUInt16 ipu))
        [.install slot,
          .udpSend peer (openAck crypto ctx a ipu.toUInt16 (mintToken draws) ipu)]
  | reopened (a : OpenCtx) (u : ServerUser) (slot : Slot)
      (granted : OpenGranted crypto users raw a u)
      (live : (ctx.sess slot).valid = true)
      (sameUser : (ctx.sess slot).user = a.user)
      (here : (ctx.sess slot).peer.sinAddr = peer.sinAddr ∨
        idleTimeoutMs < clock.check - (ctx.sess slot).lastActiveMs) :
      OpenStep
        (ctx.install slot (grantedSession crypto peer clock draws a u (ctx.sess slot).sid
          (ip4U32 (ctx.sess slot).ip)))
        [.wipe slot, .install slot,
          .udpSend peer (openAck crypto ctx a (ctx.sess slot).sid (mintToken draws)
            (ip4U32 (ctx.sess slot).ip))]

variable {crypto users ctx raw peer clock draws}

theorem openSlot_some (user : List UInt8) (slot : Slot) (chosen : openSlot ctx user = some slot) :
    ((ctx.sess slot).valid = true ∧ (ctx.sess slot).user = user) ∨
      ((ctx.sess slot).valid = false ∧
        ∀ j, (ctx.sess j).valid = true → (ctx.sess j).user ≠ user) := by
  unfold openSlot at chosen
  split at chosen
  · rename_i i found
    obtain rfl := Option.some.inj chosen
    have owns := scan_some ctx _ i found
    simp only [Bool.and_eq_true, beq_iff_eq] at owns
    exact .inl owns
  · rename_i missing
    have free := scan_some ctx _ slot chosen
    simp only [Bool.not_eq_true'] at free
    refine .inr ⟨free, fun j live same => ?_⟩
    have fails := scan_none ctx _ missing j
    simp only [live, same, beq_self_eq_true, Bool.and_self] at fails
    cases fails

theorem openElsewhere_false (s : Session) (now : UInt64) (live : s.valid = true)
    (allowed : openElsewhere s peer now = false) :
    s.peer.sinAddr = peer.sinAddr ∨ idleTimeoutMs < now - s.lastActiveMs := by
  simp only [openElsewhere, live, Bool.true_and, Bool.and_eq_false_iff, decide_eq_false_iff_not,
    not_not, UInt64.not_le] at allowed
  exact allowed

theorem openAuth_some (a : OpenCtx) (pass : List UInt8)
    (auth : openAuth crypto users a = some pass) :
    ∃ u, users.find? (fun u => u.name == a.user) = some u ∧
      a.ct = encryptPassword crypto u.pass a.user ∧ u.pass = pass := by
  unfold openAuth at auth
  split at auth
  · cases auth
  · rename_i u listed
    split at auth
    · rename_i block
      exact ⟨u, listed, block.symm, Option.some.inj auth⟩
    · cases auth

theorem openAddress_cases (ctx : ServerCtx) (slot : Slot) :
    ((ctx.sess slot).valid = true ∧
      openAddress ctx slot = (ctx, some (ip4U32 (ctx.sess slot).ip, (ctx.sess slot).sid))) ∨
    ((ctx.sess slot).valid = false ∧ openAddress ctx slot = (ctx, none)) ∨
    ((ctx.sess slot).valid = false ∧ ¬ 65536 < ctx.ipEnd - ctx.ipBase + 1 ∧
      ∃ ipu, openProbe ctx (ctx.ipEnd - ctx.ipBase + 1).toNat ctx.nextIp = some ipu ∧
        openAddress ctx slot =
          ({ ctx with nextIp := if ipu = ctx.ipEnd then ctx.ipBase else ipu + 1 },
            some (ipu, ipu.toUInt16))) := by
  cases live : (ctx.sess slot).valid with
  | true =>
    left
    simp only [openAddress, live, ↓reduceIte, and_self]
  | false =>
    right
    by_cases wide : 65536 < ctx.ipEnd - ctx.ipBase + 1
    · left
      simp only [openAddress, live, Bool.false_eq_true, ↓reduceIte, wide, and_self]
    · cases probed : openProbe ctx (ctx.ipEnd - ctx.ipBase + 1).toNat ctx.nextIp with
      | none =>
        left
        simp only [openAddress, live, Bool.false_eq_true, ↓reduceIte, wide, probed, and_self]
      | some ipu =>
        right
        refine ⟨rfl, wide, ipu, rfl, ?_⟩
        simp only [openAddress, live, Bool.false_eq_true, ↓reduceIte, wide, probed]

theorem handleOpen_step (inv : TableInv ctx) :
    OpenStep crypto users ctx raw peer clock draws
      (handleOpen crypto users ctx raw peer clock draws).1
      (handleOpen crypto users ctx raw peer clock draws).2 := by
  unfold handleOpen
  cases read : openRead crypto raw with
  | error reason =>
    cases reason with
    | none => exact .silent read
    | some reason => exact .refused reason
  | ok a =>
    dsimp only
    cases auth : openAuth crypto users a with
    | none => exact .refused .invalidCredentials
    | some pass =>
      obtain ⟨u, listed, block, rfl⟩ := openAuth_some a pass auth
      have granted : OpenGranted crypto users raw a u := ⟨read, listed, block⟩
      dsimp only
      cases chosen : openSlot ctx a.user with
      | none => exact .refused .serverFull
      | some slot =>
        dsimp only
        split
        · exact .refused .sessionActiveElsewhere
        · rename_i guard
          have allowed : openElsewhere (ctx.sess slot) peer clock.check = false :=
            Bool.not_eq_true _ ▸ guard
          have owner := openSlot_some a.user slot chosen
          rcases openAddress_cases ctx slot with
            ⟨live, address⟩ | ⟨free, address⟩ | ⟨free, narrow, ipu, probed, address⟩
          · simp only [live, true_and, Bool.true_eq_false, false_and, or_false] at owner
            have replaced := install_sessWipe ctx slot (grantedSession crypto peer clock
              draws a u (ctx.sess slot).sid (ip4U32 (ctx.sess slot).ip)) live rfl
            simp only [grantedSession] at replaced
            rw [address]
            dsimp only
            rw [wipeWhere_own inv slot live]
            dsimp only
            rw [replaced]
            exact .reopened a u slot granted live owner
              (openElsewhere_false _ _ live allowed)
          · rw [address]
            exact .refused .serverFull
          · simp only [free, Bool.false_eq_true, false_and, false_or, true_and] at owner
            have moved := inv.setNextIp (if ipu = ctx.ipEnd then ctx.ipBase else ipu + 1)
            rw [address]
            dsimp only
            rw [wipeWhere_unused moved ipu.toUInt16 (openProbe_free ctx _ _ ipu probed)]
            exact .fresh a u slot ipu granted free owner narrow probed

end

theorem tokBudgetCharge_identity (s : Session) (bound : Bool) (now : UInt64) :
    (tokBudgetCharge s bound now).identity = s.identity := by
  rw [tokBudgetCharge_frame]
  rfl

theorem tokRebindAllowed_not_over (s : Session) (now : UInt64)
    (allowed : tokRebindAllowed s now = true) : tokBudgetOver s now = false := by
  unfold tokRebindAllowed at allowed
  unfold tokBudgetOver
  cases live : tokWinLive s now with
  | false => rfl
  | true =>
    simp only [live, Bool.not_true, Bool.false_or, decide_eq_true_eq] at allowed
    simp only [allowed, Bool.true_and]
    decide

theorem tokChargeUpgrade_found (ctx : ServerCtx) (sid : UInt16) (tok : UInt32)
    (peer : SockaddrIn) (now : UInt64) (i : Slot) (found : findSession ctx sid = some i)
    (wrong : (ctx.sess i).token ≠ tok) :
    tokChargeUpgrade ctx sid tok peer now =
      (ctx.modify i (fun s => tokBudgetCharge s (decide ((ctx.sess i).peer = peer)) now),
        [.tokenCharge i (decide ((ctx.sess i).peer = peer))]) := by
  simp only [tokChargeUpgrade, found, wrong, ne_eq, not_false_eq_true, ↓reduceIte]

/-- The writes that a driver's frame causes, and the throttle deadline after them. -/
def driveWrites (machine : Machine) (w : World) (s : Session) (typ : FrameType) (d : Datagram)
    (env : UdpEnv) : List Effect × UInt64 :=
  match dataPayload machine s typ d.raw with
  | none => ([], s.throttleUntilMs)
  | some pkt =>
    if innerAccepted w.ctx (ip4U32 s.ip) pkt then
      if 0 ≤ w.ctx.tunFd then
        let (writes, written) := tunWrites w.ctx.tunPool pkt env
        (writes, if written then s.throttleUntilMs
          else env.clock.stall + (serverRateGetThrottleMs w.rate).toUInt64)
      else ([.echoMirror pkt], s.throttleUntilMs)
    else ([], s.throttleUntilMs)

def World.modify (w : World) (i : Slot) (f : Session → Session) : World :=
  { w with ctx := w.ctx.modify i f }

@[simp] theorem World.modify_ctx (w : World) (i : Slot) (f : Session → Session) :
    (w.modify i f).ctx = w.ctx.modify i f := rfl

def Session.driven (s : Session) (d : Datagram) (clock : Clock) (til : UInt64) : Session :=
  { s with peer := d.peer, lastActiveMs := clock.stamp, throttleUntilMs := til }

def Throttled (ctx : ServerCtx) (s : Session) (now : UInt64) : Prop :=
  0 ≤ ctx.tunFd ∧ now < s.throttleUntilMs

section

variable (machine : Machine) (w : World) (typ : FrameType) (d : Datagram) (env : UdpEnv)

theorem dataObtain_drive (i : Slot) (found : findSession w.ctx (hdrSid d.raw) = some i)
    (right : (w.ctx.sess i).token = hdrTok d.raw)
    (idle : ¬ Throttled w.ctx (w.ctx.sess i) env.clock.entry)
    (gate : (w.ctx.sess i).peer = d.peer ∨
      tokRebindAllowed (w.ctx.sess i) env.clock.entry = true) :
    dataObtain machine w typ d env.clock =
      (w.modify i (fun s => s.driven d env.clock s.throttleUntilMs),
        [.tokenCompare i (decide ((w.ctx.sess i).peer = d.peer)) true],
        (dataPayload machine (w.ctx.sess i) typ d.raw).map
          fun pkt => (ip4U32 (w.ctx.sess i).ip, pkt)) := by
  unfold Throttled at idle
  by_cases bound : (w.ctx.sess i).peer = d.peer
  · have same : w.ctx.modify i (fun s => { s with lastActiveMs := env.clock.stamp }) =
        w.ctx.modify i (fun s => s.driven d env.clock s.throttleUntilMs) := by
      simp only [ServerCtx.modify, Session.driven, ← bound]
    simp only [dataObtain, found, bound, decide_true, Bool.not_true, Bool.false_and,
      Bool.false_eq_true, ↓reduceIte, right, ne_eq, not_true_eq_false, idle, same, World.modify]
  · have allowed := gate.resolve_left bound
    have tested := tokRebindAllowed_not_over _ _ allowed
    have rebind : dataRebind w.ctx (hdrSid d.raw) (hdrTok d.raw) d.peer env.clock.entry =
        (w.ctx.modify i (fun s => { s with peer := d.peer }), [], some i) := by
      simp only [dataRebind, found, right, ne_eq, not_true_eq_false, ↓reduceIte, bound,
        not_false_eq_true, allowed, Bool.not_true, Bool.false_eq_true]
    simp only [dataObtain, found, bound, decide_false, Bool.not_false, Bool.true_and, tested,
      Bool.false_eq_true, ↓reduceIte, right, ne_eq, not_true_eq_false, idle, rebind,
      modify_modify, modify_self, dataPayload, World.modify, Session.driven]

theorem innerAccepted_congr (ctx ctx' : ServerCtx) (same : ctx'.config = ctx.config)
    (sIp : UInt32) (pkt : List UInt8) : innerAccepted ctx' sIp pkt = innerAccepted ctx sIp pkt := by
  have serverIp := congrArg ServerConfig.serverIp same
  have subnetBase := congrArg ServerConfig.subnetBase same
  have subnetMask := congrArg ServerConfig.subnetMask same
  have subnetSet := congrArg ServerConfig.subnetSet same
  simp only [ServerCtx.config] at serverIp subnetBase subnetMask subnetSet
  simp only [innerAccepted, upInnerDstBlocked6, upInnerDstInTunnel, serverIp, subnetBase,
    subnetMask, subnetSet]

theorem throttleStalled_driven (i : Slot) (found : findSession w.ctx (hdrSid d.raw) = some i)
    (right : (w.ctx.sess i).token = hdrTok d.raw) (clock : Clock) :
    throttleStalled (w.modify i (fun s => s.driven d clock s.throttleUntilMs)) (hdrSid d.raw)
        (hdrTok d.raw) clock =
      w.modify i (fun s => s.driven d clock
        (clock.stall + (serverRateGetThrottleMs w.rate).toUInt64)) := by
  have refound : findSession (w.ctx.modify i (fun s => s.driven d clock s.throttleUntilMs))
      (hdrSid d.raw) = some i := (findSession_modify w.ctx i _ rfl _).trans found
  have token : ((w.ctx.sess i).driven d clock (w.ctx.sess i).throttleUntilMs).token =
      hdrTok d.raw := right
  simp only [throttleStalled, World.modify, refound, modify_self, token, ↓reduceIte, modify_modify]
  rfl

theorem handleData_drive (i : Slot) (found : findSession w.ctx (hdrSid d.raw) = some i)
    (right : (w.ctx.sess i).token = hdrTok d.raw)
    (idle : ¬ Throttled w.ctx (w.ctx.sess i) env.clock.entry)
    (gate : (w.ctx.sess i).peer = d.peer ∨
      tokRebindAllowed (w.ctx.sess i) env.clock.entry = true) :
    handleData machine w typ d env =
      (w.modify i (fun s => s.driven d env.clock
          (driveWrites machine w (w.ctx.sess i) typ d env).2),
        .tokenCompare i (decide ((w.ctx.sess i).peer = d.peer)) true ::
          (driveWrites machine w (w.ctx.sess i) typ d env).1) := by
  have plain : w.modify i (fun s => s.driven d env.clock s.throttleUntilMs) =
      w.modify i (fun s => s.driven d env.clock (w.ctx.sess i).throttleUntilMs) := by
    simp only [World.modify, ServerCtx.modify]
  have stalled := throttleStalled_driven w d i found right env.clock
  rw [handleData, dataObtain_drive machine w typ d env i found right idle gate]
  unfold driveWrites
  cases payload : dataPayload machine (w.ctx.sess i) typ d.raw with
  | none => simp only [Option.map_none, plain]
  | some pkt =>
    have gate' := innerAccepted_congr w.ctx
      (w.ctx.modify i (fun s => s.driven d env.clock s.throttleUntilMs)) rfl
      (ip4U32 (w.ctx.sess i).ip) pkt
    cases accepted : innerAccepted w.ctx (ip4U32 (w.ctx.sess i).ip) pkt with
    | false =>
      simp only [Option.map_some, World.modify_ctx, gate', accepted, Bool.false_eq_true,
        ↓reduceIte]
      rw [plain]
    | true =>
      by_cases tun : 0 ≤ w.ctx.tunFd
      · cases written : (tunWrites w.ctx.tunPool pkt env).2 with
        | true =>
          simp only [Option.map_some, World.modify_ctx, gate', accepted, ↓reduceIte,
            dataWrite, modify_tunFd, tun, modify_tunPool, written, List.cons_append,
            List.nil_append]
          rw [plain]
        | false =>
          simp only [Option.map_some, World.modify_ctx, gate', accepted, ↓reduceIte,
            dataWrite, modify_tunFd, tun, modify_tunPool, written, Bool.false_eq_true,
            stalled, List.cons_append, List.nil_append]
      · simp only [Option.map_some, World.modify_ctx, gate', accepted, ↓reduceIte,
          dataWrite, modify_tunFd, tun, List.cons_append, List.nil_append]
        rw [plain]

def peerBound (w : World) (i : Slot) (d : Datagram) : Bool := decide ((w.ctx.sess i).peer = d.peer)

/-- The sid names a session and the token is compared: for other sources within the budget. -/
structure Tested (i : Slot) (now : UInt64) : Prop where
  found : findSession w.ctx (hdrSid d.raw) = some i
  tested : (w.ctx.sess i).peer = d.peer ∨ tokBudgetOver (w.ctx.sess i) now = false

/-- What a data frame can do. -/
inductive DataStep : World → List Effect → Prop
  | miss (unknown : findSession w.ctx (hdrSid d.raw) = none) :
      DataStep (sidMiss w d.peer env.clock) []
  | overBudget (i : Slot) (found : findSession w.ctx (hdrSid d.raw) = some i)
      (foreign : (w.ctx.sess i).peer ≠ d.peer)
      (spent : tokBudgetOver (w.ctx.sess i) env.clock.entry = true) :
      DataStep { w with rate := serverRateDropInc w.rate } []
  | uncharged (i : Slot) (tested : Tested w d i env.clock.entry)
      (bound : (w.ctx.sess i).peer = d.peer) (wrong : (w.ctx.sess i).token ≠ hdrTok d.raw)
      (rate : RateState) (limits : rate.limits = w.rate.limits) :
      DataStep { w with rate } [.tokenCompare i true false]
  | charged (i : Slot) (tested : Tested w d i env.clock.entry)
      (wrong : (w.ctx.sess i).token ≠ hdrTok d.raw)
      (rate : RateState) (limits : rate.limits = w.rate.limits) :
      DataStep
        ⟨w.ctx.modify i (fun s => tokBudgetCharge s (peerBound w i d) env.clock.entry), rate⟩
        [.tokenCompare i (peerBound w i d) false, .tokenCharge i (peerBound w i d)]
  | throttled (i : Slot) (tested : Tested w d i env.clock.entry)
      (right : (w.ctx.sess i).token = hdrTok d.raw)
      (busy : Throttled w.ctx (w.ctx.sess i) env.clock.entry) :
      DataStep { w with rate := serverRateDropInc w.rate } [.tokenCompare i (peerBound w i d) true]
  | held (i : Slot) (tested : Tested w d i env.clock.entry)
      (right : (w.ctx.sess i).token = hdrTok d.raw)
      (foreign : (w.ctx.sess i).peer ≠ d.peer)
      (gate : tokRebindAllowed (w.ctx.sess i) env.clock.entry = false) :
      DataStep w [.tokenCompare i (peerBound w i d) true]
  | driven (i : Slot) (tested : Tested w d i env.clock.entry)
      (right : (w.ctx.sess i).token = hdrTok d.raw)
      (idle : ¬ Throttled w.ctx (w.ctx.sess i) env.clock.entry)
      (gate : (w.ctx.sess i).peer = d.peer ∨
        tokRebindAllowed (w.ctx.sess i) env.clock.entry = true) :
      DataStep
        (w.modify i (fun s => s.driven d env.clock
          (driveWrites machine w (w.ctx.sess i) typ d env).2))
        (.tokenCompare i (peerBound w i d) true ::
          (driveWrites machine w (w.ctx.sess i) typ d env).1)

private theorem handleData_of_none (w' : World) (fx : List Effect)
    (nothing : dataObtain machine w typ d env.clock = (w', fx, none)) :
    handleData machine w typ d env = (w', fx) := by
  simp only [handleData, nothing]

private theorem Tested.passes {i : Slot} {now : UInt64} (tested : Tested w d i now) :
    (!decide ((w.ctx.sess i).peer = d.peer) && tokBudgetOver (w.ctx.sess i) now) = false := by
  rcases tested.tested with bound | unspent
  · simp only [bound, decide_true, Bool.not_true, Bool.false_and]
  · simp only [unspent, Bool.and_false]

private theorem handleData_mismatch (i : Slot) (tested : Tested w d i env.clock.entry)
    (wrong : (w.ctx.sess i).token ≠ hdrTok d.raw) :
    DataStep machine w typ d env (handleData machine w typ d env).1
      (handleData machine w typ d env).2 := by
  have found := tested.found
  have charges := tokChargeUpgrade_found w.ctx (hdrSid d.raw) (hdrTok d.raw) d.peer
    env.clock.entry i found wrong
  by_cases bound : (w.ctx.sess i).peer = d.peer
  · -- the peer's own address: the per-source budget decides whether it is charged
    cases budget : serverRateAllowTokbad w.rate d.peer.sinAddr env.clock.entry
      env.clock.rate with
    | mk rate allowed =>
      have limits : rate.limits = w.rate.limits := by
        have kept := serverRateAllowMismatch_limits .tokbad w.rate d.peer.sinAddr
          env.clock.entry env.clock.rate
        unfold serverRateAllowTokbad at budget
        rw [budget] at kept
        exact kept
      cases allowed with
      | false =>
        rw [handleData_of_none machine w typ d env
          { w with rate := serverRateDropInc rate } [.tokenCompare i true false]
          (by simp only [dataObtain, found, Bool.false_eq_true, ↓reduceIte, wrong, ne_eq,
            not_false_eq_true, bound, decide_true, budget, Bool.not_false, Bool.not_true,
            Bool.false_and])]
        exact .uncharged i tested bound wrong _ limits
      | true =>
        rw [handleData_of_none machine w typ d env _ _
          (by simp only [dataObtain, found, Bool.false_eq_true, ↓reduceIte, wrong, ne_eq,
            not_false_eq_true, bound, decide_true, budget, Bool.not_true, Bool.false_and,
            charges]; rfl)]
        have step : DataStep machine w typ d env _ _ := .charged i tested wrong rate limits
        simpa only [peerBound, bound, decide_true] using step
  · have unspent := tested.tested.resolve_left bound
    rw [handleData_of_none machine w typ d env _ _
      (by simp only [dataObtain, found, Bool.false_eq_true, ↓reduceIte, wrong, ne_eq,
        not_false_eq_true, bound, decide_false, Bool.not_false, Bool.not_true, Bool.true_and,
        unspent, charges]; rfl)]
    have step : DataStep machine w typ d env _ _ := .charged i tested wrong w.rate rfl
    simpa only [peerBound, bound, decide_false] using step

private theorem handleData_match (i : Slot) (tested : Tested w d i env.clock.entry)
    (right : (w.ctx.sess i).token = hdrTok d.raw) :
    DataStep machine w typ d env (handleData machine w typ d env).1
      (handleData machine w typ d env).2 := by
  have found := tested.found
  by_cases busy : Throttled w.ctx (w.ctx.sess i) env.clock.entry
  · have passes := tested.passes
    have busy' := busy
    unfold Throttled at busy'
    rw [handleData_of_none machine w typ d env
      { w with rate := serverRateDropInc w.rate } [.tokenCompare i (peerBound w i d) true]
      (by simp only [dataObtain, found, passes, Bool.false_eq_true, ↓reduceIte, right, ne_eq,
        not_true_eq_false, busy', and_self, peerBound])]
    exact .throttled i tested right busy
  · by_cases gate : (w.ctx.sess i).peer = d.peer ∨
        tokRebindAllowed (w.ctx.sess i) env.clock.entry = true
    · rw [handleData_drive machine w typ d env i found right busy gate]
      exact .driven i tested right busy gate
    · obtain ⟨foreign, shut⟩ := not_or.mp gate
      have unspent := tested.tested.resolve_left foreign
      have busy' := busy
      unfold Throttled at busy'
      have refused : dataRebind w.ctx (hdrSid d.raw) (hdrTok d.raw) d.peer env.clock.entry =
          (w.ctx, [], none) := by
        simp only [dataRebind, found, right, ne_eq, not_true_eq_false, ↓reduceIte, foreign,
          not_false_eq_true, Bool.not_eq_true _ ▸ shut, Bool.not_false]
      rw [handleData_of_none machine w typ d env w [.tokenCompare i (peerBound w i d) true]
        (by simp only [dataObtain, found, Bool.false_eq_true, ↓reduceIte, right, ne_eq,
          not_true_eq_false, busy', foreign, decide_false, Bool.not_false, Bool.true_and, unspent,
          refused, peerBound])]
      exact .held i tested right foreign (Bool.not_eq_true _ ▸ shut)

theorem handleData_step :
    DataStep machine w typ d env (handleData machine w typ d env).1
      (handleData machine w typ d env).2 := by
  cases found : findSession w.ctx (hdrSid d.raw) with
  | none =>
    rw [handleData_of_none machine w typ d env (sidMiss w d.peer env.clock) [] (by
      simp only [dataObtain, found])]
    exact .miss found
  | some i =>
    by_cases spent : (w.ctx.sess i).peer ≠ d.peer ∧
        tokBudgetOver (w.ctx.sess i) env.clock.entry = true
    · rw [handleData_of_none machine w typ d env { w with rate := serverRateDropInc w.rate } []
        (by simp only [dataObtain, found, spent, decide_false, Bool.not_false, Bool.and_self,
          ↓reduceIte])]
      exact .overBudget i found spent.1 spent.2
    · have tested : Tested w d i env.clock.entry := by
        refine ⟨found, ?_⟩
        by_cases bound : (w.ctx.sess i).peer = d.peer
        · exact .inl bound
        · exact .inr (Bool.not_eq_true _ ▸ fun used => spent ⟨bound, used⟩)
      by_cases right : (w.ctx.sess i).token = hdrTok d.raw
      · exact handleData_match machine w typ d env i tested right
      · exact handleData_mismatch machine w typ d env i tested right

end

end Iwan
