import Iwan.Server.Dispatch

/- One call seen from one slot, each outcome with its reason. -/
namespace Iwan

section

variable (crypto : Crypto) (users : List ServerUser) (w : World) (i : Slot)

/-- A CLOSE that ends a session. -/
structure ClosedBy (s : Session) (d : Datagram) : Prop where
  named : FrameType.ofCode (hdrTyp d.raw) = some .ptClose
  signed : verifySig crypto d.raw = true
  sid : hdrSid d.raw = s.sid
  tok : hdrTok d.raw = s.token
  peer : d.peer = s.peer

/-- An OPEN of the session's user with the password, from its address or when it is idle. -/
structure ReopenedBy (s : Session) (d : Datagram) (clock : Clock) (a : OpenCtx)
    (u : ServerUser) : Prop where
  named : FrameType.ofCode (hdrTyp d.raw) = some .ptOpen
  granted : OpenGranted crypto users d.raw a u
  user : s.user = a.user
  here : s.peer.sinAddr = d.peer.sinAddr ∨ idleTimeoutMs < clock.check - s.lastActiveMs

def FrameType.isGuess (typ : FrameType) : Bool :=
  typ = .ptData || typ = .ptDataEnc || typ = .ptClose

/-- A wrong token that is tested. -/
structure ChargedBy (s : Session) (d : Datagram) (now : UInt64) : Prop where
  typ : ∃ typ, FrameType.ofCode (hdrTyp d.raw) = some typ ∧ typ.isGuess = true
  sid : hdrSid d.raw = s.sid
  wrong : hdrTok d.raw ≠ s.token
  tested : s.peer = d.peer ∨ tokBudgetOver s now = false

/-- A frame that moves a session on. -/
structure DrivenBy (s : Session) (d : Datagram) (now : UInt64) : Prop where
  typ : ∃ typ, FrameType.ofCode (hdrTyp d.raw) = some typ ∧
    (typ = .ptData ∨ typ = .ptDataEnc ∨
      ((typ = .ptPingReq ∨ typ = .ptEchoReq) ∧ verifySig crypto d.raw = true))
  sid : hdrSid d.raw = s.sid
  tok : hdrTok d.raw = s.token
  gate : s.peer = d.peer ∨ tokRebindAllowed s now = true

/-- What an event can do to a slot. -/
inductive SlotOutcome : Event → Session → List Effect → Prop
  | untouched (e : Event) (fx : List Effect) (noWipe : .wipe i ∉ fx) (noInstall : .install i ∉ fx)
      (noCharge : ∀ bound, .tokenCharge i bound ∉ fx) : SlotOutcome e (w.ctx.sess i) fx
  | charged (d : Datagram) (env : UdpEnv) (live : (w.ctx.sess i).valid = true)
      (cause : ChargedBy (w.ctx.sess i) d env.clock.entry) :
      SlotOutcome (.udp d env)
        (tokBudgetCharge (w.ctx.sess i) (peerBound w i d) env.clock.entry)
        [.tokenCompare i (peerBound w i d) false, .tokenCharge i (peerBound w i d)]
  | driven (d : Datagram) (env : UdpEnv) (til : UInt64) (fx : List Effect)
      (live : (w.ctx.sess i).valid = true)
      (cause : DrivenBy crypto (w.ctx.sess i) d env.clock.entry)
      (probe : ∀ typ, FrameType.ofCode (hdrTyp d.raw) = some typ →
        typ = .ptPingReq ∨ typ = .ptEchoReq → til = (w.ctx.sess i).throttleUntilMs)
      (noWipe : .wipe i ∉ fx)
      (noInstall : .install i ∉ fx) (noCharge : ∀ bound, .tokenCharge i bound ∉ fx) :
      SlotOutcome (.udp d env) ((w.ctx.sess i).driven d env.clock til) fx
  | closed (d : Datagram) (env : UdpEnv) (fx : List Effect)
      (live : (w.ctx.sess i).valid = true) (cause : ClosedBy crypto (w.ctx.sess i) d)
      (wipes : .wipe i ∈ fx) : SlotOutcome (.udp d env) (w.ctx.sess i).wiped fx
  | expired (now : UInt64) (fx : List Effect) (live : (w.ctx.sess i).valid = true)
      (idle : idleTimeoutMs < now - (w.ctx.sess i).lastActiveMs)
      (wipes : .wipe i ∈ fx) : SlotOutcome (.purge now) (w.ctx.sess i).wiped fx
  | refilled (d : Datagram) (env : UdpEnv) (a : OpenCtx) (u : ServerUser) (fx : List Effect)
      (live : (w.ctx.sess i).valid = true)
      (cause : ReopenedBy crypto users (w.ctx.sess i) d env.clock a u)
      (wipes : .wipe i ∈ fx) (installs : .install i ∈ fx) :
      SlotOutcome (.udp d env)
        (grantedSession crypto d.peer env.clock env.draws a u (w.ctx.sess i).sid
          (ip4U32 (w.ctx.sess i).ip)) fx
  | filled (d : Datagram) (env : UdpEnv) (a : OpenCtx) (u : ServerUser) (ipu : UInt32)
      (fx : List Effect) (free : (w.ctx.sess i).valid = false)
      (granted : OpenGranted crypto users d.raw a u)
      (newUser : ∀ j, (w.ctx.sess j).valid = true → (w.ctx.sess j).user ≠ a.user)
      (probed : openProbe w.ctx (w.ctx.ipEnd - w.ctx.ipBase + 1).toNat w.ctx.nextIp = some ipu)
      (installs : .install i ∈ fx) :
      SlotOutcome (.udp d env)
        (grantedSession crypto d.peer env.clock env.draws a u ipu.toUInt16 ipu) fx

end

section

variable {crypto : Crypto} {machine : Machine} {users : List ServerUser}

variable (w : World)

theorem driveWrites_mem (s : Session) (typ : FrameType) (d : Datagram) (env : UdpEnv)
    (e : Effect) (member : e ∈ (driveWrites machine w s typ d env).1) :
    (∃ pool pkt, e = .tunWrite pool pkt) ∨ ∃ pkt, e = .echoMirror pkt := by
  unfold driveWrites at member
  split at member
  · cases member
  · rename_i pkt _
    split at member
    · split at member
      · simp only [tunWrites] at member
        split at member
        · split at member
          · exact .inl ⟨true, pkt, List.mem_singleton.mp member⟩
          · rcases List.mem_cons.mp member with first | second
            · exact .inl ⟨true, pkt, first⟩
            · exact .inl ⟨false, pkt, List.mem_singleton.mp second⟩
        · exact .inl ⟨false, pkt, List.mem_singleton.mp member⟩
      · exact .inr ⟨pkt, List.mem_singleton.mp member⟩
    · cases member

private theorem quiet_untouched (i : Slot) (fx : List Effect)
    (quiet : ∀ e ∈ fx, e.isQuiet = true) :
    .wipe i ∉ fx ∧ .install i ∉ fx ∧ ∀ bound, .tokenCharge i bound ∉ fx := by
  refine ⟨fun member => ?_, fun member => ?_, fun bound member => ?_⟩ <;>
    cases quiet _ member

private theorem single_compare_quiet (j : Slot) (bound equal : Bool) :
    ∀ e ∈ [Effect.tokenCompare j bound equal], e.isQuiet = true := by
  intro e member
  rw [List.mem_singleton.mp member]
  rfl

private theorem untouched_of_quiet (i : Slot) (e : Event) (s : Session)
    (fx : List Effect) (same : s = w.ctx.sess i) (quiet : ∀ e ∈ fx, e.isQuiet = true) :
    SlotOutcome crypto users w i e s fx := by
  obtain ⟨noWipe, noInstall, noCharge⟩ := quiet_untouched i fx quiet
  rw [same]
  exact .untouched e fx noWipe noInstall noCharge

theorem untouched_of_idle (i : Slot) (e : Event) (s : Session)
    (same : s = w.ctx.sess i) : SlotOutcome crypto users w i e s [] :=
  untouched_of_quiet w i e s [] same fun _ member => absurd member List.not_mem_nil

private theorem charged_slot (inv : TableInv w.ctx) (d : Datagram) (env : UdpEnv)
    (i j : Slot) (tested : Tested w d j env.clock.entry)
    (wrong : (w.ctx.sess j).token ≠ hdrTok d.raw) (typ : FrameType)
    (named : FrameType.ofCode (hdrTyp d.raw) = some typ) (guess : typ.isGuess = true) :
    SlotOutcome crypto users w i (.udp d env)
      ((w.ctx.modify j (fun s => tokBudgetCharge s (peerBound w j d) env.clock.entry)).sess i)
      [.tokenCompare j (peerBound w j d) false, .tokenCharge j (peerBound w j d)] := by
  obtain ⟨live, sid⟩ := (findSession_iff inv _ j).mp tested.found
  by_cases here : i = j
  · subst i
    rw [modify_self]
    exact .charged d env live ⟨⟨typ, named, guess⟩, sid.symm, Ne.symm wrong, tested.tested⟩
  · rw [modify_other _ j _ i here]
    refine .untouched _ _ ?_ ?_ fun bound member => ?_
    · simp only [List.mem_cons, reduceCtorEq, List.not_mem_nil, or_self, not_false_eq_true]
    · simp only [List.mem_cons, reduceCtorEq, List.not_mem_nil, or_self, not_false_eq_true]
    · simp only [List.mem_cons, reduceCtorEq, List.not_mem_nil, or_false, false_or,
        Effect.tokenCharge.injEq] at member
      exact here member.1

private theorem driven_slot (inv : TableInv w.ctx) (d : Datagram) (env : UdpEnv)
    (i j : Slot) (til : UInt64) (fx : List Effect)
    (found : findSession w.ctx (hdrSid d.raw) = some j)
    (right : (w.ctx.sess j).token = hdrTok d.raw)
    (gate : (w.ctx.sess j).peer = d.peer ∨
      tokRebindAllowed (w.ctx.sess j) env.clock.entry = true) (typ : FrameType)
    (named : FrameType.ofCode (hdrTyp d.raw) = some typ)
    (drives : typ = .ptData ∨ typ = .ptDataEnc ∨
      ((typ = .ptPingReq ∨ typ = .ptEchoReq) ∧ verifySig crypto d.raw = true))
    (probe : typ = .ptPingReq ∨ typ = .ptEchoReq → til = (w.ctx.sess j).throttleUntilMs)
    (noWipe : .wipe i ∉ fx) (noInstall : .install i ∉ fx)
    (noCharge : ∀ bound, .tokenCharge i bound ∉ fx) :
    SlotOutcome crypto users w i (.udp d env)
      ((w.ctx.modify j (fun s => s.driven d env.clock til)).sess i) fx := by
  obtain ⟨live, sid⟩ := (findSession_iff inv _ j).mp found
  by_cases here : i = j
  · subst i
    rw [modify_self]
    refine .driven d env til fx live ⟨⟨typ, named, drives⟩, sid.symm, right.symm, gate⟩ ?_ noWipe
      noInstall noCharge
    intro typ' named'
    obtain rfl := Option.some.inj (named.symm.trans named')
    exact probe
  · rw [modify_other _ j _ i here]
    exact .untouched _ fx noWipe noInstall noCharge

theorem OpenStep.slot {w : World} {d : Datagram} {env : UdpEnv} {ctx : ServerCtx}
    {fx : List Effect}
    (step : OpenStep crypto users w.ctx d.raw d.peer env.clock env.draws ctx fx)
    (named : FrameType.ofCode (hdrTyp d.raw) = some .ptOpen) (i : Slot) :
    SlotOutcome crypto users w i (.udp d env) (ctx.sess i) fx := by
  cases step with
  | silent unread =>
    exact untouched_of_idle w i _ _ rfl
  | refused reason =>
    apply untouched_of_quiet w i _ _ _ rfl
    intro e member
    rw [List.mem_singleton.mp member]
    rfl
  | fresh a u slot ipu granted free newUser narrow probed =>
    by_cases here : i = slot
    · subst i
      rw [install_self]
      exact .filled d env a u ipu _ free granted newUser probed List.mem_cons_self
    · rw [install_other _ slot _ i here]
      refine .untouched _ _ ?_ ?_ fun bound => ?_ <;>
        simp only [List.mem_cons, reduceCtorEq, Effect.install.injEq, here, List.not_mem_nil,
          or_self, not_false_eq_true]
  | reopened a u slot granted live sameUser near =>
    by_cases here : i = slot
    · subst i
      rw [install_self]
      refine .refilled d env a u _ live ⟨named, granted, sameUser, near⟩ ?_ ?_ <;>
        simp only [List.mem_cons, reduceCtorEq, true_or, or_true]
    · rw [install_other _ slot _ i here]
      refine .untouched _ _ ?_ ?_ fun bound => ?_ <;>
        simp only [List.mem_cons, reduceCtorEq, Effect.install.injEq, Effect.wipe.injEq, here,
          List.not_mem_nil, or_self, not_false_eq_true]

theorem DataStep.slot {w w' : World} {typ : FrameType} {d : Datagram} {env : UdpEnv}
    {fx : List Effect} (inv : TableInv w.ctx) (isData : typ = .ptData ∨ typ = .ptDataEnc)
    (named : FrameType.ofCode (hdrTyp d.raw) = some typ)
    (step : DataStep machine w typ d env w' fx) (i : Slot) :
    SlotOutcome crypto users w i (.udp d env) (w'.ctx.sess i) fx := by
  cases step with
  | miss unknown =>
    rw [sidMiss_ctx]
    exact untouched_of_idle w i _ _ rfl
  | overBudget j found foreign spent =>
    exact untouched_of_idle w i _ _ rfl
  | uncharged j tested bound wrong rate limits =>
    exact untouched_of_quiet w i _ _ _ rfl (single_compare_quiet j true false)
  | charged j tested wrong rate limits =>
    apply charged_slot w inv d env i j tested wrong typ named
    rcases isData with rfl | rfl <;> rfl
  | throttled j tested right busy =>
    exact untouched_of_quiet w i _ _ _ rfl (single_compare_quiet j _ true)
  | held j tested right foreign gate =>
    exact untouched_of_quiet w i _ _ _ rfl (single_compare_quiet j _ true)
  | driven j tested right idle gate =>
    have drives : typ = .ptData ∨ typ = .ptDataEnc ∨
        ((typ = .ptPingReq ∨ typ = .ptEchoReq) ∧ verifySig crypto d.raw = true) :=
      isData.imp id Or.inl
    have data : ¬ (typ = .ptPingReq ∨ typ = .ptEchoReq) := by
      rcases isData with rfl | rfl <;> decide
    apply driven_slot w inv d env i j _ _ tested.found right gate typ named drives
      (absurd · data)
    all_goals
      intros
      intro member
      rcases List.mem_cons.mp member with first | rest
      · cases first
      · rcases driveWrites_mem _ _ _ _ _ _ rest with ⟨pool, pkt, same⟩ | ⟨pkt, same⟩ <;>
          cases same

theorem CloseStep.slot {w w' : World} {d : Datagram} {env : UdpEnv} {fx : List Effect}
    (inv : TableInv w.ctx) (named : FrameType.ofCode (hdrTyp d.raw) = some .ptClose)
    (step : CloseStep crypto w d env.clock w' fx) (i : Slot) :
    SlotOutcome crypto users w i (.udp d env) (w'.ctx.sess i) fx := by
  cases step with
  | miss unknown =>
    rw [sidMiss_ctx]
    exact untouched_of_idle w i _ _ rfl
  | uncharged j tested wrong refused rate limits =>
    exact untouched_of_quiet w i _ _ _ rfl (single_compare_quiet j _ false)
  | charged j tested wrong allowed rate limits =>
    exact charged_slot w inv d env i j tested wrong .ptClose named rfl
  | elsewhere j tested right foreign =>
    exact untouched_of_quiet w i _ _ _ rfl (single_compare_quiet j _ true)
  | wiped j tested signed right bound =>
    obtain ⟨live, sid⟩ := (findSession_iff inv _ j).mp tested.found
    by_cases here : i = j
    · subst i
      rw [sessWipe_self]
      refine .closed d env _ live ⟨named, signed, sid.symm, right.symm, bound.symm⟩ ?_
      simp only [List.mem_cons, reduceCtorEq, true_or, or_true]
    · rw [sessWipe_other _ j i here]
      refine .untouched _ _ ?_ ?_ fun bound => ?_ <;>
        simp only [List.mem_cons, reduceCtorEq, Effect.wipe.injEq, here, List.not_mem_nil,
          or_self, not_false_eq_true]
  | _ =>
    exact untouched_of_idle w i _ _ rfl

theorem purgeExpired_slot (now : UInt64) (i : Slot) :
    SlotOutcome crypto users w i (.purge now) ((purgeExpired w.ctx now).1.sess i)
      (purgeExpired w.ctx now).2 := by
  have wipes : ∀ e ∈ (purgeExpired w.ctx now).2, ∃ j, e = Effect.wipe j := by
    intro e member
    rw [purgeExpired, wipeWhere_effects] at member
    obtain ⟨j, _, same⟩ := List.mem_map.mp member
    exact ⟨j, same.symm⟩
  have mine : .wipe i ∈ (purgeExpired w.ctx now).2 ↔ (w.ctx.sess i).valid = true ∧
      idleTimeoutMs < now - (w.ctx.sess i).lastActiveMs := by
    rw [purgeExpired, wipeWhere_effects]
    simp only [List.mem_map, List.mem_filter, List.mem_finRange, true_and, Bool.and_eq_true,
      decide_eq_true_eq, Effect.wipe.injEq, exists_eq_right]
  have slot : (purgeExpired w.ctx now).1.sess i =
      if (w.ctx.sess i).valid = true ∧ idleTimeoutMs < now - (w.ctx.sess i).lastActiveMs
      then (w.ctx.sess i).wiped else w.ctx.sess i := by
    rw [purgeExpired, wipeWhere_sess]
    simp only [Bool.and_eq_true, decide_eq_true_eq]
  rw [slot]
  split
  · rename_i idle
    exact .expired now _ idle.1 idle.2 (mine.mpr idle)
  · rename_i active
    refine .untouched _ _ (fun member => active (mine.mp member)) ?_ fun bound => ?_
    all_goals
      intro member
      obtain ⟨j, same⟩ := wipes _ member
      cases same

theorem serverStep_slot (e : Event) (inv : TableInv w.ctx) (i : Slot) :
    SlotOutcome crypto users w i e ((serverStep crypto machine users w e).1.ctx.sess i)
      (serverStep crypto machine users w e).2 := by
  cases e with
  | purge now => exact purgeExpired_slot w now i
  | udp d env =>
    have step := handleUdp_step crypto machine users w d env inv
    change SlotOutcome crypto users w i (.udp d env)
      ((handleUdp crypto machine users w d env).1.ctx.sess i)
      (handleUdp crypto machine users w d env).2
    generalize (handleUdp crypto machine users w d env).1 = w' at step ⊢
    generalize (handleUdp crypto machine users w d env).2 = fx at step ⊢
    cases step with
    | dropped rate limits =>
      exact untouched_of_idle w i _ _ rfl
    | opened named rate limits ctx fx step => exact step.slot named i
    | data typ isData named w' fx step => exact step.slot inv isData named i
    | close named w' fx step => exact step.slot inv named i
    | keepalive typ isProbe named rate limits w' fx step =>
      cases step with
      | untouched fx quiet => exact untouched_of_quiet w i _ _ fx rfl quiet
      | touched j fx quiet signed found right gate =>
        obtain ⟨noWipe, noInstall, noCharge⟩ := quiet_untouched i fx quiet
        exact driven_slot w inv d env i j (w.ctx.sess j).throttleUntilMs fx found right gate
          typ named (Or.inr (Or.inr ⟨isProbe, signed⟩)) (fun _ => rfl)
          noWipe noInstall noCharge

end

end Iwan
