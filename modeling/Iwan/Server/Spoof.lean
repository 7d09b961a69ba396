import Iwan.Lib.Unwinding
import Iwan.Server.Gate

/- Two runs that differ by forged frames agree on what the session's peer can see. -/
namespace Iwan

def Session.bond (s : Session) : SessionIdentity × SockaddrIn × UInt64 :=
  (s.identity, s.peer, s.throttleUntilMs)

section

variable (crypto : Crypto) (machine : Machine) (users : List ServerUser)

theorem sidMiss_limits (w : World) (peer : SockaddrIn) (clock : Clock) :
    (sidMiss w peer clock).rate.limits = w.rate.limits := by
  have kept := serverRateAllowMismatch_limits .miss w.rate peer.sinAddr clock.entry clock.rate
  unfold sidMiss serverRateAllowSidMiss
  dsimp only
  split
  · exact kept
  · exact kept

theorem serverStep_limits (w : World) (e : Event) (inv : TableInv w.ctx) :
    (serverStep crypto machine users w e).1.rate.limits = w.rate.limits := by
  cases e with
  | purge now => rfl
  | udp d env =>
    have step := handleUdp_step crypto machine users w d env inv
    change (handleUdp crypto machine users w d env).1.rate.limits = w.rate.limits
    generalize (handleUdp crypto machine users w d env).1 = w' at step ⊢
    generalize (handleUdp crypto machine users w d env).2 = fx at step
    cases step with
    | dropped rate limits => exact limits
    | opened named rate limits ctx fx step => exact limits
    | data typ isData named w' fx step =>
      cases step with
      | miss unknown => exact sidMiss_limits w d.peer env.clock
      | uncharged i tested bound wrong rate limits => exact limits
      | charged i tested wrong rate limits => exact limits
      | _ => rfl
    | close named w' fx step =>
      cases step with
      | miss unknown => exact sidMiss_limits w d.peer env.clock
      | uncharged i tested wrong refused rate limits => exact limits
      | charged i tested wrong allowed rate limits => exact limits
      | _ => rfl
    | keepalive typ isProbe named rate limits w' fx step =>
      cases step with
      | untouched fx quiet => exact limits
      | touched i fx quiet signed found right gate => exact limits

end

/-- Two worlds in which a session is the same. -/
structure Agree (i : Slot) (w w' : World) : Prop where
  table : TableInv w.ctx
  table' : TableInv w'.ctx
  live : (w.ctx.sess i).valid = true
  config : w'.ctx.config = w.ctx.config
  limits : w'.rate.limits = w.rate.limits
  bond : (w'.ctx.sess i).bond = (w.ctx.sess i).bond

namespace Agree

variable {i : Slot} {w w' : World}

theorem identity (agree : Agree i w w') :
    (w'.ctx.sess i).identity = (w.ctx.sess i).identity :=
  congrArg Prod.fst agree.bond

theorem peer (agree : Agree i w w') : (w'.ctx.sess i).peer = (w.ctx.sess i).peer :=
  congrArg (fun bond => bond.2.1) agree.bond

theorem throttle (agree : Agree i w w') :
    (w'.ctx.sess i).throttleUntilMs = (w.ctx.sess i).throttleUntilMs :=
  congrArg (fun bond => bond.2.2) agree.bond

theorem live' (agree : Agree i w w') : (w'.ctx.sess i).valid = true :=
  (congrArg SessionIdentity.valid agree.identity).trans agree.live

theorem sid (agree : Agree i w w') : (w'.ctx.sess i).sid = (w.ctx.sess i).sid :=
  congrArg SessionIdentity.sid agree.identity

theorem token (agree : Agree i w w') : (w'.ctx.sess i).token = (w.ctx.sess i).token :=
  congrArg SessionIdentity.token agree.identity

theorem throttled (agree : Agree i w w') (now : UInt64) :
    Throttled w'.ctx (w'.ctx.sess i) now ↔ Throttled w.ctx (w.ctx.sess i) now := by
  have tun : w'.ctx.tunFd = w.ctx.tunFd := congrArg ServerConfig.tunFd agree.config
  unfold Throttled
  rw [tun, agree.throttle]

theorem writes (agree : Agree i w w') (machine : Machine) (typ : FrameType) (d : Datagram)
    (env : UdpEnv) :
    driveWrites machine w' (w'.ctx.sess i) typ d env =
      driveWrites machine w (w.ctx.sess i) typ d env := by
  have tunFd : w'.ctx.tunFd = w.ctx.tunFd := congrArg ServerConfig.tunFd agree.config
  have tunPool : w'.ctx.tunPool = w.ctx.tunPool := congrArg ServerConfig.tunPool agree.config
  have enc : (w'.ctx.sess i).enc = (w.ctx.sess i).enc :=
    congrArg SessionIdentity.enc agree.identity
  have key : (w'.ctx.sess i).xorKey = (w.ctx.sess i).xorKey :=
    congrArg SessionIdentity.xorKey agree.identity
  have ip : (w'.ctx.sess i).ip = (w.ctx.sess i).ip := congrArg SessionIdentity.ip agree.identity
  have throttleMs : serverRateGetThrottleMs w'.rate = serverRateGetThrottleMs w.rate := by
    simp only [serverRateGetThrottleMs, agree.limits]
  simp only [driveWrites, dataPayload, enc, key, ip, innerAccepted_congr w.ctx w'.ctx agree.config,
    tunFd, tunPool, agree.throttle, throttleMs]

end Agree

/-- DATA, DATA_ENC or CLOSE with the sid and a wrong token, or with a sid no session has. -/
structure Spoof (w : World) (s : Session) (d : Datagram) : Prop where
  typ : ∃ typ, FrameType.ofCode (hdrTyp d.raw) = some typ ∧ typ.isGuess = true
  wrong : (hdrSid d.raw = s.sid ∧ hdrTok d.raw ≠ s.token) ∨
    findSession w.ctx (hdrSid d.raw) = none

/-- A frame that does not move, replace or close the session. -/
structure Steady (crypto : Crypto) (users : List ServerUser) (s : Session) (d : Datagram) :
    Prop where
  settled : ∀ typ, FrameType.ofCode (hdrTyp d.raw) = some typ →
    typ = .ptData ∨ typ = .ptDataEnc ∨ typ = .ptPingReq ∨ typ = .ptEchoReq →
    hdrSid d.raw = s.sid → hdrTok d.raw = s.token → d.peer = s.peer
  noOpen : ∀ a u, FrameType.ofCode (hdrTyp d.raw) = some .ptOpen →
    OpenGranted crypto users d.raw a u → a.user ≠ s.user
  noClose : ¬ ClosedBy crypto s d

/-- A data frame of the session's peer. -/
structure PeerData (s : Session) (d : Datagram) (typ : FrameType) : Prop where
  isData : typ = .ptData ∨ typ = .ptDataEnc
  named : FrameType.ofCode (hdrTyp d.raw) = some typ
  sid : hdrSid d.raw = s.sid
  tok : hdrTok d.raw = s.token
  peer : d.peer = s.peer

section

variable {crypto : Crypto} {machine : Machine} {users : List ServerUser} {i : Slot}

theorem tokBudgetCharge_bond (s : Session) (bound : Bool) (now : UInt64) :
    (tokBudgetCharge s bound now).bond = s.bond := by
  rw [tokBudgetCharge_frame]
  rfl

theorem driven_bond (s : Session) (d : Datagram) (clock : Clock) (til : UInt64) :
    (s.driven d clock til).bond = (s.identity, d.peer, til) := rfl

variable {w : World} {d : Datagram}

theorem Spoof.bond (spoof : Spoof w (w.ctx.sess i) d) (env : UdpEnv)
    (inv : TableInv w.ctx) (live : (w.ctx.sess i).valid = true) :
    ((serverStep crypto machine users w (.udp d env)).1.ctx.sess i).bond =
      (w.ctx.sess i).bond := by
  obtain ⟨typ, named, guess⟩ := spoof.typ
  have unmatched : hdrSid d.raw = (w.ctx.sess i).sid → hdrTok d.raw ≠ (w.ctx.sess i).token := by
    intro sid
    rcases spoof.wrong with wrong | unknown
    · exact wrong.2
    · exact absurd sid.symm ((findSession_none_iff inv _).mp unknown i live)
  have outcome : SlotOutcome crypto users w i (.udp d env)
      ((serverStep crypto machine users w (.udp d env)).1.ctx.sess i)
      (serverStep crypto machine users w (.udp d env)).2 := serverStep_slot w (.udp d env) inv i
  generalize (serverStep crypto machine users w (.udp d env)).1.ctx.sess i = s at outcome ⊢
  generalize (serverStep crypto machine users w (.udp d env)).2 = fx at outcome
  cases outcome with
  | untouched e fx noWipe noInstall noCharge => rfl
  | charged d env _ cause => exact tokBudgetCharge_bond _ _ _
  | driven d env til fx _ cause probe noWipe noInstall noCharge =>
    exact absurd cause.tok (unmatched cause.sid)
  | closed d env fx _ cause wipes => exact absurd cause.tok (unmatched cause.sid)
  | refilled d env a u fx _ cause wipes installs =>
    obtain rfl := Option.some.inj (named.symm.trans cause.named)
    cases guess
  | filled d env a u ipu fx free granted newUser probed installs =>
    rw [free] at live
    cases live

theorem Steady.bond (steady : Steady crypto users (w.ctx.sess i) d)
    (env : UdpEnv) (inv : TableInv w.ctx) (live : (w.ctx.sess i).valid = true)
    (other : ∀ typ, PeerData (w.ctx.sess i) d typ → d.raw.length < iwanHdrLen) :
    ((serverStep crypto machine users w (.udp d env)).1.ctx.sess i).bond =
      (w.ctx.sess i).bond := by
  by_cases short : d.raw.length < iwanHdrLen
  · simp only [serverStep, handleUdp, short, ↓reduceIte]
  · have outcome : SlotOutcome crypto users w i (.udp d env)
        ((serverStep crypto machine users w (.udp d env)).1.ctx.sess i)
        (serverStep crypto machine users w (.udp d env)).2 := serverStep_slot w (.udp d env) inv i
    generalize (serverStep crypto machine users w (.udp d env)).1.ctx.sess i = s at outcome ⊢
    generalize (serverStep crypto machine users w (.udp d env)).2 = fx at outcome
    cases outcome with
    | untouched e fx noWipe noInstall noCharge => rfl
    | charged d env _ cause => exact tokBudgetCharge_bond _ _ _
    | driven d env til fx _ cause probe noWipe noInstall noCharge =>
      obtain ⟨typ, named, drives⟩ := cause.typ
      rcases drives with data | encrypted | ⟨keepalive, signed⟩
      · have peer := steady.settled typ named (Or.inl data) cause.sid cause.tok
        exact absurd (other typ ⟨Or.inl data, named, cause.sid, cause.tok, peer⟩) short
      · have peer := steady.settled typ named (Or.inr (Or.inl encrypted)) cause.sid cause.tok
        exact absurd (other typ ⟨Or.inr encrypted, named, cause.sid, cause.tok, peer⟩) short
      · have peer := steady.settled typ named (Or.inr (Or.inr keepalive)) cause.sid cause.tok
        simp only [Session.bond, Session.driven, Session.identity, peer,
          probe typ named keepalive]
    | closed d env fx _ cause wipes => exact absurd cause steady.noClose
    | refilled d env a u fx _ cause wipes installs =>
      exact absurd cause.user.symm (steady.noOpen a u cause.named cause.granted)
    | filled d env a u ipu fx free granted newUser probed installs =>
      rw [free] at live
      cases live

theorem Steady.congr {s t : Session} (steady : Steady crypto users s d)
    (same : t.bond = s.bond) : Steady crypto users t d := by
  have identity : t.identity = s.identity := congrArg Prod.fst same
  have sid : t.sid = s.sid := congrArg SessionIdentity.sid identity
  have token : t.token = s.token := congrArg SessionIdentity.token identity
  have user : t.user = s.user := congrArg SessionIdentity.user identity
  have peer : t.peer = s.peer := congrArg (fun bond => bond.2.1) same
  refine ⟨?_, ?_, fun cause => steady.noClose ?_⟩
  · rw [sid, token, peer]
    exact steady.settled
  · rw [user]
    exact steady.noOpen
  · exact ⟨cause.named, cause.signed, cause.sid.trans sid, cause.tok.trans token,
      cause.peer.trans peer⟩

theorem PeerData.congr {s t : Session} {typ : FrameType}
    (data : PeerData s d typ) (same : t.bond = s.bond) : PeerData t d typ := by
  have identity : t.identity = s.identity := congrArg Prod.fst same
  have sid : t.sid = s.sid := congrArg SessionIdentity.sid identity
  have token : t.token = s.token := congrArg SessionIdentity.token identity
  have peer : t.peer = s.peer := congrArg (fun bond => bond.2.1) same
  exact ⟨data.isData, data.named, data.sid.trans sid.symm, data.tok.trans token.symm,
    data.peer.trans peer.symm⟩

variable {w' : World}

theorem Agree.peerData {typ : FrameType} (agree : Agree i w w')
    (data : PeerData (w.ctx.sess i) d typ) (env : UdpEnv) :
    (serverStep crypto machine users w' (.udp d env)).2 =
        (serverStep crypto machine users w (.udp d env)).2 ∧
      ((serverStep crypto machine users w' (.udp d env)).1.ctx.sess i).bond =
        ((serverStep crypto machine users w (.udp d env)).1.ctx.sess i).bond ∧
      ((serverStep crypto machine users w (.udp d env)).1.ctx.sess i).identity =
        (w.ctx.sess i).identity := by
  have data' := data.congr agree.bond
  simp only [serverStep]
  by_cases short : d.raw.length < iwanHdrLen
  · simp only [handleUdp, short, ↓reduceIte, agree.bond, and_self]
  · have long := Nat.not_lt.mp short
    by_cases busy : Throttled w.ctx (w.ctx.sess i) env.clock.entry
    · have busy' := (agree.throttled env.clock.entry).mpr busy
      obtain ⟨kept, effects⟩ : (handleUdp crypto machine users w d env).1.ctx = w.ctx ∧ _ = _ :=
        handleUdp_peer_busy i agree.table agree.live typ data.isData data.named long data.sid
          data.tok data.peer.symm busy
      obtain ⟨kept', effects'⟩ : (handleUdp crypto machine users w' d env).1.ctx = w'.ctx ∧ _ = _ :=
        handleUdp_peer_busy i agree.table' agree.live' typ data'.isData data'.named long data'.sid
          data'.tok data'.peer.symm busy'
      rw [kept, kept', effects, effects']
      exact ⟨rfl, agree.bond, rfl⟩
    · have idle' : ¬ Throttled w'.ctx (w'.ctx.sess i) env.clock.entry :=
        fun busy' => busy ((agree.throttled env.clock.entry).mp busy')
      rw [handleUdp_peer i agree.table agree.live typ data.isData data.named long data.sid data.tok
        data.peer.symm busy, handleUdp_peer i agree.table' agree.live' typ data'.isData data'.named
        long data'.sid data'.tok data'.peer.symm idle', agree.writes machine typ d env]
      simp only [World.modify_ctx, modify_self, driven_bond, driven_identity, agree.identity,
        and_self]

theorem Agree.next {v v' : World} (agree : Agree i w w') (table : TableInv v.ctx)
    (table' : TableInv v'.ctx) (config : v.ctx.config = w.ctx.config)
    (config' : v'.ctx.config = w'.ctx.config) (limits : v.rate.limits = w.rate.limits)
    (limits' : v'.rate.limits = w'.rate.limits)
    (identity : (v.ctx.sess i).identity = (w.ctx.sess i).identity)
    (bond : (v'.ctx.sess i).bond = (v.ctx.sess i).bond) : Agree i v v' :=
  ⟨table, table', (congrArg SessionIdentity.valid identity).trans agree.live,
    config'.trans (agree.config.trans config.symm), limits'.trans (agree.limits.trans limits.symm),
    bond⟩

theorem Agree.common (agree : Agree i w w') (env : UdpEnv)
    (steady : Steady crypto users (w.ctx.sess i) d) :
    Agree i (serverStep crypto machine users w (.udp d env)).1
      (serverStep crypto machine users w' (.udp d env)).1 := by
  have bonds : ((serverStep crypto machine users w' (.udp d env)).1.ctx.sess i).bond =
        ((serverStep crypto machine users w (.udp d env)).1.ctx.sess i).bond ∧
      ((serverStep crypto machine users w (.udp d env)).1.ctx.sess i).identity =
        (w.ctx.sess i).identity := by
    by_cases own : ∃ typ, PeerData (w.ctx.sess i) d typ
    · obtain ⟨typ, data⟩ := own
      exact (agree.peerData data env).2
    · have other : ∀ typ, PeerData (w.ctx.sess i) d typ → d.raw.length < iwanHdrLen :=
        fun typ data => absurd ⟨typ, data⟩ own
      have other' : ∀ typ, PeerData (w'.ctx.sess i) d typ → d.raw.length < iwanHdrLen :=
        fun typ data => absurd ⟨typ, data.congr agree.bond.symm⟩ own
      have kept : ((serverStep crypto machine users w (.udp d env)).1.ctx.sess i).bond = _ :=
        steady.bond env agree.table agree.live other
      have kept' : ((serverStep crypto machine users w' (.udp d env)).1.ctx.sess i).bond = _ :=
        (steady.congr agree.bond).bond env agree.table' agree.live' other'
      exact ⟨kept'.trans (agree.bond.trans kept.symm), congrArg Prod.fst kept⟩
  exact agree.next (serverStep_tableInv w _ agree.table) (serverStep_tableInv w' _ agree.table')
    (serverStep_frame crypto machine users w _ agree.table).1
    (serverStep_frame crypto machine users w' _ agree.table').1
    (serverStep_limits crypto machine users w _ agree.table)
    (serverStep_limits crypto machine users w' _ agree.table') bonds.2 bonds.1

theorem Agree.extra (agree : Agree i w w') (env : UdpEnv) (spoof : Spoof w' (w'.ctx.sess i) d) :
    Agree i w (serverStep crypto machine users w' (.udp d env)).1 :=
  agree.next agree.table (serverStep_tableInv w' _ agree.table') rfl
    (serverStep_frame crypto machine users w' _ agree.table').1 rfl
    (serverStep_limits crypto machine users w' _ agree.table') rfl
    ((spoof.bond env agree.table' agree.live').trans agree.bond)

theorem handleUdp_close {env : UdpEnv} (named : FrameType.ofCode (hdrTyp d.raw) = some .ptClose)
    (signed : verifySig crypto d.raw = true) :
    handleUdp crypto machine users w d env = handleClose crypto w d env.clock := by
  have whole : ¬ d.raw.length < iwanHdrLen := by
    intro short
    have tooShort : d.raw.length < iwanCtrlLen := Nat.lt_of_lt_of_le short (by decide)
    simp only [verifySig, tooShort, ↓reduceIte, Bool.false_eq_true] at signed
  simp only [handleUdp, whole, ↓reduceIte, named, serverRateAllowControl, Bool.not_true,
    Bool.false_eq_true]

theorem ClosedBy.wipes (cause : ClosedBy crypto (w.ctx.sess i) d)
    (env : UdpEnv) (inv : TableInv w.ctx) (live : (w.ctx.sess i).valid = true) :
    .wipe i ∈ (serverStep crypto machine users w (.udp d env)).2 ∧
      ((serverStep crypto machine users w (.udp d env)).1.ctx.sess i).valid = false := by
  have found : findSession w.ctx (hdrSid d.raw) = some i :=
    (findSession_iff inv _ i).mpr ⟨live, cause.sid.symm⟩
  have here : ∀ j, findSession w.ctx (hdrSid d.raw) = some j → i = j :=
    fun j found' => Option.some.inj (found.symm.trans found')
  have step := handleClose_step crypto w d env.clock
  simp only [serverStep, handleUdp_close cause.named cause.signed]
  generalize (handleClose crypto w d env.clock).1 = w' at step ⊢
  generalize (handleClose crypto w d env.clock).2 = fx at step ⊢
  cases step with
  | unsigned bad => cases bad.symm.trans cause.signed
  | miss unknown => cases unknown.symm.trans found
  | overBudget j found' foreign spent =>
    obtain rfl := here j found'
    exact absurd cause.peer.symm foreign
  | uncharged j tested wrong refused rate limits =>
    obtain rfl := here j tested.found
    exact absurd cause.tok.symm wrong
  | charged j tested wrong allowed rate limits =>
    obtain rfl := here j tested.found
    exact absurd cause.tok.symm wrong
  | elsewhere j tested right foreign =>
    obtain rfl := here j tested.found
    exact absurd cause.peer.symm foreign
  | wiped j tested signed right bound =>
    obtain rfl := here j tested.found
    refine ⟨List.mem_cons_of_mem _ List.mem_cons_self, ?_⟩
    rw [sessWipe_self, wiped_valid]

end

section

variable (crypto : Crypto) (machine : Machine) (users : List ServerUser) (i : Slot)

def CommonFrame (w : World) : Event → Prop
  | .udp d _ => Steady crypto users (w.ctx.sess i) d
  | .purge _ => False

def SpoofFrame (w : World) : Event → Prop
  | .udp d _ => Spoof w (w.ctx.sess i) d
  | .purge _ => False

def SpoofedRuns (w : World) (mix : List (Unwinding.Insertion Event)) : Prop :=
  Unwinding.Admissible (serverStep crypto machine users) (CommonFrame crypto users i)
    (SpoofFrame i) w w mix

end

theorem serverRun_agree (crypto : Crypto) (machine : Machine) (users : List ServerUser)
    (i : Slot) (w : World) (inv : TableInv w.ctx) (live : (w.ctx.sess i).valid = true)
    (mix : List (Unwinding.Insertion Event))
    (spoofed : SpoofedRuns crypto machine users i w mix) :
    Agree i (serverRun crypto machine users w (Unwinding.commons mix))
      (serverRun crypto machine users w (Unwinding.everything mix)) := by
  apply Unwinding.final_related (Agree i) _ _ w w mix spoofed ⟨inv, inv, live, rfl, rfl, rfl⟩
  · intro w w' e agree common
    cases e with
    | udp d env => exact agree.common env common
    | purge now => exact common.elim
  · intro w w' e agree extra
    cases e with
    | udp d env => exact agree.extra env extra
    | purge now => exact extra.elim

/-- Wherever forged frames are inserted, every DATA frame of the bound peer has the same effects
with and without them, and its CLOSE removes the session in both. -/
theorem serverRun_spoofed (crypto : Crypto) (machine : Machine) (users : List ServerUser)
    (w : World) (boot : Booted w.ctx) (events : List Event) (i : Slot)
    (mix : List (Unwinding.Insertion Event)) :
    let start := serverRun crypto machine users w events
    (start.ctx.sess i).valid = true → SpoofedRuns crypto machine users i start mix →
      let plain := serverRun crypto machine users start (Unwinding.commons mix)
      let spoofed := serverRun crypto machine users start (Unwinding.everything mix)
      (spoofed.ctx.sess i).peer = (plain.ctx.sess i).peer ∧ ∀ d env,
        (∀ typ, PeerData (plain.ctx.sess i) d typ →
          (serverStep crypto machine users spoofed (.udp d env)).2 =
            (serverStep crypto machine users plain (.udp d env)).2) ∧
        (ClosedBy crypto (plain.ctx.sess i) d →
          ∀ v ∈ [plain, spoofed], .wipe i ∈ (serverStep crypto machine users v (.udp d env)).2 ∧
            ((serverStep crypto machine users v (.udp d env)).1.ctx.sess i).valid = false) := by
  intro start live runs plain spoofed
  have agree : Agree i plain spoofed := serverRun_agree crypto machine users i start
    (serverRun_tableInv w events boot.tableInv) live mix runs
  refine ⟨agree.peer, fun d env => ⟨fun typ data => (agree.peerData data env).1, fun cause => ?_⟩⟩
  have cause' : ClosedBy crypto (spoofed.ctx.sess i) d :=
    ⟨cause.named, cause.signed, cause.sid.trans agree.sid.symm, cause.tok.trans agree.token.symm,
      cause.peer.trans agree.peer.symm⟩
  intro v member
  rcases List.mem_cons.mp member with rfl | member
  · exact cause.wipes env agree.table agree.live
  · rw [List.mem_singleton.mp member]
    exact cause'.wipes env agree.table' agree.live'

def spoofWorld : World :=
  ⟨sampleCtx 0x0A000002 0x0A0000FE 0x0A000002,
    RateState.init { RateLimits.default with openMax := 1 }⟩

def spoofRun (events : List Event) : World :=
  serverRun sampleCrypto sampleMachine sampleUsers
    (serverRun sampleCrypto sampleMachine sampleUsers spoofWorld connectEvents) events

def spoofEffects (events : List Event) (e : Event) : List Effect :=
  (serverStep sampleCrypto sampleMachine sampleUsers (spoofRun events) e).2

def spoofEvent (raw : List UInt8) (peer : SockaddrIn) (now : UInt64) : Event :=
  .udp ⟨raw, peer⟩ (sampleEnv now 0x0A0B0C0D (by decide))

def spoofData (tok : UInt32) (peer : SockaddrIn) (now : UInt64) : Event :=
  spoofEvent (sampleData tok peer).raw peer now

theorem spoofData_forged (w : World) (sid : (w.ctx.sess 0).sid = 2)
    (token : (w.ctx.sess 0).token = 0x01020304) (peer : SockaddrIn) (now : UInt64) :
    SpoofFrame 0 w (spoofData 0xDEADBEEF peer now) := by
  refine ⟨⟨.ptData, rfl, rfl⟩, .inl ⟨?_, ?_⟩⟩
  · rw [sid, sampleData, hdrSid_pktHdr]
  · rw [token, sampleData, hdrTok_pktHdr]
    decide

def steadyMix : List (Unwinding.Insertion Event) :=
  [.extra (spoofData 0xDEADBEEF ⟨0x09090909, 4000⟩ 6000),
    .extra (spoofData 0xDEADBEEF ⟨0x01010101, 4000⟩ 6000),
    .common (spoofData 0x01020304 ⟨0x01010101, 4000⟩ 6000)]

theorem serverRun_spoofed_sample :
    ((spoofRun []).ctx.sess 0).valid = true ∧
      spoofEffects (Unwinding.commons steadyMix) (spoofData 0x01020304 ⟨0x01010101, 4000⟩ 6000) =
        [.tokenCompare 0 true true, .tunWrite false (samplePacket ⟨8, 8, 8, 8⟩)] ∧
      spoofEffects (Unwinding.everything steadyMix)
          (spoofData 0x01020304 ⟨0x01010101, 4000⟩ 6000) =
        spoofEffects (Unwinding.commons steadyMix)
          (spoofData 0x01020304 ⟨0x01010101, 4000⟩ 6000) := by
  have live : ((serverRun sampleCrypto sampleMachine sampleUsers spoofWorld
      connectEvents).ctx.sess 0).valid = true := by decide +kernel
  have steady : Steady sampleCrypto sampleUsers ((serverRun sampleCrypto sampleMachine sampleUsers
      spoofWorld connectEvents).ctx.sess 0) (sampleData 0x01020304 ⟨0x01010101, 4000⟩) :=
    ⟨fun _ _ _ _ _ => by decide +kernel, fun _ _ named => (nomatch named),
      fun cause => (nomatch cause.named)⟩
  have runs : SpoofedRuns sampleCrypto sampleMachine sampleUsers 0 (serverRun sampleCrypto
      sampleMachine sampleUsers spoofWorld connectEvents) steadyMix :=
    ⟨spoofData_forged _ (by decide +kernel) (by decide +kernel) _ _,
      spoofData_forged _ (by decide +kernel) (by decide +kernel) _ _, steady, trivial⟩
  have data : PeerData ((spoofRun (Unwinding.commons steadyMix)).ctx.sess 0)
      (sampleData 0x01020304 ⟨0x01010101, 4000⟩) .ptData :=
    ⟨Or.inl rfl, rfl, by decide +kernel, by decide +kernel, by decide +kernel⟩
  refine ⟨by decide +kernel, by decide +kernel, ?_⟩
  unfold spoofRun at data
  unfold spoofEffects spoofRun
  exact ((serverRun_spoofed sampleCrypto sampleMachine sampleUsers spoofWorld
    ⟨fun _ => rfl, fun _ => rfl⟩ connectEvents 0 steadyMix live runs).2 _ _).1 .ptData data

def roamingMix : List (Unwinding.Insertion Event) :=
  [.extra (spoofData 0xDEADBEEF ⟨0x09090909, 4000⟩ 6000),
    .common (spoofData 0x01020304 ⟨0x02020202, 5000⟩ 6000)]

def stalledMix : List (Unwinding.Insertion Event) :=
  [.extra (spoofData 0xDEADBEEF ⟨0x09090909, 4000⟩ 6000),
    .common (.udp (sampleData 0x01020304 ⟨0x02020202, 5000⟩)
      { sampleEnv 6999 1 (by decide) with ownerOk := false }),
    .common (spoofData 0x01020304 ⟨0x02020202, 5000⟩ 7000)]

def reopenMix : List (Unwinding.Insertion Event) :=
  [.extra (spoofData 0xDEADBEEF ⟨0x01010101, 4000⟩ 7000),
    .common (spoofEvent (pktHdr .ptOpen 0 0 0) ⟨0x01010101, 4000⟩ 7999),
    .common (spoofEvent (sampleOpen (sampleUser 0x61 0x70 sampleName_ne samplePass_ne) 0)
      ⟨0x01010101, 4000⟩ 8000)]

/-- The next packet of a client that moved is delivered in one of the runs only. -/
theorem spoofed_moving_client :
    let delivered := [.tokenCompare 0 true true, .tunWrite false (samplePacket ⟨8, 8, 8, 8⟩)]
    ((spoofRun []).ctx.sess 0).valid = true ∧
      (∀ peer now, SpoofFrame 0 (spoofRun []) (spoofData 0xDEADBEEF peer now)) ∧
      (((spoofRun (Unwinding.commons roamingMix)).ctx.sess 0).peer = ⟨0x02020202, 5000⟩ ∧
        spoofEffects (Unwinding.commons roamingMix)
            (spoofData 0x01020304 ⟨0x02020202, 5000⟩ 6000) = delivered ∧
        spoofEffects (Unwinding.everything roamingMix)
            (spoofData 0x01020304 ⟨0x02020202, 5000⟩ 6000) = [.tokenCompare 0 false true]) ∧
      (((spoofRun (Unwinding.commons stalledMix)).ctx.sess 0).peer = ⟨0x02020202, 5000⟩ ∧
        ((spoofRun (Unwinding.everything stalledMix)).ctx.sess 0).peer = ⟨0x02020202, 5000⟩ ∧
        spoofEffects (Unwinding.commons stalledMix)
            (spoofData 0x01020304 ⟨0x02020202, 5000⟩ 7000) = [.tokenCompare 0 true true] ∧
        spoofEffects (Unwinding.everything stalledMix)
            (spoofData 0x01020304 ⟨0x02020202, 5000⟩ 7000) = delivered) ∧
      (((spoofRun (Unwinding.commons reopenMix)).ctx.sess 0).peer = ⟨0x01010101, 4000⟩ ∧
        spoofEffects (Unwinding.commons reopenMix)
            (spoofData 0x01020304 ⟨0x01010101, 4000⟩ 8000) = delivered ∧
        spoofEffects (Unwinding.everything reopenMix)
            (spoofData 0x01020304 ⟨0x01010101, 4000⟩ 8000) =
          [.tokenCompare 0 true false, .tokenCharge 0 true]) :=
  ⟨by decide +kernel,
    fun _ _ => spoofData_forged _ (by decide +kernel) (by decide +kernel) _ _,
    ⟨by decide +kernel, by decide +kernel, by decide +kernel⟩,
    ⟨by decide +kernel, by decide +kernel, by decide +kernel, by decide +kernel⟩,
    ⟨by decide +kernel, by decide +kernel, by decide +kernel⟩⟩

end Iwan
