import Iwan.Server.Budget
import Iwan.Server.Pool

/- Who may change a session: its own user, its peer, or time. -/
namespace Iwan

/-- What an event can do to a slot that is not given to another session. -/
inductive StayOutcome (crypto : Crypto) (w : World) (i : Slot) :
    Event → Session → List Effect → Prop
  | untouched (e : Event) (fx : List Effect) (noCharge : ∀ bound, .tokenCharge i bound ∉ fx) :
      StayOutcome crypto w i e (w.ctx.sess i) fx
  | charged (d : Datagram) (env : UdpEnv)
      (cause : ChargedBy (w.ctx.sess i) d env.clock.entry) :
      StayOutcome crypto w i (.udp d env)
        (tokBudgetCharge (w.ctx.sess i) (peerBound w i d) env.clock.entry)
        [.tokenCompare i (peerBound w i d) false, .tokenCharge i (peerBound w i d)]
  | driven (d : Datagram) (env : UdpEnv) (til : UInt64) (fx : List Effect)
      (cause : DrivenBy crypto (w.ctx.sess i) d env.clock.entry)
      (noCharge : ∀ bound, .tokenCharge i bound ∉ fx) :
      StayOutcome crypto w i (.udp d env) ((w.ctx.sess i).driven d env.clock til) fx

section

variable {crypto : Crypto} {machine : Machine} {users : List ServerUser} {w : World} {i : Slot}
  {e : Event} {s : Session} {fx : List Effect}

theorem SlotOutcome.stays (outcome : SlotOutcome crypto users w i e s fx)
    (live : (w.ctx.sess i).valid = true) (noWipe : .wipe i ∉ fx) :
    StayOutcome crypto w i e s fx ∧ .install i ∉ fx := by
  cases outcome with
  | untouched e fx _ noInstall noCharge => exact ⟨.untouched e fx noCharge, noInstall⟩
  | charged d env _ cause =>
    refine ⟨.charged d env cause, ?_⟩
    simp only [List.mem_cons, reduceCtorEq, List.not_mem_nil, or_self, not_false_eq_true]
  | driven d env til fx _ cause probe _ noInstall noCharge =>
    exact ⟨.driven d env til fx cause noCharge, noInstall⟩
  | closed d env fx _ cause wipes => exact absurd wipes noWipe
  | expired now fx _ idle wipes => exact absurd wipes noWipe
  | refilled d env a u fx _ cause wipes installs => exact absurd wipes noWipe
  | filled d env a u ipu fx free granted newUser probed installs =>
    rw [free] at live
    cases live

theorem StayOutcome.identity (stay : StayOutcome crypto w i e s fx) :
    s.identity = (w.ctx.sess i).identity := by
  cases stay with
  | charged d env cause => exact tokBudgetCharge_identity _ _ _
  | _ => rfl

theorem serverRun_installed (i : Slot) (holds : UInt64 → Session → Prop)
    (preserved : ∀ now w e s fx, Stamped e.start (w.ctx.sess i) → now ≤ e.start →
      StayOutcome crypto w i e s fx → holds now (w.ctx.sess i) → holds e.finish s)
    (now : UInt64) (w : World) (events : List Event) (inv : ClockedInv now w)
    (clocked : ServerClocked now events) (live : (w.ctx.sess i).valid = true)
    (noWipe : .wipe i ∉ serverTrace crypto machine users w events)
    (start : holds now (w.ctx.sess i)) :
    holds (serverClock now events) ((serverRun crypto machine users w events).ctx.sess i) := by
  induction events generalizing now w with
  | nil => exact start
  | cons e rest ih =>
    obtain ⟨after, clocked⟩ := clocked
    rw [serverTrace, Trace.emitted_cons, List.mem_append, not_or] at noWipe
    obtain ⟨stay, _⟩ := (serverStep_slot w e inv.table i).stays live noWipe.1
    have live' : ((serverStep crypto machine users w e).1.ctx.sess i).valid = true :=
      (congrArg SessionIdentity.valid stay.identity).trans live
    exact ih e.finish _ (serverStep_clockedInv now w e inv after) clocked live' noWipe.2
      (preserved now w e _ _ ((inv.stamped i).later after) after stay start)

theorem serverRun_identity (i : Slot) (w : World) (events : List Event) (inv : TableInv w.ctx)
    (live : (w.ctx.sess i).valid = true)
    (noWipe : .wipe i ∉ serverTrace crypto machine users w events) :
    ((serverRun crypto machine users w events).ctx.sess i).identity =
      (w.ctx.sess i).identity := by
  induction events generalizing w with
  | nil => rfl
  | cons e rest ih =>
    rw [serverTrace, Trace.emitted_cons, List.mem_append, not_or] at noWipe
    obtain ⟨stay, _⟩ := (serverStep_slot w e inv i).stays live noWipe.1
    have live' : ((serverStep crypto machine users w e).1.ctx.sess i).valid = true :=
      (congrArg SessionIdentity.valid stay.identity).trans live
    exact (ih _ (serverStep_tableInv w e inv) live' noWipe.2).trans stay.identity

theorem StayOutcome.recalls (stay : StayOutcome crypto w i e s fx)
    (charge : .tokenCharge i false ∈ fx) (stamped : Stamped e.start (w.ctx.sess i)) :
    MarkWindow.Recalls 1000 s.window e.start.toNat := by
  cases stay with
  | untouched e fx noCharge => exact absurd charge (noCharge false)
  | charged d env cause =>
    simp only [List.mem_cons, reduceCtorEq, Effect.tokenCharge.injEq, true_and,
      List.not_mem_nil, or_false, false_or] at charge
    rw [← charge, tokBudgetCharge_window _ env.clock.entry stamped.window]
    exact MarkWindow.mark_recalls (by decide) (by decide) _
  | driven d env til fx cause noCharge => exact absurd charge (noCharge false)

theorem StayOutcome.stillRecalls (stay : StayOutcome crypto w i e s fx)
    (stamped : Stamped e.start (w.ctx.sess i)) (past : UInt64) (later : past ≤ e.start)
    (recalls : MarkWindow.Recalls 1000 (w.ctx.sess i).window past.toNat) :
    MarkWindow.Recalls 1000 s.window past.toNat := by
  cases stay with
  | charged d env cause =>
    rw [tokBudgetCharge_window _ env.clock.entry stamped.window]
    exact recalls.mark (by decide) (UInt64.le_iff_toNat_le.mp stamped.window)
      (UInt64.le_iff_toNat_le.mp later) _
  | _ => exact recalls

end

def Session.IdleAt (s : Session) (now : UInt64) : Prop :=
  s.lastActiveMs.toNat + idleTimeoutMs.toNat < now.toNat

theorem Stamped.idleAt {s : Session} {now : UInt64} (stamped : Stamped now s)
    (idle : idleTimeoutMs < now - s.lastActiveMs) : s.IdleAt now := by
  have elapsed : (now - s.lastActiveMs).toNat = now.toNat - s.lastActiveMs.toNat :=
    UInt64.toNat_sub_of_le _ _ stamped.active
  have longer := UInt64.lt_iff_toNat_lt.mp idle
  unfold Session.IdleAt
  omega

/-- What may remove or replace a session. -/
inductive Removal (crypto : Crypto) (users : List ServerUser) (s : Session) : Event → Prop
  | reopened (d : Datagram) (env : UdpEnv) (a : OpenCtx) (u : ServerUser)
      (named : FrameType.ofCode (hdrTyp d.raw) = some .ptOpen)
      (granted : OpenGranted crypto users d.raw a u) (user : s.user = a.user)
      (here : s.peer.sinAddr = d.peer.sinAddr ∨ s.IdleAt env.clock.check) :
      Removal crypto users s (.udp d env)
  | closed (d : Datagram) (env : UdpEnv) (cause : ClosedBy crypto s d) :
      Removal crypto users s (.udp d env)
  | expired (now : UInt64) (idle : s.IdleAt now) : Removal crypto users s (.purge now)

section

variable (crypto : Crypto) (machine : Machine) (users : List ServerUser)

/-- Every foreign mismatch charged to the session came before the running window. -/
def Unguessed (w : World) (events : List Event) (i : Slot) (now : UInt64) : Prop :=
  let s := (serverRun crypto machine users w events).ctx.sess i
  ∀ past c recent, events = past ++ c :: recent →
    let before := serverRun crypto machine users w past
    (before.ctx.sess i).valid = true →
    .tokenCharge i false ∈ (serverStep crypto machine users before c).2 →
    .wipe i ∉ serverTrace crypto machine users before (c :: recent) →
    tokWinLive s now = true → c.start < s.tokMisWin

/-- Its identity stays, and its peer changes only at an `unguessed` time. -/
structure Kept (before : World) (i : Slot) (e : Event) (after : World × List Effect)
    (unguessed : UInt64 → Prop) : Prop where
  noWipe : .wipe i ∉ after.2
  noInstall : .install i ∉ after.2
  identity : (after.1.ctx.sess i).identity = (before.ctx.sess i).identity
  peer : (after.1.ctx.sess i).peer ≠ (before.ctx.sess i).peer →
    ∃ d env, e = .udp d env ∧ (after.1.ctx.sess i).peer = d.peer ∧
      DrivenBy crypto (before.ctx.sess i) d env.clock.entry ∧ unguessed env.clock.entry

variable {crypto machine users}

theorem SlotOutcome.removal {w : World} {i : Slot} {e : Event} {s : Session} {fx : List Effect}
    (outcome : SlotOutcome crypto users w i e s fx) (stamped : Stamped e.start (w.ctx.sess i))
    (wipes : .wipe i ∈ fx) (live : (w.ctx.sess i).valid = true) :
    Removal crypto users (w.ctx.sess i) e := by
  cases outcome with
  | untouched e fx noWipe noInstall noCharge => exact absurd wipes noWipe
  | charged d env _ cause =>
    simp only [List.mem_cons, reduceCtorEq, List.not_mem_nil, or_self] at wipes
  | driven d env til fx _ cause probe noWipe noInstall noCharge => exact absurd wipes noWipe
  | closed d env fx _ cause _ => exact .closed d env cause
  | expired now fx _ idle _ => exact .expired now (stamped.idleAt idle)
  | refilled d env a u fx _ cause _ installs =>
    have checked : Stamped env.clock.check (w.ctx.sess i) :=
      stamped.later (UInt64.le_trans env.clock.entry_le_rate env.clock.rate_le_check)
    exact .reopened d env a u cause.named cause.granted cause.user
      (cause.here.imp id checked.idleAt)
  | filled d env a u ipu fx free granted newUser probed installs =>
    rw [free] at live
    cases live

theorem unguessed_of_rebind (w : World) (now : UInt64) (events : List Event) (i : Slot)
    (entry : UInt64) (inv : ClockedInv now w) (clocked : ServerClocked now events)
    (after : serverClock now events ≤ entry)
    (allowed : tokRebindAllowed ((serverRun crypto machine users w events).ctx.sess i) entry =
      true) : Unguessed crypto machine users w events i entry := by
  unfold Unguessed
  intro s past c recent split before live charge noWipe running
  subst split
  obtain ⟨clockedPast, started, clockedRecent⟩ := (Trace.Clocked.append _ _ now past _).mp clocked
  have invPast : ClockedInv _ before := serverRun_clockedInv now w past clockedPast inv
  rw [serverTrace, Trace.emitted_cons, List.mem_append, not_or] at noWipe
  obtain ⟨stay, _⟩ := (serverStep_slot before c invPast.table i).stays live noWipe.1
  have live' : ((serverStep crypto machine users before c).1.ctx.sess i).valid = true :=
    (congrArg SessionIdentity.valid stay.identity).trans live
  have recalled := serverRun_installed i
    (fun now s => c.start ≤ now ∧ MarkWindow.Recalls 1000 s.window c.start.toNat)
    (fun now w e s fx stamped later stay held =>
      ⟨UInt64.le_trans held.1 (UInt64.le_trans later e.start_le_finish),
        stay.stillRecalls stamped c.start (UInt64.le_trans held.1 later) held.2⟩)
    c.finish _ recent (serverStep_clockedInv _ before c invPast started) clockedRecent live'
    noWipe.2
    ⟨c.start_le_finish, stay.recalls charge ((invPast.stamped i).later started)⟩
  have ends : serverRun crypto machine users w (past ++ c :: recent) =
      serverRun crypto machine users (serverStep crypto machine users before c).1 recent :=
    Trace.final_append _ w past (c :: recent)
  have stamped : Stamped entry s :=
    ((serverRun_clockedInv now w _ clocked inv).stamped i).later after
  rw [← ends] at recalled
  have live := (tokWinLive_iff s entry stamped.window).mp running
  exact UInt64.lt_iff_toNat_lt.mpr (recalled.2.before live
    (tokRebindAllowed_window s entry stamped.window allowed live))

/-- Along every clocked run each call keeps a live session or removes it for one of the three
reasons, and until it is wiped its identity stays. -/
theorem serverRun_steward (crypto : Crypto) (machine : Machine) (users : List ServerUser)
    (w : World) (boot : Booted w.ctx) (now : UInt64) (events : List Event) (e : Event)
    (clocked : ServerClocked now (events ++ [e])) (i : Slot) :
    let before := serverRun crypto machine users w events
    let after := serverStep crypto machine users before e
    (before.ctx.sess i).valid = true →
      (Kept crypto before i e after (Unguessed crypto machine users w events i) ∨
        .wipe i ∈ after.2 ∧ Removal crypto users (before.ctx.sess i) e) ∧
      ∀ rest, .wipe i ∉ serverTrace crypto machine users before rest →
        ((serverRun crypto machine users before rest).ctx.sess i).identity =
          (before.ctx.sess i).identity := by
  intro before after live
  obtain ⟨clockedBefore, started, _⟩ := (Trace.Clocked.append _ _ now events [e]).mp clocked
  have inv : ClockedInv (serverClock now events) before :=
    serverRun_clockedInv now w events clockedBefore (boot.clockedInv now)
  have outcome : SlotOutcome crypto users before i e (after.1.ctx.sess i) after.2 :=
    serverStep_slot before e inv.table i
  constructor
  · by_cases wipes : .wipe i ∈ after.2
    · exact .inr ⟨wipes, outcome.removal ((inv.stamped i).later started) wipes live⟩
    · obtain ⟨stay, noInstall⟩ := outcome.stays live wipes
      refine .inl ⟨wipes, noInstall, stay.identity, fun moved => ?_⟩
      generalize after.1.ctx.sess i = s at stay moved ⊢
      generalize after.2 = fx at stay
      cases stay with
      | untouched e fx noCharge => exact absurd rfl moved
      | charged d env cause =>
        rw [tokBudgetCharge_frame] at moved
        exact absurd rfl moved
      | driven d env til fx cause noCharge =>
        have allowed := cause.gate.resolve_left (Ne.symm moved)
        exact ⟨d, env, rfl, rfl, cause, unguessed_of_rebind w now events i env.clock.entry
          (boot.clockedInv now) clockedBefore started allowed⟩
  · exact fun rest noWipe => serverRun_identity i before rest inv.table live noWipe

end

theorem serverRun_steward_sample :
    let before := serverRun sampleCrypto sampleMachine sampleUsers
      (sampleWorld 0x0A000002 0x0A0000FE 0x0A000002) sampleOpens
    let after := serverStep sampleCrypto sampleMachine sampleUsers before (.purge 200000)
    (before.ctx.sess 1).valid = true ∧
      (Kept sampleCrypto before 1 (.purge 200000) after
          (Unguessed sampleCrypto sampleMachine sampleUsers
            (sampleWorld 0x0A000002 0x0A0000FE 0x0A000002) sampleOpens 1) ∨
        .wipe 1 ∈ after.2 ∧
          Removal sampleCrypto sampleUsers (before.ctx.sess 1) (.purge 200000)) := by
  have clocked : ServerClocked 0 (sampleOpens ++ [.purge 200000]) :=
    ⟨by decide, by decide, by decide, by decide, trivial⟩
  have live : ((serverRun sampleCrypto sampleMachine sampleUsers
      (sampleWorld 0x0A000002 0x0A0000FE 0x0A000002) sampleOpens).ctx.sess 1).valid = true := by
    decide +kernel
  exact ⟨live, (serverRun_steward sampleCrypto sampleMachine sampleUsers _
    (sampleWorld_booted _ _ _) 0 sampleOpens (.purge 200000) clocked 1 live).1⟩

end Iwan
