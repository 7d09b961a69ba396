import Iwan.Server.Steward

/- The cap on token guesses against one session in one mismatch window. -/
namespace Iwan

def drawsOnBudget (w : World) : Event → Bool
  | .udp d env =>
    match FrameType.ofCode (hdrTyp d.raw) with
    | some .ptData => true
    | some .ptDataEnc => true
    | some .ptClose =>
      (serverRateAllowClose w.rate d.peer.sinAddr env.clock.entry env.clock.rate).2
    | _ => false
  | .purge _ => false

section

variable (crypto : Crypto) (machine : Machine) (users : List ServerUser)

/-- The call compares another source's token with the slot's in the window of `win`. -/
def foreignGuess (i : Slot) (win : UInt64) (w : World) (e : Event) : Bool :=
  (serverStep crypto machine users w e).2.contains (.tokenCompare i false false) &&
    ((serverStep crypto machine users w e).1.ctx.sess i).tokMisWin == win

def budgetedGuess (i : Slot) (win : UInt64) (w : World) (e : Event) : Bool :=
  drawsOnBudget w e && foreignGuess crypto machine users i win w e

variable {crypto machine users}

private theorem charge_follows (i j : Slot) (bound : Bool)
    (compared : .tokenCompare i false false ∈
      [Effect.tokenCompare j bound false, .tokenCharge j bound]) :
    .tokenCharge i false ∈ [Effect.tokenCompare j bound false, .tokenCharge j bound] := by
  simp only [List.mem_cons, Effect.tokenCompare.injEq, reduceCtorEq, List.not_mem_nil, or_false,
    and_true] at compared
  obtain ⟨rfl, rfl⟩ := compared
  exact List.mem_cons_of_mem _ List.mem_cons_self

private theorem no_equal_guess (i j : Slot) (bound : Bool) (fx : List Effect)
    (compared : .tokenCompare i false false ∈ Effect.tokenCompare j bound true :: fx) :
    .tokenCompare i false false ∈ fx := by
  rcases List.mem_cons.mp compared with same | rest
  · simp only [Effect.tokenCompare.injEq, Bool.false_eq_true, and_false] at same
  · exact rest

variable {fx : List Effect}

theorem DataStep.charged_of_compare {w w' : World} {typ : FrameType} {d : Datagram}
    {env : UdpEnv} (step : DataStep machine w typ d env w' fx) (i : Slot)
    (compared : .tokenCompare i false false ∈ fx) : .tokenCharge i false ∈ fx := by
  cases step with
  | uncharged j tested bound wrong rate limits => cases List.mem_singleton.mp compared
  | charged j tested wrong rate limits => exact charge_follows i j _ compared
  | throttled j tested right busy => cases no_equal_guess i j _ [] compared
  | held j tested right foreign gate => cases no_equal_guess i j _ [] compared
  | driven j tested right idle gate =>
    have written := no_equal_guess i j _ _ compared
    rcases driveWrites_mem _ _ _ _ _ _ written with ⟨pool, pkt, same⟩ | ⟨pkt, same⟩ <;>
      cases same
  | _ => cases compared

theorem CloseStep.charged_of_compare {w w' : World} {d : Datagram} {clock : Clock}
    (step : CloseStep crypto w d clock w' fx) (i : Slot)
    (allowed : (serverRateAllowClose w.rate d.peer.sinAddr clock.entry clock.rate).2 = true)
    (compared : .tokenCompare i false false ∈ fx) : .tokenCharge i false ∈ fx := by
  cases step with
  | uncharged j tested wrong refused rate limits =>
    rw [allowed] at refused
    cases refused
  | charged j tested wrong _ rate limits => exact charge_follows i j _ compared
  | elsewhere j tested right foreign => cases no_equal_guess i j _ [] compared
  | wiped j tested signed right bound =>
    cases List.mem_singleton.mp (no_equal_guess i j _ [.wipe j] compared)
  | _ => cases compared

theorem charged_of_compare (w : World) (e : Event) (inv : TableInv w.ctx) (i : Slot)
    (draws : drawsOnBudget w e = true)
    (compared : .tokenCompare i false false ∈ (serverStep crypto machine users w e).2) :
    .tokenCharge i false ∈ (serverStep crypto machine users w e).2 := by
  cases e with
  | purge now => cases draws
  | udp d env =>
    have step := handleUdp_step crypto machine users w d env inv
    change .tokenCompare i false false ∈ (handleUdp crypto machine users w d env).2 at compared
    change .tokenCharge i false ∈ (handleUdp crypto machine users w d env).2
    generalize (handleUdp crypto machine users w d env).1 = w' at step
    generalize (handleUdp crypto machine users w d env).2 = fx at step compared ⊢
    cases step with
    | dropped rate limits => cases compared
    | opened named rate limits ctx fx step =>
      simp only [drawsOnBudget, named] at draws
      cases draws
    | data typ isData named w' fx step => exact step.charged_of_compare i compared
    | close named w' fx step =>
      simp only [drawsOnBudget, named] at draws
      exact step.charged_of_compare i draws compared
    | keepalive typ isProbe named rate limits w' fx step =>
      rcases isProbe with rfl | rfl <;> simp only [drawsOnBudget, named] at draws <;>
        cases draws

variable {i : Slot}

theorem StayOutcome.room {w : World} {e : Event} {s : Session}
    (stay : StayOutcome crypto w i e s fx) (stamped : Stamped e.start (w.ctx.sess i))
    (win : UInt64) (nonzero : win ≠ 0) :
    s.window.room 4 win.toNat +
        (if .tokenCharge i false ∈ fx ∧ s.tokMisWin = win then 1 else 0) ≤
      (w.ctx.sess i).window.room 4 win.toNat := by
  cases stay with
  | untouched e fx noCharge => simp only [noCharge, false_and, ↓reduceIte, Nat.add_zero, le_refl]
  | charged d env cause =>
    have opened := UInt64.le_iff_toNat_le.mp stamped.window
    have start : win.toNat ≠ 0 := fun zero => nonzero (UInt64.toNat_inj.mp zero)
    have unspent : (!peerBound w i d) = true →
        ¬ (w.ctx.sess i).window.Spent 1000 4 env.clock.entry.toNat := by
      intro foreign spent
      have over' := (tokBudgetOver_iff _ env.clock.entry stamped.window).mpr spent
      rcases cause.tested with bound | free
      · simp only [peerBound, bound, decide_true, Bool.not_true, Bool.false_eq_true] at foreign
      · rw [free] at over'
        cases over'
    have taken := MarkWindow.mark_room (by decide) (by decide) opened (!peerBound w i d) unspent
      win.toNat start
    rw [← tokBudgetCharge_window _ env.clock.entry stamped.window] at taken
    have window : ∀ t : Session, t.window.start = win.toNat ↔ t.tokMisWin = win :=
      fun t => UInt64.toNat_inj
    cases bound : peerBound w i d with
    | true => simpa [bound] using taken
    | false => simpa [bound, window] using taken
  | driven d env til fx cause noCharge =>
    simp only [noCharge, false_and, ↓reduceIte, Nat.add_zero]
    exact Nat.le_refl _

theorem serverRun_room (now : UInt64) (w : World) (events : List Event) (inv : ClockedInv now w)
    (clocked : ServerClocked now events) (live : (w.ctx.sess i).valid = true)
    (noWipe : .wipe i ∉ serverTrace crypto machine users w events) (win : UInt64)
    (nonzero : win ≠ 0) :
    ((serverRun crypto machine users w events).ctx.sess i).window.room 4 win.toNat +
        Trace.count (serverStep crypto machine users) (budgetedGuess crypto machine users i win)
          w events ≤
      (w.ctx.sess i).window.room 4 win.toNat := by
  induction events generalizing now w with
  | nil => exact Nat.le_refl _
  | cons e rest ih =>
    obtain ⟨after, clocked⟩ := clocked
    rw [serverTrace, Trace.emitted_cons, List.mem_append, not_or] at noWipe
    obtain ⟨stay, _⟩ := (serverStep_slot w e inv.table i).stays live noWipe.1
    have live' : ((serverStep crypto machine users w e).1.ctx.sess i).valid = true :=
      (congrArg SessionIdentity.valid stay.identity).trans live
    have later := ih e.finish _ (serverStep_clockedInv now w e inv after) clocked live' noWipe.2
    have taken := stay.room ((inv.stamped i).later after) win nonzero
    have guessed : (if budgetedGuess crypto machine users i win w e then 1 else 0) ≤
        if .tokenCharge i false ∈ (serverStep crypto machine users w e).2 ∧
          ((serverStep crypto machine users w e).1.ctx.sess i).tokMisWin = win then 1 else 0 := by
      split
      · rename_i guess
        simp only [budgetedGuess, foreignGuess, Bool.and_eq_true, List.contains_iff_mem,
          beq_iff_eq] at guess
        rw [if_pos ⟨charged_of_compare w e inv.table i guess.1 guess.2.1, guess.2.2⟩]
      · exact Nat.zero_le _
    rw [Trace.count_cons]
    rw [serverRun, Trace.final_cons, ← serverRun]
    omega

theorem spent_untested (w : World) (inv : TableInv w.ctx) (d : Datagram) (env : UdpEnv)
    (typ : FrameType) (named : FrameType.ofCode (hdrTyp d.raw) = some typ)
    (guess : typ.isGuess = true) (live : (w.ctx.sess i).valid = true)
    (sid : hdrSid d.raw = (w.ctx.sess i).sid) (foreign : d.peer ≠ (w.ctx.sess i).peer)
    (spent : tokBudgetOver (w.ctx.sess i) env.clock.entry = true) :
    (serverStep crypto machine users w (.udp d env)).2 = [] := by
  have found : findSession w.ctx (hdrSid d.raw) = some i :=
    (findSession_iff inv _ i).mpr ⟨live, sid.symm⟩
  have untested : ∀ j, ¬ Tested w d j env.clock.entry := by
    rintro j ⟨found', tested⟩
    obtain rfl := Option.some.inj (found.symm.trans found')
    rcases tested with bound | unspent
    · exact foreign bound.symm
    · rw [spent] at unspent
      cases unspent
  have step := handleUdp_step crypto machine users w d env inv
  change (handleUdp crypto machine users w d env).2 = []
  generalize (handleUdp crypto machine users w d env).1 = w' at step
  generalize (handleUdp crypto machine users w d env).2 = fx at step
  cases step with
  | dropped rate limits => rfl
  | opened named' rate limits ctx fx step =>
    obtain rfl := Option.some.inj (named.symm.trans named')
    cases guess
  | data typ' isData named' w' fx step =>
    cases step with
    | uncharged j tested bound wrong rate limits => exact absurd tested (untested j)
    | charged j tested wrong rate limits => exact absurd tested (untested j)
    | throttled j tested right busy => exact absurd tested (untested j)
    | held j tested right foreign' gate => exact absurd tested (untested j)
    | driven j tested right idle gate => exact absurd tested (untested j)
    | _ => rfl
  | close named' w' fx step =>
    cases step with
    | uncharged j tested wrong refused rate limits => exact absurd tested (untested j)
    | charged j tested wrong allowed rate limits => exact absurd tested (untested j)
    | elsewhere j tested right foreign' => exact absurd tested (untested j)
    | wiped j tested signed right bound => exact absurd tested (untested j)
    | _ => rfl
  | keepalive typ' isProbe named' rate limits w' fx step =>
    obtain rfl := Option.some.inj (named.symm.trans named')
    rcases isProbe with rfl | rfl <;> cases guess

/-- Along every clocked run at most four budgeted guesses of others are tested against a session in
one mismatch window. -/
theorem serverRun_guessCap (crypto : Crypto) (machine : Machine) (users : List ServerUser)
    (w : World) (boot : Booted w.ctx) (now : UInt64) (events rest : List Event)
    (clocked : ServerClocked now (events ++ rest)) (i : Slot) (win : UInt64) (window : win ≠ 0) :
    let before := serverRun crypto machine users w events
    let after := serverRun crypto machine users before rest
    let guesses := Trace.count (serverStep crypto machine users)
      (budgetedGuess crypto machine users i win) before rest
    (before.ctx.sess i).valid = true → .wipe i ∉ serverTrace crypto machine users before rest →
      guesses ≤ 4 ∧
      (guesses = 4 → ∀ d env typ, FrameType.ofCode (hdrTyp d.raw) = some typ →
        typ.isGuess = true → hdrSid d.raw = (after.ctx.sess i).sid →
        d.peer ≠ (after.ctx.sess i).peer → (after.ctx.sess i).tokMisWin = win →
        tokWinLive (after.ctx.sess i) env.clock.entry = true →
        (serverStep crypto machine users after (.udp d env)).2 = []) := by
  intro before after guesses live noWipe
  obtain ⟨clockedBefore, clockedRest⟩ := (Trace.Clocked.append _ _ now events rest).mp clocked
  have inv : ClockedInv (serverClock now events) before :=
    serverRun_clockedInv now w events clockedBefore (boot.clockedInv now)
  have fits : (after.ctx.sess i).window.room 4 win.toNat + guesses ≤
      (before.ctx.sess i).window.room 4 win.toNat :=
    serverRun_room _ before rest inv clockedRest live noWipe win window
  have room : (before.ctx.sess i).window.room 4 win.toNat ≤ 4 := MarkWindow.room_le _
  refine ⟨by omega, fun four d env typ named guess sid foreign running alive => ?_⟩
  have full : 4 ≤ (after.ctx.sess i).window.count := by
    have none : (after.ctx.sess i).window.room 4 win.toNat = 0 := by omega
    have here : (after.ctx.sess i).window.start = win.toNat := congrArg UInt64.toNat running
    simp only [MarkWindow.room, here, ↓reduceIte] at none
    omega
  have spent : tokBudgetOver (after.ctx.sess i) env.clock.entry = true := by
    simp only [tokBudgetOver, alive, Bool.true_and, decide_eq_true_eq, UInt32.le_iff_toNat_le]
    exact full
  have live' : (after.ctx.sess i).valid = true :=
    (congrArg SessionIdentity.valid (serverRun_identity i before rest inv.table live noWipe)).trans
      live
  exact spent_untested after (serverRun_tableInv before rest inv.table) d env typ named guess live'
    sid foreign spent

end

def guessCrypto : Crypto where
  md5 bytes :=
    if bytes = pktHdr .ptEchoReq 0 2 0xDEADBEEF ++ iwanMw then
      #v[0x53, 0x12, 0x3B, 0xDE, 0x40, 0xB8, 0xD7, 0x95, 0x49, 0xB2, 0x47, 0xF0, 0xEC, 0xD6, 0x61,
        0xC2]
    else sampleCrypto.md5 bytes
  aes128Ecb := sampleCrypto.aes128Ecb

def guessOpen : List Event :=
  [sampleOpenEvent (sampleUser 0x61 0x70 sampleName_ne samplePass_ne) ⟨0x01010101, 4000⟩ 5000]

def guessEvent (raw : List UInt8) : Event :=
  .udp ⟨raw, 0x09090909, 4000⟩ (sampleEnv 6000 0x01020304 sampleTok_ne)

def guessData : Event := guessEvent (pktHdr .ptData 0 2 0xDEADBEEF)

def guessEcho : Event := guessEvent (ctrlHdr guessCrypto .ptEchoReq 0 2 0xDEADBEEF)

def guessBefore : World :=
  serverRun guessCrypto sampleMachine sampleUsers (sampleWorld 0x0A000002 0x0A0000FE 0x0A000002)
    guessOpen

/-- One DATA frame opens the window, and four signed ECHO_REQs are tested as well. -/
theorem echo_guesses_uncapped :
    Booted (sampleWorld 0x0A000002 0x0A0000FE 0x0A000002).ctx ∧
      ServerClocked 0 (guessOpen ++ [guessData, guessEcho, guessEcho, guessEcho, guessEcho]) ∧
      (guessBefore.ctx.sess 0).valid = true ∧
      .wipe 0 ∉ serverTrace guessCrypto sampleMachine sampleUsers guessBefore
        [guessData, guessEcho, guessEcho, guessEcho, guessEcho] ∧
      Trace.count (serverStep guessCrypto sampleMachine sampleUsers)
        (foreignGuess guessCrypto sampleMachine sampleUsers 0 6000) guessBefore
        [guessData, guessEcho, guessEcho, guessEcho, guessEcho] = 5 :=
  ⟨sampleWorld_booted _ _ _,
    ⟨by decide, by decide, by decide, by decide, by decide, by decide, trivial⟩,
    by decide +kernel, by decide +kernel, by decide +kernel⟩

theorem serverRun_guessCap_sample :
    (guessBefore.ctx.sess 0).valid = true ∧
      .wipe 0 ∉ serverTrace guessCrypto sampleMachine sampleUsers guessBefore
        (List.replicate 6 guessData) ∧
      Trace.count (serverStep guessCrypto sampleMachine sampleUsers)
        (budgetedGuess guessCrypto sampleMachine sampleUsers 0 6000) guessBefore
        (List.replicate 6 guessData) ≤ 4 := by
  have clocked : ServerClocked 0 (guessOpen ++ List.replicate 6 guessData) :=
    ⟨by decide, by decide, by decide, by decide, by decide, by decide, by decide, trivial⟩
  have live : (guessBefore.ctx.sess 0).valid = true := by decide +kernel
  have noWipe : .wipe 0 ∉ serverTrace guessCrypto sampleMachine sampleUsers guessBefore
      (List.replicate 6 guessData) := by decide +kernel
  unfold guessBefore at live noWipe ⊢
  exact ⟨live, noWipe, (serverRun_guessCap guessCrypto sampleMachine sampleUsers _
    (sampleWorld_booted _ _ _) 0 guessOpen (List.replicate 6 guessData) clocked 0 6000 (by decide)
    live noWipe).1⟩

end Iwan
