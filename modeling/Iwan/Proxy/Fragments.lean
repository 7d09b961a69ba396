import Iwan.Proxy.Verdict

/- Where the reads cut the stream does not matter. -/
namespace Iwan

open BigEndian Incremental

/-- The scan for the end of a header has missed nothing. -/
structure Flow.Resumed (f : Flow) : Prop where
  fresh : f.phase = .greeting ∨ f.phase = .auth → f.httpScanOff = 0
  scanned : f.phase = .http → f.httpScanOff ≤ f.input.length ∧
    ∀ i, 3 ≤ i → i < f.httpScanOff → endsHeader f.input i = false

theorem scanHeader_resume {d : List UInt8} {off : Nat} (within : off ≤ d.length)
    (scanned : ∀ i, 3 ≤ i → i < off → endsHeader d i = false) :
    scanHeader d (if off < 3 ∨ d.length < off then 3 else off) = scanHeader d 3 := by
  by_cases early : off < 3
  · rw [if_pos (Or.inl early)]
  · rw [if_neg (by omega)]
    cases found : scanHeader d off with
    | none =>
      have absent := scanHeader_eq_none.mp found
      symm
      apply scanHeader_eq_none.mpr
      intro i low high
      by_cases resumed : i < off
      · exact scanned i low resumed
      · exact absent i (by omega) high
    | some last =>
      obtain ⟨low, inside, ends, before⟩ := scanHeader_eq_some.mp found
      symm
      apply scanHeader_eq_some.mpr
      refine ⟨by omega, inside, ends, ?_⟩
      intro i three earlier
      by_cases resumed : i < off
      · exact scanned i three resumed
      · exact before i (by omega) earlier

section

variable (s : TargetStart) (cfg : SocksCfg) (pton : InetPton) (now : UInt64)

def Recorded.applied (r : Recorded) (out : Flow × List HandshakeCall) : Recorded :=
  out.2.foldl (Recorded.perform s now) { r with flow := out.1 }

def Recorded.after (r : Recorded) (v : Verdict) : Recorded :=
  Recorded.settleBy s now { r with flow := consumeInput r.flow v.used } v

variable {f : Flow}

theorem httpHandshake_wait (resumed : f.Resumed) (phase : f.phase = .http)
    (wait : httpVerdict pton f.input = none) :
    httpHandshake pton now f =
      ({ f with httpScanOff := if 3 ≤ f.input.length then f.input.length - 3 else 0 }, []) := by
  have absent : scanHeader f.input 3 = none := Option.map_eq_none_iff.mp wait
  obtain ⟨within, scanned⟩ := resumed.scanned phase
  rw [← scanHeader_resume within scanned] at absent
  unfold httpHandshake
  dsimp only
  rw [absent]

variable {r : Recorded} {v : Verdict}

theorem httpHandshake_judged (resumed : r.flow.Resumed)
    (phase : r.flow.phase = .http) (judged : httpVerdict pton r.flow.input = some v) :
    r.applied s now (httpHandshake pton now r.flow) = r.after s now v := by
  obtain ⟨last, found, rfl⟩ := Option.map_eq_some_iff.mp judged
  obtain ⟨within, scanned⟩ := resumed.scanned phase
  rw [← scanHeader_resume within scanned] at found
  unfold httpHandshake httpLine
  dsimp only
  rw [found]
  dsimp only
  generalize scan isLineEnd r.flow.input 0 r.flow.input.length = eol
  generalize scan isSpace r.flow.input 0 eol = mn
  by_cases blank : mn = 0 ∨ eol ≤ mn
  · rw [if_pos blank, if_pos blank]
    rfl
  · rw [if_neg blank, if_neg blank]
    generalize decide (mn = 7 ∧ r.flow.input.take 7 = ascii "CONNECT") = connect
    generalize scan notSpace r.flow.input (mn + 1) eol = ts
    by_cases bare : eol ≤ ts
    · rw [if_pos bare, if_pos bare]
      rfl
    · rw [if_neg bare, if_neg bare]
      cases ppHttpTarget pton ((r.flow.input.drop ts).take (eol - ts)) connect with
      | none => rfl
      | some t => cases connect <;> rfl

theorem handshakeGreeting_eq (phase : f.phase = .greeting) : handshakeGreeting cfg pton now f =
      match greetingVerdict cfg.authToken f.input with
      | none => (false, f, [])
      | some .http => (false, httpHandshake pton now { f with httpMode := true })
      | some (.method chosen used) =>
          if chosen = 2 then
            (false, { queueFlowOutput (consumeInput f used) [5, 2] with authPending := true }, [])
          else (true, setFlowState now (queueFlowOutput (consumeInput f used) [5, 0]) .request, [])
      | some _ => (false, greetReject now f, []) := by
  obtain ⟨_, _, auth⟩ := phase_greeting phase
  rw [handshakeGreeting, greetingVerdict, if_neg (by rw [auth]; decide)]
  by_cases short : f.input.length < 2
  · rw [if_pos short, if_pos short]
  · rw [if_neg short, if_neg short]
    by_cases probing : byteAt f.input 0 ≠ 5 ∧ cfg.authToken = none
    · rw [if_pos probing, if_pos probing]
      cases ppHttpProbe f.input <;> rfl
    · rw [if_neg probing, if_neg probing]
      by_cases foreign : byteAt f.input 0 ≠ 5
      · rw [if_pos foreign, if_pos foreign]
      · rw [if_neg foreign, if_neg foreign]
        cases ppSocksGreeting f.input cfg.authToken.isSome with
        | none => rfl
        | some offered =>
          dsimp only [Option.map_some]
          by_cases none : ppSocksPickMethod cfg.authToken.isSome offered = 0xff
          · rw [if_pos none, if_pos none]
          · rw [if_neg none, if_neg none]

theorem handshakeAuth_eq (phase : f.phase = .auth) : handshakeGreeting cfg pton now f =
      match authVerdict cfg.authToken f.input with
      | none => (false, f, [])
      | some (.auth true used) =>
          (true, setFlowState now (queueFlowOutput
            { consumeInput f used with authPending := false } [1, 0]) .request,
            [.authFailNote true])
      | some (.auth false used) =>
          (false, authReject now { consumeInput f used with authPending := false },
            [.authFailNote false])
      | some _ => (false, authReject now f, []) := by
  obtain ⟨_, _, auth⟩ := phase_auth phase
  rw [handshakeGreeting, if_pos auth, handshakeAuth, authVerdict]
  cases framed : ppSocksAuthFrame f.input 64 with
  | none => rfl
  | some frame =>
    cases frame with
    | valid user pass =>
      have size : 2 + (byteAt f.input 1).toNat + 1 + pass.length = authFrameLen f.input := by
        rw [(ppSocksAuthFrame_fits framed).2, authFrameLen]
      dsimp only [Option.map_some]
      rw [size]
      cases ppSocksAuthOk pass cfg.authToken with
      | true => exact if_pos rfl
      | false => exact if_neg Bool.false_ne_true
    | _ => rfl

/-- A round of handshake_greeting that judges a frame, with the results it notes. -/
structure GreetingMade (r : Recorded) (v : Verdict) (notes : List Bool) : Prop where
  made : handshakeGreeting cfg pton now r.flow =
    (decide ((r.after s now v).flow.state = .request), (r.after s now v).flow,
      notes.map .authFailNote)
  noted : r.after s now v = { r with flow := (r.after s now v).flow, notes := r.notes ++ notes }

theorem GreetingMade.of_silent (made : handshakeGreeting cfg pton now r.flow =
      (decide ((r.after s now v).flow.state = .request), (r.after s now v).flow, []))
    (silent : r.after s now v = { r with flow := (r.after s now v).flow }) :
    GreetingMade s cfg pton now r v [] := by
  refine ⟨made, ?_⟩
  rw [List.append_nil]
  exact silent

theorem handshakeGreeting_judged (phase : r.flow.phase = .greeting ∨ r.flow.phase = .auth)
    (judged : r.flow.phase.verdict cfg pton r.flow.input = some v) (socks : v ≠ .http) :
    ∃ notes, GreetingMade s cfg pton now r v notes := by
  rcases phase with phase | phase
  · rw [phase] at judged
    obtain ⟨state, _, _⟩ := phase_greeting phase
    have code := handshakeGreeting_eq cfg pton now phase
    rw [show greetingVerdict cfg.authToken r.flow.input = some v from judged] at code
    rcases greetingVerdict_cases judged with rfl | rfl | ⟨chosen, rfl, _⟩
    · exact absurd rfl socks
    · exact ⟨[], GreetingMade.of_silent s cfg pton now code rfl⟩
    · refine ⟨[], ?_⟩
      dsimp only at code
      generalize 2 + (byteAt r.flow.input 1).toNat = used at code ⊢
      by_cases asks : chosen = 2
      · rw [if_pos asks] at code
        have reached : r.after s now (.method chosen used) =
            { r with flow := { queueFlowOutput (consumeInput r.flow used) [5, 2] with
                authPending := true } } := by
          rw [Recorded.after, Recorded.settleBy, if_pos asks]
          rfl
        have stays : (r.after s now (.method chosen used)).flow.state = .greeting := by
          rw [reached]
          exact state
        apply GreetingMade.of_silent
        · rw [stays, code, reached]
          rfl
        · rw [reached]
      · rw [if_neg asks] at code
        have reached : r.after s now (.method chosen used) =
            { r with
              flow := setFlowState now (queueFlowOutput (consumeInput r.flow used) [5, 0])
                .request } := by
          rw [Recorded.after, Recorded.settleBy, if_neg asks]
          rfl
        apply GreetingMade.of_silent
        · rw [code, reached]
          rfl
        · rw [reached]
  · rw [phase] at judged
    have code := handshakeAuth_eq cfg pton now phase
    rw [show authVerdict cfg.authToken r.flow.input = some v from judged] at code
    rcases authVerdict_cases judged with rfl | ⟨ok, rfl, _⟩
    · exact ⟨[], GreetingMade.of_silent s cfg pton now code rfl⟩
    · cases ok with
      | true => exact ⟨[true], code, rfl⟩
      | false => exact ⟨[false], code, rfl⟩

theorem handshakeRequest_eq (f : Flow) :
    handshakeRequest now f =
      match requestVerdict f.input with
      | some (.refused _ rep) => (queueSocksError now f rep, [])
      | some (.target _ t used) => (consumeInput f used, [.flowStartTarget t])
      | _ => (f, []) := by
  rw [handshakeRequest, requestVerdict]
  cases parsed : ppSocksRequest f.input with
  | none => rfl
  | some request =>
    cases request with
    | refused rep => rfl
    | target t =>
      dsimp only [Option.map_some]
      rcases (ppSocksRequest_target parsed).2 with ⟨af, size⟩ | ⟨af, size⟩ | ⟨af, size⟩
      · rw [size, af]
      · rw [size, af]
      · rw [size, af]

theorem handshakeRequest_judged (judged : requestVerdict r.flow.input = some v) :
    r.applied s now (handshakeRequest now r.flow) = r.after s now v := by
  rw [handshakeRequest_eq, judged]
  rcases requestVerdict_cases judged with ⟨rep, rfl⟩ | ⟨t, rfl, _⟩
  · rfl
  · rfl

theorem settleBy_input (r : Recorded) (v : Verdict) :
    (r.settleBy s now v).flow.input = r.flow.input := by
  cases v with
  | http | noMethod | badAuth => rfl
  | method chosen used =>
    rw [Recorded.settleBy]
    split <;> rfl
  | auth ok used => cases ok <;> rfl
  | refused connect rep => exact queueSocksError_input now _ rep
  | target connect t used => exact s.input now _ t

/-- A visit ends where the machine settles. -/
structure Settles (r done : Recorded) : Prop where
  machine : done.point = (handshakeMachine s cfg pton).settle r.bare r.flow.input
  resumed : done.flow.Resumed

theorem Settles.of_wait {done : Recorded} (same : done.bare = r.bare)
    (unread : done.flow.input = r.flow.input) (resumed : done.flow.Resumed)
    (wait : r.flow.phase.verdict cfg pton r.flow.input = none) : Settles s cfg pton r done where
  machine := by
    rw [Recorded.point, same, unread, Incremental.Machine.settle_of_wait]
    exact Option.map_eq_none_iff.mpr wait
  resumed := resumed

theorem Settles.of_past (past : r.flow.phase = .past) : Settles s cfg pton r r := by
  apply Settles.of_wait s cfg pton rfl rfl
  · constructor
    · rintro (phase | phase) <;> rw [past] at phase <;> cases phase
    · intro phase
      rw [past] at phase
      cases phase
  · rw [past]
    rfl

theorem Settles.of_judged {done : Recorded}
    (judged : r.flow.phase.verdict cfg pton r.flow.input = some v)
    (later : Settles s cfg pton (r.after s now v) done) : Settles s cfg pton r done where
  machine := by
    have stepped : (handshakeMachine s cfg pton).step r.bare r.flow.input =
        some ((r.after s now v).bare, v.used) := by
      rw [Recorded.after, settleBy_bare]
      exact Option.map_eq_some_iff.mpr ⟨v, judged, rfl⟩
    rw [Incremental.Machine.settle_of_step _ stepped, later.machine]
    congr 1
    exact settleBy_input s now _ v
  resumed := later.resumed

theorem applied_notes (r : Recorded) (notes : List Bool) (out : Flow × List HandshakeCall) :
    r.applied s now (out.1, notes.map .authFailNote ++ out.2) =
      Recorded.applied s now { r with notes := r.notes ++ notes } out := by
  unfold Recorded.applied
  rw [List.foldl_append]
  congr 1
  generalize out.1 = f
  induction notes generalizing r with
  | nil => rw [List.map_nil, List.foldl_nil, List.append_nil]
  | cons note rest ih =>
    rw [List.map_cons, List.foldl_cons]
    refine Eq.trans (ih { r with notes := r.notes ++ [note] }) ?_
    dsimp only
    rw [List.append_assoc, List.singleton_append]

theorem httpHandshake_settles (resumed : r.flow.Resumed) (phase : r.flow.phase = .http) :
    Settles s cfg pton r (r.applied s now (httpHandshake pton now r.flow)) := by
  cases judged : httpVerdict pton r.flow.input with
  | none =>
    rw [httpHandshake_wait pton now resumed phase judged]
    refine Settles.of_wait s cfg pton ?_ ?_ ?_ ?_
    · rfl
    · rfl
    · have absent := scanHeader_eq_none.mp (Option.map_eq_none_iff.mp judged)
      constructor
      · rintro (other | other) <;> cases phase.symm.trans other
      · intro _
        dsimp only [Recorded.applied, List.foldl_nil]
        split
        · exact ⟨by omega, fun i low high => absent i low (by omega)⟩
        · exact ⟨Nat.zero_le _, fun i _ high => absurd high (Nat.not_lt_zero i)⟩
    · rw [phase]
      exact judged
  | some v =>
    rw [httpHandshake_judged s pton now resumed phase judged]
    apply Settles.of_judged s cfg pton now (v := v)
    · rw [phase]
      exact judged
    · apply Settles.of_past
      rcases httpVerdict_cases judged with ⟨_, rfl⟩ | ⟨_, _, _, rfl, _⟩
      · exact settleBy_refused s now _ _ _
      · exact settleBy_target s now _ _ _ _

theorem httpHandshake_cases (f : Flow) :
    (∃ t, (httpHandshake pton now f).2 = [.flowStartTarget t]) ∨
      (httpHandshake pton now f).2 = [] ∧ (httpHandshake pton now f).1.input = f.input := by
  have error := queueSocksError_input now
  unfold httpHandshake
  dsimp only
  split
  · exact .inr ⟨rfl, rfl⟩
  · split
    · exact .inr ⟨rfl, error f 5⟩
    · split
      · exact .inr ⟨rfl, error _ 5⟩
      · split
        · exact .inr ⟨rfl, error _ 5⟩
        · exact .inl ⟨_, rfl⟩

theorem handedOver_notes (notes : List Bool) :
    handedOver (notes.map .authFailNote) = false := by
  induction notes with
  | nil => rfl
  | cons note rest ih => exact ih

section

variable {r : Recorded} (n : Nat)

theorem handshakePasses_past (phase : r.flow.phase = .past) :
    handshakePasses cfg pton now n r.flow = (r.flow, []) := by
  cases n with
  | zero => rfl
  | succ n =>
    rw [handshakePasses]
    unfold Flow.phase at phase
    grind

theorem handshakePasses_request (phase : r.flow.phase = .request) :
    handshakePasses cfg pton now (n + 1) r.flow = handshakeRequest now r.flow := by
  rw [handshakePasses, phase_request phase]

theorem handshakePasses_http (phase : r.flow.phase = .http) :
    handshakePasses cfg pton now (n + 1) r.flow = httpHandshake pton now r.flow := by
  obtain ⟨state, http⟩ := phase_http phase
  rw [handshakePasses, state]
  exact if_pos http

theorem handshakePasses_wait (state : r.flow.state = .greeting) (socks : r.flow.httpMode = false)
    (made : handshakeGreeting cfg pton now r.flow = (false, r.flow, [])) :
    handshakePasses cfg pton now (n + 1) r.flow = (r.flow, []) := by
  rw [handshakePasses, state]
  dsimp only
  rw [socks, made, if_neg (by decide)]
  dsimp only
  rw [if_neg (by decide), if_neg (by decide), if_pos (Nat.le_refl _)]

theorem handshakePasses_turn (state : r.flow.state = .greeting) (socks : r.flow.httpMode = false)
    (made : handshakeGreeting cfg pton now r.flow =
      (false, httpHandshake pton now { r.flow with httpMode := true })) :
    handshakePasses cfg pton now (n + 1) r.flow =
      httpHandshake pton now { r.flow with httpMode := true } := by
  have cases := httpHandshake_cases pton now { r.flow with httpMode := true }
  generalize httpHandshake pton now { r.flow with httpMode := true } = out at made cases ⊢
  obtain ⟨f, calls⟩ := out
  rw [handshakePasses, state]
  dsimp only
  rw [socks, made, if_neg (by decide)]
  dsimp only at cases ⊢
  rcases cases with ⟨t, rfl⟩ | ⟨rfl, kept⟩
  · exact if_pos rfl
  · rw [if_neg (by decide), if_neg (by decide), if_pos (Nat.le_of_eq (congrArg _ kept.symm))]

theorem handshakePasses_round {v : Verdict} {notes : List Bool}
    (state : r.flow.state = .greeting) (socks : r.flow.httpMode = false)
    (made : GreetingMade s cfg pton now r v notes) :
    r.applied s now (handshakePasses cfg pton now (n + 1) r.flow) =
      if (r.after s now v).flow.state = .request then
        if 0 < (r.after s now v).flow.input.length then
          (r.after s now v).applied s now (handshakePasses cfg pton now n (r.after s now v).flow)
        else r.after s now v
      else if r.flow.input.length ≤ (r.after s now v).flow.input.length then r.after s now v
      else
        (r.after s now v).applied s now
          (handshakePasses cfg pton now n (r.after s now v).flow) := by
  have stop : r.applied s now ((r.after s now v).flow, notes.map .authFailNote) =
      r.after s now v := by
    have whole := applied_notes s now r notes ((r.after s now v).flow, [])
    rw [List.append_nil] at whole
    rw [whole, made.noted]
    rfl
  have next (out : Flow × List HandshakeCall) :
      r.applied s now (out.1, notes.map .authFailNote ++ out.2) =
        (r.after s now v).applied s now out := by
    rw [applied_notes, made.noted]
    rfl
  rw [handshakePasses, state]
  dsimp only
  rw [socks, made.made, if_neg (by decide)]
  dsimp only
  rw [handedOver_notes, if_neg (by decide)]
  by_cases request : (r.after s now v).flow.state = .request
  · rw [if_pos request, if_pos (decide_eq_true request)]
    by_cases more : 0 < (r.after s now v).flow.input.length
    · rw [if_pos more, if_pos ⟨request, more⟩, next]
    · rw [if_neg more, if_neg (fun both => more both.2), stop]
  · rw [if_neg request, if_neg (by simpa using request)]
    by_cases unread : r.flow.input.length ≤ (r.after s now v).flow.input.length
    · rw [if_pos unread, if_pos unread, stop]
    · rw [if_neg unread, if_neg unread, next]

end

theorem resumed_of_state (state : f.state ≠ .greeting) : f.Resumed where
  fresh early := by
    rcases early with phase | phase
    · exact absurd (phase_greeting phase).1 state
    · exact absurd (phase_auth phase).1 state
  scanned phase := absurd (phase_http phase).1 state

section

variable {n : Nat} {r : Recorded}

theorem Settles.of_round {v : Verdict} (early : r.flow.phase = .greeting ∨ r.flow.phase = .auth)
    (judged : r.flow.phase.verdict cfg pton r.flow.input = some v) (plain : v ≠ .http)
    (resumed : (r.after s now v).flow.Resumed)
    (idle : v.used = 0 → (r.after s now v).flow.phase = .past)
    (later : Settles s cfg pton (r.after s now v)
      ((r.after s now v).applied s now
        (handshakePasses cfg pton now n (r.after s now v).flow))) :
    Settles s cfg pton r (r.applied s now (handshakePasses cfg pton now (n + 1) r.flow)) := by
  have start : r.flow.state = .greeting ∧ r.flow.httpMode = false := by
    rcases early with phase | phase
    · exact ⟨(phase_greeting phase).1, (phase_greeting phase).2.1⟩
    · exact ⟨(phase_auth phase).1, (phase_auth phase).2.1⟩
  have left : (r.after s now v).flow.input = r.flow.input.drop v.used := settleBy_input s now _ v
  obtain ⟨notes, made⟩ := handshakeGreeting_judged s cfg pton now early judged plain
  have fits := Phase.verdict_fits judged
  apply Settles.of_judged s cfg pton now judged
  rw [handshakePasses_round s cfg pton now n start.1 start.2 made]
  by_cases request : (r.after s now v).flow.state = .request
  · rw [if_pos request]
    by_cases more : 0 < (r.after s now v).flow.input.length
    · rw [if_pos more]
      exact later
    · rw [if_neg more]
      refine Settles.of_wait s cfg pton rfl rfl resumed ?_
      rw [phase_of_request request, List.length_eq_zero_iff.mp (Nat.eq_zero_of_not_pos more)]
      rfl
  · rw [if_neg request]
    by_cases unread : r.flow.input.length ≤ (r.after s now v).flow.input.length
    · rw [if_pos unread]
      apply Settles.of_past
      apply idle
      rw [left, List.length_drop] at unread
      omega
    · rw [if_neg unread]
      exact later

variable (resumed : r.flow.Resumed)
  (later : ∀ v, r.flow.phase.verdict cfg pton r.flow.input = some v →
    (r.after s now v).flow.Resumed → Settles s cfg pton (r.after s now v)
      ((r.after s now v).applied s now (handshakePasses cfg pton now n (r.after s now v).flow)))

include resumed later

theorem auth_settles (phase : r.flow.phase = .auth) :
    Settles s cfg pton r (r.applied s now (handshakePasses cfg pton now (n + 1) r.flow)) := by
  obtain ⟨state, socks, _⟩ := phase_auth phase
  cases judged : r.flow.phase.verdict cfg pton r.flow.input with
  | none =>
    have made := handshakeAuth_eq cfg pton now phase
    rw [phase] at judged
    rw [show authVerdict cfg.authToken r.flow.input = none from judged] at made
    rw [handshakePasses_wait cfg pton now n state socks made]
    refine Settles.of_wait s cfg pton rfl rfl resumed ?_
    rw [phase]
    exact judged
  | some v =>
    have framed := judged
    rw [phase] at framed
    have late : (r.after s now v).flow.Resumed := by
      apply resumed_of_state
      rcases authVerdict_cases framed with rfl | ⟨ok, rfl, _⟩
      · nofun
      · cases ok <;> nofun
    refine Settles.of_round s cfg pton now (Or.inr phase) judged ?_ late ?_ (later v judged late)
    · rcases authVerdict_cases framed with rfl | ⟨ok, rfl, _⟩ <;> nofun
    · rcases authVerdict_cases framed with rfl | ⟨ok, rfl, _⟩
      · exact fun _ => rfl
      · intro none
        rw [Verdict.used, authFrameLen] at none
        omega

theorem greeting_settles (phase : r.flow.phase = .greeting) :
    Settles s cfg pton r (r.applied s now (handshakePasses cfg pton now (n + 1) r.flow)) := by
  obtain ⟨state, socks, _⟩ := phase_greeting phase
  have unscanned := resumed.fresh (Or.inl phase)
  have made := handshakeGreeting_eq cfg pton now phase
  cases judged : r.flow.phase.verdict cfg pton r.flow.input with
  | none =>
    rw [phase] at judged
    rw [show greetingVerdict cfg.authToken r.flow.input = none from judged] at made
    rw [handshakePasses_wait cfg pton now n state socks made]
    refine Settles.of_wait s cfg pton rfl rfl resumed ?_
    rw [phase]
    exact judged
  | some v =>
    have framed := judged
    rw [phase] at framed
    by_cases http : v = .http
    · subst http
      rw [show greetingVerdict cfg.authToken r.flow.input = some .http from framed] at made
      rw [handshakePasses_turn cfg pton now n state socks made]
      have turned : (r.after s now .http).flow.phase = .http := phase_of_http state rfl
      have resumed' : (r.after s now .http).flow.Resumed := by
        constructor
        · rintro (other | other) <;> cases turned.symm.trans other
        · intro _
          rw [show (r.after s now .http).flow.httpScanOff = 0 from unscanned]
          exact ⟨Nat.zero_le _, fun i _ high => absurd high (Nat.not_lt_zero i)⟩
      apply Settles.of_judged s cfg pton now judged
      exact httpHandshake_settles s cfg pton now resumed' turned
    · have resumed' : (r.after s now v).flow.Resumed := by
        rcases greetingVerdict_cases framed with rfl | rfl | ⟨chosen, rfl, _⟩
        · exact absurd rfl http
        · exact resumed_of_state FlowState.noConfusion
        · rw [Recorded.after, Recorded.settleBy]
          split
          · constructor
            · exact fun _ => unscanned
            · intro other
              cases socks.symm.trans (phase_http other).2
          · exact resumed_of_state FlowState.noConfusion
      refine Settles.of_round s cfg pton now (Or.inl phase) judged http resumed' ?_
        (later v judged resumed')
      rcases greetingVerdict_cases framed with rfl | rfl | ⟨chosen, rfl, _⟩
      · exact absurd rfl http
      · exact fun _ => rfl
      · intro none
        rw [Verdict.used] at none
        omega

end

theorem request_settles {n : Nat} (resumed : r.flow.Resumed) (phase : r.flow.phase = .request) :
    Settles s cfg pton r (r.applied s now (handshakePasses cfg pton now (n + 1) r.flow)) := by
  rw [handshakePasses_request cfg pton now n phase]
  cases judged : r.flow.phase.verdict cfg pton r.flow.input with
  | none =>
    rw [phase] at judged
    rw [handshakeRequest_eq, show requestVerdict r.flow.input = none from judged]
    refine Settles.of_wait s cfg pton rfl rfl resumed ?_
    rw [phase]
    exact judged
  | some v =>
    have framed := judged
    rw [phase] at framed
    rw [handshakeRequest_judged s now framed]
    apply Settles.of_judged s cfg pton now judged
    apply Settles.of_past
    rcases requestVerdict_cases framed with ⟨_, rfl⟩ | ⟨_, rfl, _⟩
    · exact settleBy_refused s now _ _ _
    · exact settleBy_target s now _ _ _ _

theorem handshakePasses_settles (n : Nat) (r : Recorded) (enough : r.flow.phase.left ≤ n)
    (resumed : r.flow.Resumed) :
    Settles s cfg pton r (r.applied s now (handshakePasses cfg pton now n r.flow)) := by
  induction n generalizing r with
  | zero =>
    apply Settles.of_past
    cases phase : r.flow.phase <;> rw [phase] at enough <;> first | rfl | cases enough
  | succ n ih =>
    have later (v : Verdict) (judged : r.flow.phase.verdict cfg pton r.flow.input = some v)
        (resumed' : (r.after s now v).flow.Resumed) :=
      have falls := settleBy_falls s now { r with flow := consumeInput r.flow v.used } judged
      ih (r.after s now v) (Nat.le_of_lt_succ (Nat.lt_of_lt_of_le falls enough)) resumed'
    cases phase : r.flow.phase with
    | past =>
      rw [handshakePasses_past cfg pton now (n + 1) phase]
      exact Settles.of_past s cfg pton phase
    | request => exact request_settles s cfg pton now resumed phase
    | http =>
      rw [handshakePasses_http cfg pton now n phase]
      exact httpHandshake_settles s cfg pton now resumed phase
    | auth => exact auth_settles s cfg pton now resumed later phase
    | greeting => exact greeting_settles s cfg pton now resumed later phase

theorem Flow.Resumed.append (resumed : f.Resumed) (more : List UInt8) :
    ({ f with input := f.input ++ more } : Flow).Resumed where
  fresh early := resumed.fresh early
  scanned phase := by
    obtain ⟨within, scanned⟩ := resumed.scanned phase
    dsimp only
    refine ⟨?_, ?_⟩
    · rw [List.length_append]
      omega
    · intro i low high
      rw [endsHeader_append more (by omega)]
      exact scanned i low high

theorem feed_point (resumed : r.flow.Resumed) (piece : UInt64 × List UInt8) :
    (r.feed s cfg pton piece).point = (handshakeMachine s cfg pton).feed r.point piece.2 ∧
      (r.feed s cfg pton piece).flow.Resumed := by
  have settled := handshakePasses_settles s cfg pton piece.1 3
    { r with flow := { r.flow with input := r.flow.input ++ piece.2 } }
    (by cases Flow.phase _ <;> decide) (resumed.append piece.2)
  exact ⟨settled.machine, settled.resumed⟩

theorem feeds_point (resumed : r.flow.Resumed) (pieces : List (UInt64 × List UInt8)) :
    (pieces.foldl (Recorded.feed s cfg pton) r).point =
      (pieces.map Prod.snd).foldl (handshakeMachine s cfg pton).feed r.point := by
  induction pieces generalizing r with
  | nil => rfl
  | cons piece rest ih =>
    obtain ⟨fed, resumed'⟩ := feed_point s cfg pton resumed piece
    rw [List.foldl_cons, List.map_cons, List.foldl_cons, ← fed]
    exact ih resumed'

theorem feeds_settle (resumed : r.flow.Resumed)
    (waits : r.flow.phase.verdict cfg pton r.flow.input = none)
    (pieces : List (UInt64 × List UInt8)) :
    (pieces.foldl (Recorded.feed s cfg pton) r).point =
      (handshakeMachine s cfg pton).settle r.bare
        (r.flow.input ++ (pieces.map Prod.snd).flatten) := by
  have still : (handshakeMachine s cfg pton).settle r.bare r.flow.input = r.point :=
    Incremental.Machine.settle_of_wait _ (Option.map_eq_none_iff.mpr waits)
  rw [feeds_point s cfg pton resumed, ← Incremental.Machine.feeds_eq, still]

end

def recordOpen (now : UInt64) : Flow × Option Dispatch → Flow × Option Dispatch
  | (f, some (.openTcpConn addr port)) =>
    (setFlowState now f .connecting, some (.openTcpConn addr port))
  | out => out

theorem recordOpen_none (now : UInt64) (f : Flow) : recordOpen now (f, none) = (f, none) := rfl

theorem flowOpenGated_recorded (cfg : SocksCfg) (now : UInt64) (f : Flow) (addr : TargetAddr)
    (port : UInt16) :
    recordOpen now (flowOpenGated cfg now f addr port) =
      if socksTargetBlocked cfg f addr then (queueSocksError now f 2, none)
      else (setFlowState now f .connecting, some (.openTcpConn addr port)) := by
  unfold flowOpenGated
  split <;> rfl

def startRecorded (cfg : SocksCfg) : TargetStart where
  start now f t := recordOpen now (flowStartTarget cfg now f t)
  leaves now f t := by
    have left (f : Flow) (addr : TargetAddr) (port : UInt16) :
        (recordOpen now (flowOpenGated cfg now f addr port)).1.state ≠ .greeting ∧
          (recordOpen now (flowOpenGated cfg now f addr port)).1.state ≠ .request := by
      rw [flowOpenGated_recorded]
      split
      · rw [queueSocksError_state]
        decide
      · exact ⟨nofun, nofun⟩
    unfold flowStartTarget
    cases t.af with
    | v4 => exact left _ _ _
    | v6 =>
      dsimp only
      split
      · rw [recordOpen_none, queueSocksError_state]
        decide
      · exact left _ _ _
    | domain => exact ⟨nofun, nofun⟩
  bare now f t := by
    have same (f : Flow) (addr : TargetAddr) (port : UInt16) :
        ((recordOpen now (flowOpenGated cfg now f addr port)).1.bare,
            (recordOpen now (flowOpenGated cfg now f addr port)).2) =
          ((recordOpen 0 (flowOpenGated cfg 0 f.bare addr port)).1.bare,
            (recordOpen 0 (flowOpenGated cfg 0 f.bare addr port)).2) := by
      rw [flowOpenGated_recorded, flowOpenGated_recorded]
      by_cases blocked : socksTargetBlocked cfg f addr
      · rw [if_pos blocked, if_pos (show socksTargetBlocked cfg f.bare addr = true from blocked),
          queueSocksError_bare]
      · rw [if_neg blocked, if_neg (show ¬ socksTargetBlocked cfg f.bare addr = true from blocked)]
        rfl
    unfold flowStartTarget
    cases t.af with
    | v4 => exact same _ _ _
    | v6 =>
      dsimp only
      split
      · rw [recordOpen_none, recordOpen_none, queueSocksError_bare]
      · exact same _ _ _
    | domain => rfl
  input now f t := by
    have same (f : Flow) (addr : TargetAddr) (port : UInt16) :
        (recordOpen now (flowOpenGated cfg now f addr port)).1.input = f.input := by
      rw [flowOpenGated_recorded]
      split
      · exact queueSocksError_input now f 2
      · rfl
    unfold flowStartTarget
    cases t.af with
    | v4 => exact same _ _ _
    | v6 =>
      dsimp only
      split
      · exact queueSocksError_input now f 8
      · exact same _ _ _
    | domain => rfl

/-- What a client and the proxy see of a handshake. -/
structure HandshakeOutcome where
  output : List UInt8
  state : FlowState
  httpMode : Bool
  httpConnect : Bool
  authPending : Bool
  input : List UInt8
  notes : List Bool
  targets : List PpTarget
  dispatched : List Dispatch
deriving DecidableEq, Repr

def Recorded.outcome (r : Recorded) : HandshakeOutcome where
  output := r.flow.output
  state := r.flow.state
  httpMode := r.flow.httpMode
  httpConnect := r.flow.httpConnect
  authPending := r.flow.authPending
  input := r.flow.input
  notes := r.notes
  targets := r.targets
  dispatched := r.dispatched

def Recorded.fresh (id : UInt64) (peerIp : UInt32) (born : UInt64) : Recorded :=
  ⟨Flow.accepted id peerIp born, [], [], []⟩

theorem fresh_settles (s : TargetStart) (cfg : SocksCfg) (pton : InetPton) (id : UInt64)
    (peerIp : UInt32) (born : UInt64) (pieces : List (UInt64 × List UInt8)) :
    (pieces.foldl (Recorded.feed s cfg pton) (Recorded.fresh id peerIp born)).point =
      (handshakeMachine s cfg pton).settle (Recorded.fresh id peerIp born).bare
        (pieces.map Prod.snd).flatten := by
  refine feeds_settle s cfg pton ?_ rfl pieces
  constructor
  · exact fun _ => rfl
  · nofun

/-- Where the reads cut the stream, and when they happen, does not matter. -/
theorem handshake_fragments (cfg : SocksCfg) (pton : InetPton) (id : UInt64) (peerIp : UInt32)
    (born now : UInt64) (pieces : List (UInt64 × List UInt8)) :
    (pieces.foldl (Recorded.feed (startRecorded cfg) cfg pton)
        (Recorded.fresh id peerIp born)).outcome =
      ((Recorded.fresh id peerIp born).feed (startRecorded cfg) cfg pton
        (now, (pieces.map Prod.snd).flatten)).outcome := by
  have cut := fresh_settles (startRecorded cfg) cfg pton id peerIp born pieces
  have whole := fresh_settles (startRecorded cfg) cfg pton id peerIp born
    [(now, (pieces.map Prod.snd).flatten)]
  rw [List.map_singleton, List.flatten_singleton, List.foldl_cons, List.foldl_nil, ← cut] at whole
  exact congrArg (fun p => ({ p.1.outcome with input := p.2 } : HandshakeOutcome)) whole.symm

/-- A client without a token asks for 8.8.8.8:53, one byte at a time. -/
example :
    let stream : List UInt8 := [5, 1, 0, 5, 1, 0, 1, 8, 8, 8, 8, 0, 53, 0xaa]
    let cfg : SocksCfg := ⟨none, false, false⟩
    let pton : InetPton := ⟨fun _ => none, fun _ => none⟩
    let r := (stream.map fun b => ((0 : UInt64), [b])).foldl
      (Recorded.feed (startRecorded cfg) cfg pton) (Recorded.fresh 1 0x0a000001 0)
    r.outcome = ⟨[5, 0], .connecting, false, false, false, [0xaa], [],
      [{ PpTarget.zero with af := .v4, ip4 := [8, 8, 8, 8], port := 53 }],
      [.openTcpConn (.v4 0x08080808) 53]⟩ := by decide +kernel

end Iwan
