import Iwan.Proxy.Flow

/- The handshake as a machine over the client's stream: every verdict is final. -/
namespace Iwan

open BigEndian Incremental

/-- What a handshake step decides on the input. -/
inductive Verdict where
  | http
  | noMethod
  | method (chosen : UInt8) (used : Nat)
  | badAuth
  | auth (ok : Bool) (used : Nat)
  | refused (connect : Option Bool) (rep : UInt8)
  | target (connect : Option Bool) (t : PpTarget) (used : Nat)
deriving DecidableEq, Repr

def greetingVerdict (token : Option (List UInt8)) (d : List UInt8) : Option Verdict :=
  if d.length < 2 then none
  else if byteAt d 0 ≠ 5 ∧ token = none then
    match ppHttpProbe d with
    | .http => some .http
    | .wait => none
    | .other => some .noMethod
  else if byteAt d 0 ≠ 5 then some .noMethod
  else
    (ppSocksGreeting d token.isSome).map fun offered =>
      if ppSocksPickMethod token.isSome offered = 0xff then .noMethod
      else .method (ppSocksPickMethod token.isSome offered) (2 + (byteAt d 1).toNat)

def authVerdict (token : Option (List UInt8)) (d : List UInt8) : Option Verdict :=
  (ppSocksAuthFrame d 64).map fun
    | .valid _ pass => .auth (ppSocksAuthOk pass token) (authFrameLen d)
    | _ => .badAuth

def requestVerdict (d : List UInt8) : Option Verdict :=
  (ppSocksRequest d).map fun
    | .refused rep => .refused none rep
    | .target t => .target none t (socksRequestEnd d)

def httpLine (pton : InetPton) (d : List UInt8) (last : Nat) : Verdict :=
  let eol := scan isLineEnd d 0 d.length
  let mn := scan isSpace d 0 eol
  if mn = 0 ∨ eol ≤ mn then .refused none 5
  else
    let connect : Bool := mn = 7 ∧ d.take 7 = ascii "CONNECT"
    let ts := scan notSpace d (mn + 1) eol
    if eol ≤ ts then .refused (some connect) 5
    else
      match ppHttpTarget pton ((d.drop ts).take (eol - ts)) connect with
      | none => .refused (some connect) 5
      | some t => .target (some connect) t (if connect then last + 1 else 0)

def httpVerdict (pton : InetPton) (d : List UInt8) : Option Verdict :=
  (scanHeader d 3).map (httpLine pton d)

section

theorem greetingVerdict_stable (token : Option (List UInt8)) : Stable (greetingVerdict token) := by
  unfold greetingVerdict
  apply StableOn.stable
  apply StableOn.await (fun _ _ _ => rfl)
  apply StableOn.choose
  · rintro d more ⟨_, head⟩
    dsimp only
    rw [byteAt_append d more (by omega)]
  · intro d more v _ judged
    dsimp only at judged ⊢
    rw [ppHttpProbe_append more, judged]
    intro waits
    rw [waits] at judged
    cases judged
  · apply StableOn.choose
    · rintro d more ⟨_, head⟩
      dsimp only
      rw [byteAt_append d more (by omega)]
    · exact SettledOn.judgement fun _ _ _ => rfl
    · intro d more v head judged
      dsimp only at judged ⊢
      obtain ⟨offered, greeted, rfl⟩ := Option.map_eq_some_iff.mp judged
      have kept : ppSocksGreeting (d ++ more) token.isSome = some offered :=
        ppSocksGreeting_stable token.isSome d more offered greeted
      rw [kept, Option.map_some, byteAt_append d more (by omega)]

theorem authVerdict_stable (token : Option (List UInt8)) : Stable (authVerdict token) := by
  intro d more v judged
  obtain ⟨frame, framed, rfl⟩ := Option.map_eq_some_iff.mp judged
  have kept : ppSocksAuthFrame (d ++ more) 64 = some frame :=
    ppSocksAuthFrame_stable 64 d more frame framed
  rw [authVerdict, kept, Option.map_some]
  cases frame with
  | valid user pass =>
    dsimp only
    rw [authFrameLen_append more (ppSocksAuthFrame_fits framed).1]
  | _ => rfl

theorem requestVerdict_stable : Stable requestVerdict := by
  intro d more v judged
  obtain ⟨request, parsed, rfl⟩ := Option.map_eq_some_iff.mp judged
  rw [requestVerdict, ppSocksRequest_stable d more request parsed, Option.map_some]
  cases request with
  | refused rep => rfl
  | target t =>
    dsimp only
    rw [socksRequestEnd_append more (ppSocksRequest_target parsed).1]

variable {d : List UInt8} {start last : Nat}

theorem scanHeader_eq_some : scanHeader d start = some last ↔
      start ≤ last ∧ last < d.length ∧ endsHeader d last = true ∧
        ∀ i, start ≤ i → i < last → endsHeader d i = false := by
  rw [scanHeader, List.find?_range'_eq_some, List.mem_range'_1]
  simp only [Bool.not_eq_true', and_assoc]
  constructor
  · rintro ⟨ends, low, high, before⟩
    exact ⟨low, by omega, ends, before⟩
  · rintro ⟨low, high, ends, before⟩
    exact ⟨ends, low, by omega, before⟩

theorem scanHeader_eq_none :
    scanHeader d start = none ↔ ∀ i, start ≤ i → i < d.length → endsHeader d i = false := by
  rw [scanHeader, List.find?_range'_eq_none]
  simp only [Bool.not_eq_true']
  constructor
  · exact fun absent i low high => absent i low (by omega)
  · exact fun absent i low high => absent i low (by omega)

theorem endsHeader_append (more : List UInt8) {i : Nat} (inside : i < d.length) :
    endsHeader (d ++ more) i = endsHeader d i := by
  unfold endsHeader
  rw [byteAt_append d more (by omega), byteAt_append d more (by omega),
    byteAt_append d more (by omega), byteAt_append d more inside]

theorem scan_lineEnd_le (ends : endsHeader d last = true) : scan isLineEnd d 0 d.length ≤ last := by
  by_contra later
  have passed := scan_passed (Nat.zero_le last) (Nat.lt_of_not_le later)
  unfold endsHeader at ends
  rw [decide_eq_true_iff] at ends
  rw [ends.2.2.2] at passed
  cases passed

theorem scan_lineEnd_append (more : List UInt8)
    (inside : last < d.length) (ends : endsHeader d last = true) :
    scan isLineEnd (d ++ more) 0 (d ++ more).length = scan isLineEnd d 0 d.length := by
  have early := scan_lineEnd_le ends
  have longer : d.length ≤ (d ++ more).length := by
    rw [List.length_append]
    omega
  have same : scan isLineEnd (d ++ more) 0 d.length = scan isLineEnd d 0 d.length :=
    scan_append more (Nat.le_refl _)
  rw [scan_extend (Nat.le_refl _) longer (by omega), same]

theorem httpLine_append (pton : InetPton) (more : List UInt8)
    (inside : last < d.length) (ends : endsHeader d last = true) :
    httpLine pton (d ++ more) last = httpLine pton d last := by
  have early := scan_lineEnd_le ends
  unfold httpLine
  dsimp only
  rw [scan_lineEnd_append more inside ends]
  generalize scan isLineEnd d 0 d.length = eol at early ⊢
  rw [scan_append more (by omega), scan_append more (by omega)]
  by_cases blank : scan isSpace d 0 eol = 0 ∨ eol ≤ scan isSpace d 0 eol
  · rw [if_pos blank, if_pos blank]
  · rw [if_neg blank, if_neg blank]
    have named : (scan isSpace d 0 eol = 7 ∧ (d ++ more).take 7 = ascii "CONNECT") =
        (scan isSpace d 0 eol = 7 ∧ d.take 7 = ascii "CONNECT") := by
      apply propext
      apply and_congr_right
      intro seven
      rw [List.take_append_of_le_length (by omega)]
    simp only [named]
    by_cases bare : eol ≤ scan notSpace d (scan isSpace d 0 eol + 1) eol
    · rw [if_pos bare, if_pos bare]
    · rw [if_neg bare, if_neg bare, field_append d more (by omega)]

theorem scanHeader_append (more : List UInt8)
    (found : scanHeader d start = some last) : scanHeader (d ++ more) start = some last := by
  obtain ⟨low, inside, ends, before⟩ := scanHeader_eq_some.mp found
  apply scanHeader_eq_some.mpr
  rw [List.length_append, endsHeader_append more inside]
  refine ⟨low, by omega, ends, ?_⟩
  intro i three earlier
  rw [endsHeader_append more (by omega)]
  exact before i three earlier

theorem httpVerdict_stable (pton : InetPton) : Stable (httpVerdict pton) := by
  intro d more v judged
  obtain ⟨last, found, rfl⟩ := Option.map_eq_some_iff.mp judged
  obtain ⟨_, inside, ends, _⟩ := scanHeader_eq_some.mp found
  rw [httpVerdict, scanHeader_append more found, Option.map_some,
    httpLine_append pton more inside ends]

end

def Flow.bare (f : Flow) : Flow := { f with input := [], stateMs := 0, httpScanOff := 0 }

/-- A flow whose target is handed over leaves the handshake. -/
structure TargetStart where
  start : UInt64 → Flow → PpTarget → Flow × Option Dispatch
  leaves : ∀ now f t, (start now f t).1.state ≠ .greeting ∧ (start now f t).1.state ≠ .request
  bare : ∀ now f t,
    ((start now f t).1.bare, (start now f t).2) =
      ((start 0 f.bare t).1.bare, (start 0 f.bare t).2)
  input : ∀ now f t, (start now f t).1.input = f.input

/-- A flow with a record of its calls. -/
structure Recorded where
  flow : Flow
  notes : List Bool
  targets : List PpTarget
  dispatched : List Dispatch
deriving DecidableEq, Repr

namespace Recorded

def bare (r : Recorded) : Recorded := { r with flow := r.flow.bare }

def point (r : Recorded) : Recorded × List UInt8 := (r.bare, r.flow.input)

variable (s : TargetStart)

def startTarget (now : UInt64) (r : Recorded) (t : PpTarget) : Recorded where
  flow := (s.start now r.flow t).1
  notes := r.notes
  targets := r.targets ++ [t]
  dispatched := r.dispatched ++ (s.start now r.flow t).2.toList

def perform (now : UInt64) (r : Recorded) : HandshakeCall → Recorded
  | .authFailNote success => { r with notes := r.notes ++ [success] }
  | .flowStartTarget t => r.startTarget s now t

def handshake (cfg : SocksCfg) (pton : InetPton) (now : UInt64) (r : Recorded) : Recorded :=
  (processSocksHandshake cfg pton now r.flow).2.foldl (perform s now)
    { r with flow := (processSocksHandshake cfg pton now r.flow).1 }

def feed (cfg : SocksCfg) (pton : InetPton) (r : Recorded) (piece : UInt64 × List UInt8) :
    Recorded :=
  handshake s cfg pton piece.1 { r with flow := { r.flow with input := r.flow.input ++ piece.2 } }

def settleBy (now : UInt64) (r : Recorded) : Verdict → Recorded
  | .http => { r with flow := { r.flow with httpMode := true } }
  | .noMethod => { r with flow := greetReject now r.flow }
  | .method chosen _ =>
    if chosen = 2 then
      { r with flow := { queueFlowOutput r.flow [5, 2] with authPending := true } }
    else { r with flow := setFlowState now (queueFlowOutput r.flow [5, 0]) .request }
  | .badAuth => { r with flow := authReject now r.flow }
  | .auth true _ =>
    { r with
      flow := setFlowState now (queueFlowOutput { r.flow with authPending := false } [1, 0])
        .request,
      notes := r.notes ++ [true] }
  | .auth false _ =>
    { r with
      flow := authReject now { r.flow with authPending := false },
      notes := r.notes ++ [false] }
  | .refused connect rep =>
    { r with
      flow := queueSocksError now
        { r.flow with httpConnect := connect.getD r.flow.httpConnect } rep }
  | .target connect t _ =>
    startTarget s now
      { r with flow := { r.flow with httpConnect := connect.getD r.flow.httpConnect } } t

end Recorded

def Verdict.used : Verdict → Nat
  | .method _ used => used
  | .auth _ used => used
  | .target _ _ used => used
  | _ => 0

/-- The phase of a handshake. -/
inductive Phase where
  | greeting
  | auth
  | http
  | request
  | past
deriving DecidableEq, Repr

def Flow.phase (f : Flow) : Phase :=
  match f.state with
  | .greeting => if f.httpMode then .http else if f.authPending then .auth else .greeting
  | .request => .request
  | _ => .past

def Phase.left : Phase → Nat
  | .greeting => 3
  | .auth => 2
  | .http => 1
  | .request => 1
  | .past => 0

def Phase.verdict (cfg : SocksCfg) (pton : InetPton) : Phase → List UInt8 → Option Verdict
  | .greeting, d => greetingVerdict cfg.authToken d
  | .auth, d => authVerdict cfg.authToken d
  | .http, d => httpVerdict pton d
  | .request, d => requestVerdict d
  | .past, _ => none

section

variable {f : Flow}

theorem phase_greeting (phase : f.phase = .greeting) :
    f.state = .greeting ∧ f.httpMode = false ∧ f.authPending = false := by
  unfold Flow.phase at phase
  grind

theorem phase_auth (phase : f.phase = .auth) :
    f.state = .greeting ∧ f.httpMode = false ∧ f.authPending = true := by
  unfold Flow.phase at phase
  grind

theorem phase_http (phase : f.phase = .http) : f.state = .greeting ∧ f.httpMode = true := by
  unfold Flow.phase at phase
  grind

theorem phase_request (phase : f.phase = .request) : f.state = .request := by
  unfold Flow.phase at phase
  grind

theorem phase_past (begun : f.state ≠ .greeting) (begun' : f.state ≠ .request) :
    f.phase = .past := by
  unfold Flow.phase
  grind

theorem phase_of_http (state : f.state = .greeting) (http : f.httpMode = true) :
    f.phase = .http := by
  rw [Flow.phase, state]
  exact if_pos http

theorem phase_of_auth (state : f.state = .greeting) (http : f.httpMode = false)
    (auth : f.authPending = true) : f.phase = .auth := by
  unfold Flow.phase
  grind

theorem phase_of_request (state : f.state = .request) : f.phase = .request := by
  rw [Flow.phase, state]

theorem phase_of_closing (state : f.state = .closing) : f.phase = .past := by
  rw [Flow.phase, state]

end

theorem Phase.verdict_stable (cfg : SocksCfg) (pton : InetPton) (phase : Phase) :
    Stable (phase.verdict cfg pton) := by
  cases phase with
  | greeting => exact greetingVerdict_stable cfg.authToken
  | auth => exact authVerdict_stable cfg.authToken
  | http => exact httpVerdict_stable pton
  | request => exact requestVerdict_stable
  | past => exact fun _ _ _ judged => nomatch judged

variable {token : Option (List UInt8)} {d : List UInt8} {v : Verdict}

theorem greetingVerdict_cases (judged : greetingVerdict token d = some v) :
    v = .http ∨ v = .noMethod ∨
      ∃ chosen, v = .method chosen (2 + (byteAt d 1).toNat) ∧
        2 + (byteAt d 1).toNat ≤ d.length := by
  unfold greetingVerdict at judged
  split at judged
  · cases judged
  · split at judged
    · cases probed : ppHttpProbe d with
      | http =>
        rw [probed] at judged
        exact .inl (Option.some.inj judged).symm
      | wait =>
        rw [probed] at judged
        cases judged
      | other =>
        rw [probed] at judged
        exact .inr (.inl (Option.some.inj judged).symm)
    · split at judged
      · exact .inr (.inl (Option.some.inj judged).symm)
      · obtain ⟨offered, greeted, rfl⟩ := Option.map_eq_some_iff.mp judged
        split
        · exact .inr (.inl rfl)
        · exact .inr (.inr ⟨_, rfl, (ppSocksGreeting_judged greeted).2.1⟩)

theorem authVerdict_cases (judged : authVerdict token d = some v) :
    v = .badAuth ∨ ∃ ok, v = .auth ok (authFrameLen d) ∧ authFrameLen d ≤ d.length := by
  obtain ⟨frame, framed, rfl⟩ := Option.map_eq_some_iff.mp judged
  cases frame with
  | valid user pass => exact .inr ⟨_, rfl, (ppSocksAuthFrame_fits framed).1⟩
  | _ => exact .inl rfl

theorem requestVerdict_cases (judged : requestVerdict d = some v) : (∃ rep, v = .refused none rep) ∨
      ∃ t, v = .target none t (socksRequestEnd d) ∧ socksRequestEnd d ≤ d.length := by
  obtain ⟨request, parsed, rfl⟩ := Option.map_eq_some_iff.mp judged
  cases request with
  | refused rep => exact .inl ⟨rep, rfl⟩
  | target t => exact .inr ⟨t, rfl, (ppSocksRequest_target parsed).1⟩

theorem httpVerdict_cases {pton : InetPton} (judged : httpVerdict pton d = some v) :
    (∃ connect, v = .refused connect 5) ∨
      ∃ connect t used, v = .target connect t used ∧ used ≤ d.length := by
  obtain ⟨last, found, rfl⟩ := Option.map_eq_some_iff.mp judged
  have inside := (scanHeader_eq_some.mp found).2.1
  unfold httpLine
  dsimp only
  split
  · exact .inl ⟨_, rfl⟩
  · split
    · exact .inl ⟨_, rfl⟩
    · split
      · exact .inl ⟨_, rfl⟩
      · refine .inr ⟨_, _, _, rfl, ?_⟩
        split <;> omega

theorem Phase.verdict_fits {cfg : SocksCfg} {pton : InetPton} {phase : Phase}
    (judged : phase.verdict cfg pton d = some v) :
    v.used ≤ d.length := by
  cases phase with
  | greeting =>
    rcases greetingVerdict_cases judged with rfl | rfl | ⟨_, rfl, fits⟩
    · exact Nat.zero_le _
    · exact Nat.zero_le _
    · exact fits
  | auth =>
    rcases authVerdict_cases judged with rfl | ⟨_, rfl, fits⟩
    · exact Nat.zero_le _
    · exact fits
  | http =>
    rcases httpVerdict_cases judged with ⟨_, rfl⟩ | ⟨_, _, _, rfl, fits⟩
    · exact Nat.zero_le _
    · exact fits
  | request =>
    rcases requestVerdict_cases judged with ⟨_, rfl⟩ | ⟨_, rfl, fits⟩
    · exact Nat.zero_le _
    · exact fits
  | past => cases judged

@[simp] theorem queueSocksError_state (now : UInt64) (f : Flow) (rep : UInt8) :
    (queueSocksError now f rep).state = .closing := by
  unfold queueSocksError
  split <;> rfl

theorem queueSocksError_input (now : UInt64) (f : Flow) (rep : UInt8) :
    (queueSocksError now f rep).input = f.input := by
  unfold queueSocksError
  split <;> rfl

theorem queueSocksError_bare (now : UInt64) (f : Flow) (rep : UInt8) :
    (queueSocksError now f rep).bare = (queueSocksError 0 f.bare rep).bare := by
  unfold queueSocksError
  by_cases sent : f.replySent
  · rw [if_pos sent, if_pos (show f.bare.replySent = true from sent)]
    rfl
  · rw [if_neg sent, if_neg (show ¬ f.bare.replySent = true from sent)]
    rfl

section

variable (s : TargetStart) (now : UInt64) (r : Recorded)

theorem settleBy_refused (connect : Option Bool) (rep : UInt8) :
    (r.settleBy s now (.refused connect rep)).flow.phase = .past :=
  phase_of_closing (queueSocksError_state _ _ _)

theorem settleBy_target (connect : Option Bool) (t : PpTarget) (used : Nat) :
    (r.settleBy s now (.target connect t used)).flow.phase = .past :=
  phase_past (s.leaves _ _ _).1 (s.leaves _ _ _).2

theorem settleBy_falls {cfg : SocksCfg} {pton : InetPton} {d : List UInt8} {v : Verdict}
    (judged : r.flow.phase.verdict cfg pton d = some v) :
    (r.settleBy s now v).flow.phase.left < r.flow.phase.left := by
  cases phase : r.flow.phase with
  | greeting =>
    obtain ⟨state, notHttp, _⟩ := phase_greeting phase
    rw [phase] at judged
    rcases greetingVerdict_cases judged with rfl | rfl | ⟨chosen, rfl, _⟩
    · have next : (r.settleBy s now .http).flow.phase = .http := phase_of_http state rfl
      rw [next]
      decide
    · rw [phase_of_closing (show (r.settleBy s now .noMethod).flow.state = .closing from rfl)]
      decide
    · by_cases auth : chosen = 2
      · have next : (r.settleBy s now (.method chosen (2 + (byteAt d 1).toNat))).flow.phase
            = .auth := by
          rw [Recorded.settleBy, if_pos auth]
          exact phase_of_auth state notHttp rfl
        rw [next]
        decide
      · have next : (r.settleBy s now (.method chosen (2 + (byteAt d 1).toNat))).flow.phase
            = .request := by
          rw [Recorded.settleBy, if_neg auth]
          exact phase_of_request rfl
        rw [next]
        decide
  | auth =>
    rw [phase] at judged
    rcases authVerdict_cases judged with rfl | ⟨ok, rfl, _⟩
    · exact Nat.succ_pos 1
    · cases ok with
      | true => exact Nat.lt_succ_self 1
      | false => exact Nat.succ_pos 1
  | http =>
    rw [phase] at judged
    rcases httpVerdict_cases judged with ⟨_, rfl⟩ | ⟨_, _, _, rfl, _⟩
    · rw [settleBy_refused]
      decide
    · rw [settleBy_target]
      decide
  | request =>
    rw [phase] at judged
    rcases requestVerdict_cases judged with ⟨_, rfl⟩ | ⟨_, rfl, _⟩
    · rw [settleBy_refused]
      decide
    · rw [settleBy_target]
      decide
  | past =>
    rw [phase] at judged
    cases judged

theorem settleBy_bare (v : Verdict) :
    (r.settleBy s now v).bare = (r.bare.settleBy s 0 v).bare := by
  have started (f : Flow) (t : PpTarget) :
      (Recorded.startTarget s now { r with flow := f } t).bare =
        (Recorded.startTarget s 0 { r with flow := f.bare } t).bare := by
    have same := s.bare now f t
    unfold Recorded.startTarget Recorded.bare
    dsimp only
    rw [(Prod.mk.inj same).1, (Prod.mk.inj same).2]
  cases v with
  | http | noMethod | badAuth => rfl
  | method chosen used =>
    rw [Recorded.settleBy, Recorded.settleBy]
    by_cases auth : chosen = 2
    · rw [if_pos auth, if_pos auth]
      rfl
    · rw [if_neg auth, if_neg auth]
      rfl
  | auth ok used => cases ok <;> rfl
  | refused connect rep =>
    rw [Recorded.settleBy, Recorded.settleBy, Recorded.bare, queueSocksError_bare]
    rfl
  | target connect t used => exact started _ t

end

def handshakeMachine (s : TargetStart) (cfg : SocksCfg) (pton : InetPton) :
    Incremental.Machine Recorded UInt8 where
  step r d := (r.flow.phase.verdict cfg pton d).map fun v => ((r.settleBy s 0 v).bare, v.used)
  rank r := r.flow.phase.left
  stable r d more next judged := by
    obtain ⟨v, found, rfl⟩ := Option.map_eq_some_iff.mp judged
    dsimp only
    rw [r.flow.phase.verdict_stable cfg pton d more v found, Option.map_some]
  fits r d next used judged := by
    obtain ⟨v, found, same⟩ := Option.map_eq_some_iff.mp judged
    obtain ⟨rfl, rfl⟩ := Prod.mk.inj same
    exact Phase.verdict_fits found
  falls r d next used judged := by
    obtain ⟨v, found, same⟩ := Option.map_eq_some_iff.mp judged
    obtain ⟨rfl, rfl⟩ := Prod.mk.inj same
    exact settleBy_falls s 0 r found

end Iwan
