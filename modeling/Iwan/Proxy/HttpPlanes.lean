import Iwan.Proxy.Gate
import Iwan.Proxy.Planes

/- The two data planes on HTTP. -/
namespace Iwan

open BigEndian Incremental

def requestLine (d : List UInt8) : List UInt8 := d.takeWhile fun c => !isLineEnd c

def lineTarget (pton : InetPton) (line : List UInt8) : Option (Bool × PpTarget) :=
  let mn := scan isSpace line 0 line.length
  if mn = 0 ∨ line.length ≤ mn then none
  else
    let connect : Bool := mn = 7 ∧ line.take 7 = ascii "CONNECT"
    let ts := scan notSpace line (mn + 1) line.length
    if line.length ≤ ts then none
    else (ppHttpTarget pton (line.drop ts) connect).map fun t => (connect, t)

theorem requestLine_eq (d : List UInt8) : requestLine d = d.take (scan isLineEnd d 0 d.length) := by
  rw [requestLine, List.takeWhile_eq_take_findIdx_not, scan, List.take_length, List.drop_zero,
    Nat.zero_add]
  simp only [Bool.not_not]

theorem scan_take {stop : UInt8 → Bool} (d : List UInt8) (i limit : Nat) :
    scan stop (d.take limit) i limit = scan stop d i limit := by
  rw [scan, scan, List.take_take, Nat.min_self]

variable {d : List UInt8} (pton : InetPton)

theorem lineTarget_eq {eol : Nat} (line : scan isLineEnd d 0 d.length = eol) :
    lineTarget pton (requestLine d) =
      (let mn := scan isSpace d 0 eol
      if mn = 0 ∨ eol ≤ mn then none
      else
        let connect : Bool := mn = 7 ∧ d.take 7 = ascii "CONNECT"
        let ts := scan notSpace d (mn + 1) eol
        if eol ≤ ts then none
        else
          (ppHttpTarget pton ((d.drop ts).take (eol - ts)) connect).map fun t => (connect, t)) := by
  have within : eol ≤ d.length := line ▸ scan_le _ _ (Nat.zero_le _)
  have cut : requestLine d = d.take eol := by rw [requestLine_eq, line]
  have size : (d.take eol).length = eol := List.length_take_of_le within
  unfold lineTarget
  rw [cut, size]
  dsimp only
  rw [scan_take, scan_take]
  by_cases blank : scan isSpace d 0 eol = 0 ∨ eol ≤ scan isSpace d 0 eol
  · rw [if_pos blank, if_pos blank]
  · have named : (scan isSpace d 0 eol = 7 ∧ (d.take eol).take 7 = ascii "CONNECT") =
        (scan isSpace d 0 eol = 7 ∧ d.take 7 = ascii "CONNECT") := by
      apply propext
      apply and_congr_right
      intro seven
      rw [List.take_take, Nat.min_eq_left (by omega)]
    rw [if_neg blank, if_neg blank]
    simp only [named, List.drop_take]

theorem httpLine_target (d : List UInt8) (last : Nat) : match lineTarget pton (requestLine d) with
    | none => ∃ connect, httpLine pton d last = .refused connect 5
    | some (connect, t) =>
        httpLine pton d last = .target (some connect) t (if connect then last + 1 else 0) := by
  rw [lineTarget_eq pton rfl]
  unfold httpLine
  generalize scan isLineEnd d 0 d.length = eol
  dsimp only
  by_cases blank : scan isSpace d 0 eol = 0 ∨ eol ≤ scan isSpace d 0 eol
  · rw [if_pos blank, if_pos blank]
    exact ⟨_, rfl⟩
  · rw [if_neg blank, if_neg blank]
    generalize (decide (scan isSpace d 0 eol = 7 ∧ d.take 7 = ascii "CONNECT")) = connect
    generalize scan notSpace d (scan isSpace d 0 eol + 1) eol = ts
    by_cases bare : eol ≤ ts
    · rw [if_pos bare, if_pos bare]
      exact ⟨_, rfl⟩
    · rw [if_neg bare, if_neg bare]
      cases ppHttpTarget pton ((d.drop ts).take (eol - ts)) connect with
      | none => exact ⟨_, rfl⟩
      | some t => rfl

/-- A known method and a space stand in front. -/
structure Probed (d : List UInt8) (method : List UInt8) : Prop where
  known : method ∈ httpMethods
  starts : method <+: d
  delimited : byteAt d method.length = 0x20

theorem httpMethods_plain :
    ∀ method ∈ httpMethods, method ≠ [] ∧
      ∀ c ∈ method, isLineEnd c = false ∧ isSpace c = false := by
  decide +kernel

variable {method : List UInt8}

theorem Probed.early (probed : Probed d method) :
    ∀ i < method.length, isLineEnd (byteAt d i) = false ∧ isSpace (byteAt d i) = false := by
  intro i inside
  obtain ⟨rest, rfl⟩ := probed.starts
  rw [byteAt_append method rest inside, byteAt, List.getD_eq_getElem _ _ inside]
  exact (httpMethods_plain method probed.known).2 _ (List.getElem_mem inside)

variable {last : Nat}

theorem Probed.behind (probed : Probed d method)
    (inside : last < d.length) (ends : endsHeader d last = true) :
    method.length < scan isLineEnd d 0 d.length := by
  have early := scan_lineEnd_le ends
  have stopped := @scan_stopped isLineEnd d 0 d.length (Nat.le_refl d.length) (by omega)
  by_contra before
  rcases Nat.lt_or_eq_of_le (Nat.le_of_not_lt before) with shorter | same
  · rw [(probed.early _ shorter).1] at stopped
    cases stopped
  · rw [same, probed.delimited] at stopped
    cases stopped

theorem Probed.of_append {more : List UInt8} (probed : Probed (d ++ more) method)
    (read : method.length < d.length) : Probed d method where
  known := probed.known
  starts := List.prefix_of_prefix_length_le probed.starts (List.prefix_append d more) (by omega)
  delimited := by rw [← byteAt_append d more read, probed.delimited]

theorem lineEnd_notSpace {c : UInt8} (ends : isLineEnd c = true) : notSpace c = true := by
  unfold isLineEnd at ends
  rw [decide_eq_true_iff] at ends
  rcases ends with rfl | rfl <;> rfl

theorem rpHttpTarget_line (probed : Probed d method)
    (inside : last < d.length) (ends : endsHeader d last = true) :
    rpHttpTarget pton d (last + 1) = lineTarget pton (requestLine d) := by
  have early := scan_lineEnd_le ends
  have within : scan isLineEnd d 0 d.length ≤ d.length := scan_le _ _ (Nat.zero_le _)
  have stopped := @scan_stopped isLineEnd d 0 d.length (Nat.le_refl d.length) (by omega)
  have none_before {j : Nat} := @scan_passed isLineEnd d 0 d.length j (Nat.zero_le j)
  have positive := List.length_pos_of_ne_nil (httpMethods_plain method probed.known).1
  have behind := probed.behind inside ends
  rw [lineTarget_eq pton rfl]
  generalize scan isLineEnd d 0 d.length = eol at early within stopped none_before behind
  have space (limit : Nat) (later : eol ≤ limit) (fits : limit ≤ d.length) :
      scan isSpace d 0 limit = method.length := by
    apply scan_eq fits (Nat.zero_le _) (by omega)
    · exact fun j _ before => (probed.early j before).2
    · intro _
      rw [probed.delimited]
      rfl
  have target_le := scan_le notSpace d (show method.length + 1 ≤ eol by omega)
  have target_ge := scan_ge notSpace d (method.length + 1) eol
  have target : scan notSpace d (method.length + 1) (last + 1) =
      scan notSpace d (method.length + 1) eol := by
    apply scan_eq (by omega) target_ge (by omega)
    · exact fun j low high => scan_passed low high
    · intro _
      rcases Nat.lt_or_eq_of_le target_le with inner | at_end
      · exact scan_stopped within inner
      · rw [at_end]
        exact lineEnd_notSpace stopped
  have line : scan isLineEnd d (scan notSpace d (method.length + 1) eol) (last + 1) = eol := by
    apply scan_eq (by omega) target_le (by omega)
    · exact fun j _ high => none_before high
    · exact fun _ => stopped
  unfold rpHttpTarget
  rw [space (last + 1) (by omega) (by omega), space eol (Nat.le_refl eol) within]
  dsimp only
  rw [target, line]
  generalize scan notSpace d (method.length + 1) eol = ts at target_le target_ge
  have named : ¬ (method.length = 0 ∨ last + 1 ≤ method.length) := by omega
  have named' : ¬ (method.length = 0 ∨ eol ≤ method.length) := by omega
  have before : ¬ last + 1 ≤ ts := by omega
  have found : eol < last + 1 := by omega
  rw [if_neg named, if_neg named', if_neg before, if_pos found]
  by_cases bare : eol ≤ ts
  · rw [if_pos (show eol - ts = 0 by omega), if_pos bare]
  · rw [if_neg (show ¬ eol - ts = 0 by omega), if_neg bare]

theorem scanHeader_take {start len : Nat}
    (found : scanHeader d start = some last) (short : last < len) :
    scanHeader (d.take len) start = some last := by
  obtain ⟨low, inside, ends, before⟩ := scanHeader_eq_some.mp found
  have same {i : Nat} (early : i ≤ last) : endsHeader (d.take len) i = endsHeader d i := by
    have cut := endsHeader_append (d := d.take len) (d.drop len) (i := i)
      (by rw [List.length_take]; omega)
    rw [List.take_append_drop] at cut
    exact cut.symm
  apply scanHeader_eq_some.mpr
  rw [List.length_take]
  refine ⟨low, by omega, by rw [same (Nat.le_refl last)]; exact ends, ?_⟩
  intro i three earlier
  rw [same (by omega)]
  exact before i three earlier

theorem headerRead_stable : Stable headerRead := by
  intro d more v judged
  unfold headerRead at judged ⊢
  by_cases full : rpHttpBuf - 1 ≤ d.length
  · rw [List.take_append_of_le_length full]
    cases found : scanHeader (d.take (rpHttpBuf - 1)) 3 with
    | some last =>
      rw [found] at judged
      exact judged
    | none =>
      rw [found] at judged
      dsimp only at judged ⊢
      rw [if_pos full] at judged
      rw [if_pos (by rw [List.length_append]; omega)]
      exact judged
  · have short : d.length ≤ rpHttpBuf - 1 := by omega
    rw [List.take_of_length_le short] at judged
    cases found : scanHeader d 3 with
    | none =>
      rw [found] at judged
      dsimp only at judged
      rw [if_neg full] at judged
      cases judged
    | some last =>
      have inside := (scanHeader_eq_some.mp found).2.1
      rw [found] at judged
      rw [scanHeader_take (scanHeader_append more found) (by omega)]
      exact judged

theorem headerRead_decides (full : rpHttpBuf - 1 ≤ d.length) : headerRead d ≠ none := by
  unfold headerRead
  split
  · exact Option.some_ne_none _
  · rw [if_pos full]
    exact Option.some_ne_none _

theorem headerRead_complete (read : headerRead d = some (.complete last)) : last < d.length := by
  unfold headerRead at read
  split at read
  · rename_i found
    obtain rfl := HeaderRead.complete.inj (Option.some.inj read)
    have inside := (scanHeader_eq_some.mp found).2.1
    rw [List.length_take] at inside
    omega
  · split at read <;> cases read

theorem requestLine_append (more : List UInt8)
    (inside : last < d.length) (ends : endsHeader d last = true) :
    requestLine (d ++ more) = requestLine d := by
  rw [requestLine_eq, requestLine_eq, scan_lineEnd_append more inside ends,
    List.take_append_of_le_length (scan_le _ _ (Nat.zero_le _))]

def RelayRun.HandsLine (run : RelayRun) : Option (Bool × PpTarget) → Prop
  | none => run.handed = none ∧ run.sent = badGateway
  | some (connect, t) =>
    run.handed.map Prod.fst = some t ∧ run.connect = connect ∧ run.sent = []

theorem rpHandleHttp_hands {first : List UInt8} {src : Source UInt8} (reading : Reading first src 0)
    (block : scanHeader (first ++ src.rest) 3 = some last) (short : last < rpHttpBuf - 1)
    (probed : Probed (first ++ src.rest) method) :
    (rpHandleHttp pton first src).HandsLine
      (lineTarget pton (requestLine (first ++ src.rest))) := by
  have taken := reading.taken
  have read := Source.readUntil_spec rpHsInputMax headerRead_stable
    (fun d (full : rpHttpBuf - 1 ≤ d.length) => headerRead_decides full) first src
    reading.flowing (by unfold rpHttpBuf rpHsInputMax; omega)
  have judged : headerRead (first ++ src.rest) = some (.complete last) := by
    rw [headerRead, scanHeader_take block short]
  rw [judged] at read
  obtain ⟨buf, src', found, complete, behind, _⟩ := read
  have inside := headerRead_complete complete
  obtain ⟨_, inside', ends', _⟩ := scanHeader_eq_some.mp block
  have early := Nat.lt_of_lt_of_le (probed.behind inside' ends') (scan_lineEnd_le ends')
  rw [← behind.stream] at probed ends' ⊢
  rw [endsHeader_append src'.rest inside] at ends'
  have target := rpHttpTarget_line pton (probed.of_append (by omega)) inside ends'
  rw [requestLine_append src'.rest inside ends', ← target]
  unfold rpHandleHttp
  rw [found]
  dsimp only
  cases rpHttpTarget pton buf (last + 1) with
  | none => exact ⟨rfl, rfl⟩
  | some given => exact ⟨rfl, rfl, rfl⟩

theorem rpConnMain_hands {src : Source UInt8} (flowing : src.Flowing)
    (fresh : src.taken = 0) (other : byteAt src.rest 0 ≠ 5)
    (block : scanHeader src.rest 3 = some last) (short : last < rpHttpBuf - 1)
    (probed : Probed src.rest method) :
    (rpConnMain none pton src).HandsLine (lineTarget pton (requestLine src.rest)) := by
  have more : src.rest ≠ [] := by
    intro empty
    rw [empty] at block
    cases block
  obtain ⟨first, src', received, some_byte, _, cut, reading, head⟩ :=
    first_recv flowing fresh more
  rw [← head] at other
  unfold rpConnMain
  rw [received]
  dsimp only
  rw [if_neg some_byte, if_neg other, if_neg (by exact Bool.false_ne_true)]
  rw [← cut] at block probed ⊢
  exact rpHandleHttp_hands pton reading block short probed

theorem recordOpen_dispatch (now : UInt64) (out : Flow × Option Dispatch) :
    (recordOpen now out).2 = out.2 := by
  unfold recordOpen
  split <;> rfl

theorem startRecorded_dispatch (cfg : SocksCfg) (now : UInt64) (f : Flow) (t : PpTarget) :
    ((startRecorded cfg).start now f t).2 = flowStart cfg (socksGuard cfg f) t := by
  rw [← flowStartTarget_start cfg now f t]
  exact recordOpen_dispatch now _

theorem startRecorded_httpConnect (cfg : SocksCfg) (now : UInt64) (f : Flow) (t : PpTarget) :
    ((startRecorded cfg).start now f t).1.httpConnect = f.httpConnect := by
  have refused (f : Flow) (rep : UInt8) :
      (queueSocksError now f rep).httpConnect = f.httpConnect := by
    unfold queueSocksError
    split <;> rfl
  have gated (f : Flow) (addr : TargetAddr) (port : UInt16) :
      (recordOpen now (flowOpenGated cfg now f addr port)).1.httpConnect = f.httpConnect := by
    rw [flowOpenGated_recorded]
    split
    · exact refused f 2
    · rfl
  show (recordOpen now (flowStartTarget cfg now f t)).1.httpConnect = f.httpConnect
  unfold flowStartTarget
  cases t.af with
  | v4 => exact gated _ _ _
  | v6 =>
    dsimp only
    split
    · exact refused f 8
    · exact gated _ _ _
  | domain => rfl

def Recorded.HandsLine (cfg : SocksCfg) (guard : Bool) (r : Recorded) :
    Option (Bool × PpTarget) → Prop
  | none => r.targets = [] ∧ r.dispatched = [] ∧ r.flow.output = badGateway
  | some (connect, t) =>
    r.targets = [t] ∧ r.flow.httpConnect = connect ∧
      r.dispatched = (flowStart cfg guard t).toList

theorem fresh_hands (cfg : SocksCfg) (pton : InetPton) (noToken : cfg.authToken = none)
    (id : UInt64) (peerIp : UInt32) (born : UInt64)
    (other : byteAt d 0 ≠ 5) (block : scanHeader d 3 = some last)
    (probed : ppHttpProbe d = .http) :
    ((handshakeMachine (startRecorded cfg) cfg pton).settle
        (Recorded.fresh id peerIp born).bare d).1.HandsLine cfg
      (socksGuard cfg (Flow.accepted id peerIp born)) (lineTarget pton (requestLine d)) := by
  obtain ⟨three, inside, _, _⟩ := scanHeader_eq_some.mp block
  have greeted : greetingVerdict cfg.authToken d = some .http := by
    rw [greetingVerdict, if_neg (by omega), if_pos ⟨other, noToken⟩, probed]
  have judged : httpVerdict pton d = some (httpLine pton d last) := by
    rw [httpVerdict, block]
    rfl
  have line := httpLine_target pton d last
  have begun : (Recorded.fresh id peerIp born).bare.flow.phase = .greeting := rfl
  have http : ((Recorded.fresh id peerIp born).bare.settleBy (startRecorded cfg) 0
    .http).bare.flow.phase = .http := rfl
  have whole : d.drop Verdict.http.used = d := List.drop_zero
  rw [settle_of_verdict begun greeted, whole]
  cases target : lineTarget pton (requestLine d) with
  | none =>
    rw [target] at line
    obtain ⟨connect, refused⟩ := line
    rw [refused] at judged
    rw [settle_of_last http judged (settleBy_refused _ _ _ _ _)]
    exact ⟨rfl, rfl, rfl⟩
  | some given =>
    rw [target] at line
    obtain ⟨connect, t⟩ := given
    dsimp only at line
    rw [line] at judged
    rw [settle_of_last http judged (settleBy_target _ _ _ _ _ _)]
    refine ⟨rfl, startRecorded_httpConnect cfg 0 _ t, ?_⟩
    show [] ++ ((startRecorded cfg).start 0 _ t).2.toList = _
    rw [startRecorded_dispatch, List.nil_append]
    rfl

theorem fresh_refuses (cfg : SocksCfg) (pton : InetPton) (noToken : cfg.authToken = none)
    (id : UInt64) (peerIp : UInt32) (born : UInt64)
    (other : byteAt d 0 ≠ 5) (probed : ppHttpProbe d ≠ .http) :
    let final := ((handshakeMachine (startRecorded cfg) cfg pton).settle
      (Recorded.fresh id peerIp born).bare d).1
    final.targets = [] ∧ final.dispatched = [] := by
  have begun : (Recorded.fresh id peerIp born).bare.flow.phase = .greeting := rfl
  cases judged : greetingVerdict cfg.authToken d with
  | none =>
    rw [settle_of_silence begun judged]
    exact ⟨rfl, rfl⟩
  | some v =>
    have rejected : v = .noMethod := by
      unfold greetingVerdict at judged
      split at judged
      · cases judged
      · rw [if_pos ⟨other, noToken⟩] at judged
        cases probe : ppHttpProbe d with
        | http => exact absurd probe probed
        | wait =>
          rw [probe] at judged
          cases judged
        | other =>
          rw [probe] at judged
          exact (Option.some.inj judged).symm
    subst rejected
    rw [settle_of_last begun judged rfl]
    exact ⟨rfl, rfl⟩

/-- What the event-driven handler takes for HTTP both planes refuse, or hand over with one target.
-/
theorem planes_http_agree (cfg : SocksCfg) (pton : InetPton) (noToken : cfg.authToken = none)
    (id : UInt64) (peerIp : UInt32) (born : UInt64) (pieces : List (UInt64 × List UInt8))
    (src : Source UInt8) (flowing : src.Flowing) (fresh : src.taken = 0)
    (same : (pieces.map Prod.snd).flatten = src.rest) (other : src.rest.head? ≠ some 5)
    (last : Nat) (block : scanHeader src.rest 3 = some last) (short : last + 1 ≤ 8191) :
    let relay := rpConnMain none pton src
    let flow := pieces.foldl (Recorded.feed (startRecorded cfg) cfg pton)
      (Recorded.fresh id peerIp born)
    let guard := socksGuard cfg (Flow.accepted id peerIp born)
    if ppHttpProbe src.rest = .http then
      match lineTarget pton (requestLine src.rest) with
      | none =>
          relay.handed = none ∧ relay.sent = badGateway ∧
          flow.targets = [] ∧ flow.dispatched = [] ∧ flow.flow.output = badGateway
      | some (connect, t) =>
          relay.handed.map Prod.fst = some t ∧ relay.connect = connect ∧
          flow.targets = [t] ∧ flow.flow.httpConnect = connect ∧
          flow.dispatched = (flowStart cfg guard t).toList
    else flow.targets = [] ∧ flow.dispatched = [] := by
  intro relay flow guard
  have inside := (scanHeader_eq_some.mp block).2.1
  have other' : byteAt src.rest 0 ≠ 5 := fun five => other (byteAt_five.mp five)
  have settled := congrArg Prod.fst
    (fresh_settles (startRecorded cfg) cfg pton id peerIp born pieces)
  rw [same] at settled
  by_cases probed : ppHttpProbe src.rest = .http
  · obtain ⟨method, known, starts, _, delimited⟩ := ppHttpProbe_http probed
    have relayed := rpConnMain_hands pton flowing fresh other' block (show last < rpHttpBuf - 1 by
      unfold rpHttpBuf
      omega) ⟨known, starts, delimited⟩
    have hands := fresh_hands cfg pton noToken id peerIp born other' block probed
    rw [← settled] at hands
    rw [if_pos probed]
    cases target : lineTarget pton (requestLine src.rest) with
    | none =>
      rw [target] at relayed hands
      exact ⟨relayed.1, relayed.2, hands⟩
    | some given =>
      rw [target] at relayed hands
      exact ⟨relayed.1, relayed.2.1, hands⟩
  · have refuses := fresh_refuses cfg pton noToken id peerIp born other' probed
    dsimp only at refuses
    rw [← settled] at refuses
    rw [if_neg probed]
    exact refuses

def getRequest : List UInt8 := ascii "GET http://h/ HTTP/1.1\r\n\r\n"

theorem planes_http_agree_sample :
    let pton : InetPton := ⟨fun _ => none, fun _ => none⟩
    (rpConnMain none pton ⟨[getRequest], 0⟩).handed.map Prod.fst =
      some { PpTarget.zero with host := ascii "h", port := 80 } := by
  intro pton
  have rest : (Source.mk [getRequest] 0).rest = getRequest := by decide +kernel
  have probed : ppHttpProbe getRequest = .http := by decide +kernel
  have target : lineTarget pton (requestLine getRequest) =
      some (false, { PpTarget.zero with host := ascii "h", port := 80 }) := by decide +kernel
  have agree := planes_http_agree ⟨none, false, false⟩ pton rfl 1 0x0a000001 0 [(0, getRequest)]
    ⟨[getRequest], 0⟩ (by unfold Source.Flowing; decide +kernel) rfl (by decide +kernel)
    (by decide +kernel) 25 (by decide +kernel) (by decide)
  rw [rest] at agree
  dsimp only at agree
  rw [if_pos probed, target] at agree
  exact agree.1

/-- The relay serves an unknown method and an IPv6 literal. -/
theorem planes_http_disagree :
    let pton : InetPton := ⟨fun _ => none, fun _ => some (List.replicate 16 1)⟩
    let cfg : SocksCfg := ⟨none, false, false⟩
    let lock := ascii "LOCK http://h/ HTTP/1.1\r\n\r\n"
    let literal := ascii "CONNECT [101:101:101:101:101:101:101:101]:80 HTTP/1.1\r\n\r\n"
    let flow (d : List UInt8) :=
      (Recorded.fresh 1 0x0a000001 0).feed (startRecorded cfg) cfg pton (0, d)
    let relay (d : List UInt8) := rpConnMain none pton ⟨[d], 0⟩
    ((relay lock).handed.map fun given => rpStart true given.1) =
        some (some (.spawnDns (ascii "h") 80)) ∧
      (flow lock).dispatched = [] ∧
    ((relay literal).handed.map fun given => rpStart true given.1) =
        some (some (.openTcpConn (.v6 (List.replicate 16 1)) 80)) ∧
      (flow literal).dispatched = [] := by
  decide +kernel

end Iwan
