import Iwan.Proxy.Fragments
import Iwan.Proxy.Frames
import Iwan.Proxy.Relay

/- One description of the SOCKS5 dialogue, which both data planes follow. -/
namespace Iwan

open BigEndian Incremental

/-- The replies, and the target handed over with the bytes behind the request. -/
structure SocksTalk where
  replies : List UInt8
  handed : Option (PpTarget × List UInt8)
deriving DecidableEq, Repr

def SocksTalk.after (sent : List UInt8) (talk : SocksTalk) : SocksTalk :=
  { talk with replies := sent ++ talk.replies }

def requestTalk (d : List UInt8) : SocksTalk :=
  match ppSocksRequest d with
  | none => ⟨[], none⟩
  | some (.refused rep) => ⟨rpSocksReply rep, none⟩
  | some (.target t) => ⟨[], some (t, d.drop (socksRequestEnd d))⟩

def authTalk (token : Option (List UInt8)) (d : List UInt8) : SocksTalk :=
  match ppSocksAuthFrame d 64 with
  | none => ⟨[], none⟩
  | some (.valid _ pass) =>
    if ppSocksAuthOk pass token then (requestTalk (d.drop (authFrameLen d))).after [1, 0]
    else ⟨[1, 1], none⟩
  | some _ => ⟨[1, 1], none⟩

def socksTalk (token : Option (List UInt8)) (d : List UInt8) : SocksTalk :=
  match ppSocksGreeting d token.isSome with
  | none => ⟨[], none⟩
  | some offered =>
    let method := ppSocksPickMethod token.isSome offered
    if method = 0xff then ⟨[5, 0xff], none⟩
    else if method = 2 then (authTalk token (d.drop (2 + (byteAt d 1).toNat))).after [5, 2]
    else (requestTalk (d.drop (2 + (byteAt d 1).toNat))).after [5, 0]

theorem ppSocksPickMethod_cases (haveToken : Bool) (offered : UInt8) :
    ppSocksPickMethod haveToken offered = 0xff ∨ ppSocksPickMethod haveToken offered = 2 ∨
      ppSocksPickMethod haveToken offered = 0 := by
  unfold ppSocksPickMethod
  split
  · exact .inl rfl
  · split
    · exact .inr (.inl rfl)
    · exact .inr (.inr rfl)

/-- The frames in front of a request that pass. -/
inductive SocksOpening (token : Option (List UInt8)) : List UInt8 → Prop where
  | plain (methods : List UInt8) (short : methods.length ≤ 255)
      (chosen : ppSocksPickMethod token.isSome (socksMethod token.isSome methods) = 0) :
      SocksOpening token (greetingFrame methods)
  | auth (methods user pass : List UInt8) (short : methods.length ≤ 255)
      (chosen : ppSocksPickMethod token.isSome (socksMethod token.isSome methods) = 2)
      (named : user ≠ []) (fits : user.length < 64) (given : pass ≠ [])
      (short' : pass.length ≤ 255) (ok : ppSocksAuthOk pass token = true) :
      SocksOpening token (greetingFrame methods ++ authFrame user pass)

variable {d payload : List UInt8} {t : PpTarget}

theorem requestTalk_handed : (requestTalk d).handed = some (t, payload) ↔
      t.Requestable ∧ d = connectFrame t ++ payload := by
  constructor
  · intro handed
    unfold requestTalk at handed
    cases parsed : ppSocksRequest d with
    | none =>
      rw [parsed] at handed
      cases handed
    | some request =>
      rw [parsed] at handed
      cases request with
      | refused rep => cases handed
      | target t' =>
        obtain ⟨rfl, rfl⟩ := Prod.mk.inj (Option.some.inj handed)
        exact ppSocksRequest_eq_target parsed
  · rintro ⟨requestable, rfl⟩
    have parsed := ppSocksRequest_frame payload requestable
    have rest := List.append_cancel_left (ppSocksRequest_eq_target parsed).2
    rw [requestTalk, parsed]
    dsimp only
    rw [← rest]

variable {token : Option (List UInt8)}

theorem authTalk_handed : (authTalk token d).handed = some (t, payload) ↔
      ∃ user pass, user ≠ [] ∧ user.length < 64 ∧ pass ≠ [] ∧ pass.length ≤ 255 ∧
        ppSocksAuthOk pass token = true ∧ t.Requestable ∧
        d = authFrame user pass ++ (connectFrame t ++ payload) := by
  constructor
  · intro handed
    unfold authTalk at handed
    cases framed : ppSocksAuthFrame d 64 with
    | none =>
      rw [framed] at handed
      cases handed
    | some frame =>
      rw [framed] at handed
      cases frame with
      | valid user pass =>
        obtain ⟨cut, named, fits, given, short⟩ := ppSocksAuthFrame_eq_valid framed
        dsimp only at handed
        split at handed
        · rename_i ok
          obtain ⟨requestable, rest⟩ := requestTalk_handed.mp handed
          rw [rest] at cut
          exact ⟨user, pass, named, fits, given, short, ok, requestable, cut⟩
        · cases handed
      | _ => cases handed
  · rintro ⟨user, pass, named, fits, given, short, ok, requestable, rfl⟩
    have framed := ppSocksAuthFrame_frame (connectFrame t ++ payload) named fits (by omega) given
      short
    have rest := List.append_cancel_left (ppSocksAuthFrame_eq_valid framed).1
    rw [authTalk, framed]
    dsimp only
    rw [if_pos ok, ← rest]
    exact requestTalk_handed.mpr ⟨requestable, rfl⟩

theorem socksTalk_frame (token : Option (List UInt8)) {methods : List UInt8} (rest : List UInt8)
    (short : methods.length ≤ 255) :
    socksTalk token (greetingFrame methods ++ rest) =
      (let method := ppSocksPickMethod token.isSome (socksMethod token.isSome methods)
      if method = 0xff then ⟨[5, 0xff], none⟩
      else if method = 2 then (authTalk token rest).after [5, 2]
      else (requestTalk rest).after [5, 0]) := by
  rw [socksTalk, ppSocksGreeting_frame rest short]
  dsimp only
  rw [greetingFrame_drop rest short]

theorem socksTalk_handed : (socksTalk token d).handed = some (t, payload) ↔
      t.Requestable ∧ ∃ opening, SocksOpening token opening ∧
        d = opening ++ (connectFrame t ++ payload) := by
  constructor
  · intro handed
    cases greeted : ppSocksGreeting d token.isSome with
    | none =>
      rw [socksTalk, greeted] at handed
      cases handed
    | some offered =>
      obtain ⟨methods, short, _, cut⟩ := ppSocksGreeting_eq_some greeted
      generalize d.drop (2 + (byteAt d 1).toNat) = rest at cut
      subst cut
      rw [socksTalk_frame token rest short] at handed
      dsimp only at handed
      split at handed
      · cases handed
      · split at handed
        · rename_i chosen
          obtain ⟨user, pass, named, fits, given, short', ok, requestable, rfl⟩ :=
            authTalk_handed.mp handed
          refine ⟨requestable, _, .auth methods user pass short chosen named fits given short' ok,
            ?_⟩
          rw [List.append_assoc]
        · rename_i known other
          obtain ⟨requestable, rfl⟩ := requestTalk_handed.mp handed
          refine ⟨requestable, _, .plain methods short ?_, rfl⟩
          exact (ppSocksPickMethod_cases _ _).resolve_left known |>.resolve_left other
  · rintro ⟨requestable, opening, opened, rfl⟩
    cases opened with
    | plain methods short chosen =>
      rw [socksTalk_frame token _ short]
      dsimp only
      rw [chosen, if_neg (by decide), if_neg (by decide)]
      exact requestTalk_handed.mpr ⟨requestable, rfl⟩
    | auth methods user pass short chosen named fits given short' ok =>
      rw [List.append_assoc, socksTalk_frame token _ short]
      dsimp only
      rw [chosen, if_neg (by decide), if_pos rfl]
      exact authTalk_handed.mpr ⟨user, pass, named, fits, given, short', ok, requestable, rfl⟩

namespace RelayRun

/-- The relay has said and handed over what the talk says. -/
structure Holds (run : RelayRun) (sent : List UInt8) (talk : SocksTalk) : Prop where
  replies : run.sent = sent ++ talk.replies
  handed : run.handed.map (fun given => (given.1, given.2 ++ run.src.rest)) = talk.handed

theorem Holds.after {run : RelayRun} {sent more : List UInt8} {talk : SocksTalk}
    (holds : run.Holds (sent ++ more) talk) : run.Holds sent (talk.after more) where
  replies := by rw [holds.replies, SocksTalk.after, List.append_assoc]
  handed := holds.handed

end RelayRun

/-- What was taken off the stream is in the buffer or was used before. -/
structure Reading (b : List UInt8) (src : Source UInt8) (before : Nat) : Prop where
  flowing : src.Flowing
  taken : src.taken ≤ b.length + before

theorem Reading.behind {b b' : List UInt8} {src src' : Source UInt8} {before : Nat}
    (reading : Reading b src before) (behind : Source.Behind src b src' b') :
    Reading b' src' before where
  flowing := behind.flowing
  taken := by
    have taken := reading.taken
    have total := behind.taken
    omega

variable {b : List UInt8} {src : Source UInt8} {before : Nat}

theorem Reading.consume (reading : Reading b src before) (used : Nat) :
    Reading (b.drop used) src (before + used) where
  flowing := reading.flowing
  taken := by
    have taken := reading.taken
    rw [List.length_drop]
    omega

theorem ppSocksRequest_decides (long : 262 ≤ d.length) : ppSocksRequest d ≠ none := by
  have small := (byteAt d 4).toNat_lt
  unfold ppSocksRequest ppSocksAddress
  grind

theorem ppSocksAuthFrame_decides {usz : Nat} (long : 513 ≤ d.length) :
    ppSocksAuthFrame d usz ≠ none := by
  have small := (byteAt d 1).toNat_lt
  have small' := (byteAt d (2 + (byteAt d 1).toNat)).toNat_lt
  unfold ppSocksAuthFrame authFrameLen
  grind

theorem rpSocksRequest_holds (sent : List UInt8) (notes : List Bool)
    (reading : Reading b src before)
    (room : before + rpSocksBuf ≤ rpHsInputMax) :
    (rpSocksRequest sent notes b src).Holds sent (requestTalk (b ++ src.rest)) := by
  have taken := reading.taken
  have read := Source.readUntil_spec rpHsInputMax ppSocksRequest_stable
    (fun d (long : rpSocksBuf ≤ d.length) => ppSocksRequest_decides
      (Nat.le_trans (by decide) long)) b src reading.flowing (by omega)
  unfold rpSocksRequest requestTalk
  cases judged : ppSocksRequest (b ++ src.rest) with
  | none =>
    rw [judged] at read
    rw [read]
    exact ⟨(List.append_nil _).symm, rfl⟩
  | some request =>
    rw [judged] at read
    obtain ⟨b', src', found, parsed, behind, _⟩ := read
    rw [found]
    cases request with
    | refused rep => exact ⟨rfl, rfl⟩
    | target t =>
      have fits := (ppSocksRequest_target parsed).1
      refine ⟨(List.append_nil _).symm, ?_⟩
      dsimp only [Option.map_some]
      rw [← behind.stream, socksRequestEnd_append _ fits, List.drop_append_of_le_length fits]
      rfl

theorem rpSocksAuth_holds (token : Option (List UInt8))
    (reading : Reading b src before)
    (room : before + 513 + rpSocksBuf ≤ rpHsInputMax) :
    (rpSocksAuth token b src).Holds [5, 2] (authTalk token (b ++ src.rest)) := by
  have taken := reading.taken
  have read := Source.readUntil_spec rpHsInputMax (ppSocksAuthFrame_stable 64)
    (fun d (long : rpSocksBuf ≤ d.length) => ppSocksAuthFrame_decides
      (Nat.le_trans (by decide) long)) b src reading.flowing (by omega)
  unfold rpSocksAuth authTalk
  cases judged : ppSocksAuthFrame (b ++ src.rest) 64 with
  | none =>
    rw [judged] at read
    rw [read]
    exact ⟨rfl, rfl⟩
  | some frame =>
    rw [judged] at read
    obtain ⟨b', src', found, framed, behind, _⟩ := read
    rw [found]
    cases frame with
    | valid user pass =>
      dsimp only
      by_cases ok : ppSocksAuthOk pass token
      · obtain ⟨fits, size⟩ := ppSocksAuthFrame_fits framed
        have used : 2 + (byteAt b' 1).toNat + 1 + pass.length = authFrameLen b' := by
          rw [size, authFrameLen]
        have short : authFrameLen b' ≤ 513 := by
          have small := (byteAt b' 1).toNat_lt
          have small' := (byteAt b' (2 + (byteAt b' 1).toNat)).toNat_lt
          unfold authFrameLen
          omega
        rw [if_pos ok, if_pos ok, used]
        apply RelayRun.Holds.after
        have next := rpSocksRequest_holds ([5, 2] ++ [1, 0])
          (if token.isSome then [true] else [])
          ((reading.behind behind).consume (authFrameLen b')) (by omega)
        rw [← List.drop_append_of_le_length fits, behind.stream] at next
        rw [← behind.stream, authFrameLen_append _ fits, behind.stream]
        exact next
      · rw [if_neg ok, if_neg ok]
        exact ⟨rfl, rfl⟩
    | _ => exact ⟨rfl, rfl⟩

theorem rpReadFull_spec {want : Nat}
    (reading : Reading b src before) (room : before + want ≤ rpHsInputMax) :
    if want ≤ (b ++ src.rest).length then
      ∃ b' src', rpReadFull want b src = some (b', src') ∧ want ≤ b'.length ∧
        Source.Behind src b src' b'
    else rpReadFull want b src = none := by
  have taken := reading.taken
  have stable : Stable fun d : List UInt8 => if want ≤ d.length then some () else none := by
    intro d more v judged
    dsimp only at judged ⊢
    split at judged
    · rw [if_pos (by rw [List.length_append]; omega)]
    · cases judged
  have read := Source.readUntil_spec rpHsInputMax stable
    (fun d long => by rw [if_pos long]; exact Option.some_ne_none ()) b src reading.flowing
    (by omega)
  split
  · rename_i whole
    rw [if_pos whole] at read
    obtain ⟨b', src', found, enough, behind, _⟩ := read
    refine ⟨b', src', by rw [rpReadFull, found]; rfl, ?_, behind⟩
    by_contra short
    rw [if_neg short] at enough
    cases enough
  · rename_i short
    rw [if_neg short] at read
    rw [rpReadFull, read]
    rfl

def GreetingRead (token : Option (List UInt8)) (b : List UInt8) (src : Source UInt8)
    (found : Option (UInt8 × List UInt8 × Source UInt8)) : Prop :=
  match ppSocksGreeting (b ++ src.rest) token.isSome with
  | none => found = none
  | some offered => ∃ b' src', found = some (offered, b', src') ∧
      ppSocksGreeting b' token.isSome = some offered ∧ Source.Behind src b src' b'

theorem GreetingRead.behind {token : Option (List UInt8)} {b b' : List UInt8}
    {src src' : Source UInt8} {found : Option (UInt8 × List UInt8 × Source UInt8)}
    (behind : Source.Behind src b src' b') (read : GreetingRead token b' src' found) :
    GreetingRead token b src found := by
  unfold GreetingRead at read ⊢
  rw [behind.stream] at read
  split at read
  · exact read
  · obtain ⟨b'', src'', same, offered, later⟩ := read
    exact ⟨b'', src'', same, offered, behind.trans later⟩

theorem rpSocksMethods_read (token : Option (List UInt8))
    (reading : Reading b src 0) (head : 2 ≤ b.length) (version : byteAt b 0 = 5) :
    GreetingRead token b src (rpSocksMethods token b src) := by
  have small := (byteAt b 1).toNat_lt
  have count : byteAt (b ++ src.rest) 1 = byteAt b 1 := byteAt_append b src.rest (by omega)
  have version' : byteAt (b ++ src.rest) 0 = 5 := by
    rw [byteAt_append b src.rest (by omega), version]
  unfold GreetingRead rpSocksMethods
  cases judged : ppSocksGreeting b token.isSome with
  | some offered =>
    have kept : ppSocksGreeting (b ++ src.rest) token.isSome = some offered :=
      ppSocksGreeting_stable token.isSome b src.rest offered judged
    rw [kept]
    exact ⟨b, src, rfl, judged, Source.Behind.refl reading.flowing b⟩
  | none =>
    have fits : ¬ rpSocksBuf < 2 + (byteAt b 1).toNat := by
      unfold rpSocksBuf
      omega
    have room : 0 + (2 + (byteAt b 1).toNat) ≤ rpHsInputMax := by
      unfold rpHsInputMax
      omega
    have read := rpReadFull_spec reading room
    dsimp only
    rw [if_neg fits]
    by_cases whole : 2 + (byteAt b 1).toNat ≤ (b ++ src.rest).length
    · rw [if_pos whole] at read
      obtain ⟨b', src', found, enough, behind⟩ := read
      have count' : byteAt b' 1 = byteAt b 1 := by
        rw [← count, ← behind.stream, byteAt_append b' src'.rest (by omega)]
      have version'' : byteAt b' 0 = 5 := by
        rw [← version', ← behind.stream, byteAt_append b' src'.rest (by omega)]
      have greeted := ppSocksGreeting_of_whole token.isSome version''
        (by rw [count']; exact enough)
      have kept : ppSocksGreeting (b' ++ src'.rest) token.isSome = _ :=
        ppSocksGreeting_stable token.isSome b' src'.rest _ greeted
      rw [← behind.stream, kept, found]
      dsimp only [Option.bind_some]
      rw [greeted]
      exact ⟨b', src', rfl, greeted, behind⟩
    · rw [if_neg whole] at read
      rw [ppSocksGreeting_of_short token.isSome (by rw [count]; omega), read]
      rfl

theorem rpSocksGreeting_read (token : Option (List UInt8)) {first : List UInt8}
    (reading : Reading first src 0) (some_byte : first ≠ [])
    (version : byteAt first 0 = 5) :
    GreetingRead token first src (rpSocksGreeting token first src) := by
  have inside := List.length_pos_of_ne_nil some_byte
  unfold rpSocksGreeting
  by_cases single : first.length = 1
  · rw [if_pos single]
    have read := rpReadFull_spec reading (show 0 + 2 ≤ rpHsInputMax by decide)
    by_cases whole : 2 ≤ (first ++ src.rest).length
    · rw [if_pos whole] at read
      obtain ⟨b, src', found, enough, behind⟩ := read
      have version' : byteAt b 0 = 5 := by
        rw [← version, ← byteAt_append first src.rest inside, ← behind.stream,
          byteAt_append b src'.rest (by omega)]
      rw [found]
      exact (rpSocksMethods_read token (reading.behind behind) enough version').behind behind
    · rw [if_neg whole] at read
      unfold GreetingRead
      rw [ppSocksGreeting_of_short token.isSome (by omega), read]
      rfl
  · rw [if_neg single]
    exact rpSocksMethods_read token reading (by omega) version

theorem ppSocksPickMethod_auth {haveToken : Bool} {offered : UInt8}
    (chosen : ppSocksPickMethod haveToken offered ≠ 0xff) :
    (haveToken = true ∨ ppSocksPickMethod haveToken offered = 2) ↔
      ppSocksPickMethod haveToken offered = 2 := by
  unfold ppSocksPickMethod at chosen ⊢
  split at chosen
  · exact absurd rfl chosen
  · rename_i known
    rw [if_neg known]
    constructor
    · rintro (token | two)
      · rw [if_pos (Or.inl token)]
      · exact two
    · exact .inr

theorem rpHandleSocks_holds (token : Option (List UInt8)) {first : List UInt8}
    (reading : Reading first src 0) (some_byte : first ≠ [])
    (fits : first.length ≤ rpSocksBuf) (version : byteAt first 0 = 5) :
    (rpHandleSocks token first src).Holds [] (socksTalk token (first ++ src.rest)) := by
  have inside := List.length_pos_of_ne_nil some_byte
  have read := rpSocksGreeting_read token reading some_byte version
  unfold GreetingRead at read
  unfold rpHandleSocks socksTalk
  rw [if_neg (by omega)]
  cases judged : ppSocksGreeting (first ++ src.rest) token.isSome with
  | none =>
    rw [judged] at read
    rw [read]
    exact ⟨rfl, rfl⟩
  | some offered =>
    rw [judged] at read
    obtain ⟨b, src', found, greeted, behind⟩ := read
    have whole := (ppSocksGreeting_judged greeted).2.1
    have small := (byteAt b 1).toNat_lt
    have count : byteAt (first ++ src.rest) 1 = byteAt b 1 := by
      rw [← behind.stream, byteAt_append b src'.rest (by omega)]
    have left : (first ++ src.rest).drop (2 + (byteAt b 1).toNat) =
        b.drop (2 + (byteAt b 1).toNat) ++ src'.rest := by
      rw [← behind.stream, List.drop_append_of_le_length whole]
    have reading' := (reading.behind behind).consume (2 + (byteAt b 1).toNat)
    rw [found]
    dsimp only
    rw [count, left]
    by_cases none_fits : ppSocksPickMethod token.isSome offered = 0xff
    · rw [if_pos none_fits, if_pos none_fits]
      exact ⟨rfl, rfl⟩
    · rw [if_neg none_fits, if_neg none_fits]
      by_cases auth : ppSocksPickMethod token.isSome offered = 2
      · rw [if_pos (Or.inr auth), if_pos auth]
        exact (rpSocksAuth_holds token reading' (by unfold rpSocksBuf rpHsInputMax; omega)).after
      · rw [if_neg (mt (ppSocksPickMethod_auth none_fits).mp auth), if_neg auth]
        exact (rpSocksRequest_holds [5, 0] [] reading'
          (by unfold rpSocksBuf rpHsInputMax; omega)).after

theorem byteAt_five : byteAt d 0 = 5 ↔ d.head? = some 5 := by
  cases d with
  | nil => exact ⟨nofun, nofun⟩
  | cons x xs => exact ⟨congrArg some, Option.some.inj⟩

theorem first_recv (flowing : src.Flowing) (fresh : src.taken = 0) (more : src.rest ≠ []) :
    ∃ first src', src.recv rpHsInputMax rpSocksBuf = some (first, src') ∧ first ≠ [] ∧
      first.length ≤ rpSocksBuf ∧ first ++ src'.rest = src.rest ∧ Reading first src' 0 ∧
      byteAt first 0 = byteAt src.rest 0 := by
  obtain ⟨first, src', received, some_byte, fits, cut, flowing', taken⟩ :=
    Source.recv_some more flowing (show 0 < rpSocksBuf by decide)
      (show src.taken + rpSocksBuf ≤ rpHsInputMax by rw [fresh]; decide)
  refine ⟨first, src', received, some_byte, fits, cut, ⟨flowing', by omega⟩, ?_⟩
  rw [← cut, byteAt_append first src'.rest (List.length_pos_of_ne_nil some_byte)]

theorem rpConnMain_holds (token : Option (List UInt8)) (pton : InetPton)
    (flowing : src.Flowing) (fresh : src.taken = 0) (version : byteAt src.rest 0 = 5) :
    (rpConnMain token pton src).Holds [] (socksTalk token src.rest) := by
  have more : src.rest ≠ [] := by
    intro empty
    rw [empty] at version
    cases version
  obtain ⟨first, src', received, some_byte, fits, cut, reading, head⟩ :=
    first_recv flowing fresh more
  rw [← head] at version
  unfold rpConnMain
  rw [received]
  dsimp only
  rw [if_neg some_byte, if_pos version, ← cut]
  exact rpHandleSocks_holds token reading some_byte fits version

section

variable (s : TargetStart) (cfg : SocksCfg) (pton : InetPton)

/-- It waits or closes without a target, or the target is handed over. -/
inductive HandshakeEnds (r : Recorded) : SocksTalk → Recorded × List UInt8 → Prop where
  | alone (replies : List UInt8) (final : Recorded × List UInt8)
      (output : final.1.flow.output = r.flow.output ++ replies)
      (targets : final.1.targets = r.targets) (dispatched : final.1.dispatched = r.dispatched) :
      HandshakeEnds r ⟨replies, none⟩ final
  | handed (replies : List UInt8) (t : PpTarget) (f : Flow) (final : Recorded × List UInt8)
      (output : f.output = r.flow.output ++ replies) (peer : f.peerIp = r.flow.peerIp)
      (flow : final.1.flow = (s.start 0 f t).1.bare) (targets : final.1.targets = r.targets ++ [t])
      (dispatched : final.1.dispatched = r.dispatched ++ (s.start 0 f t).2.toList) :
      HandshakeEnds r ⟨replies, some (t, final.2)⟩ final

variable {s cfg pton}

/-- No reply is out yet. -/
structure Recorded.Speaking (r : Recorded) : Prop where
  socks : r.flow.httpMode = false
  unanswered : r.flow.replySent = false

/-- A reply goes out, and nothing else. -/
structure Recorded.Replied (r r' : Recorded) (sent : List UInt8) : Prop where
  output : r'.flow.output = r.flow.output ++ sent
  peer : r'.flow.peerIp = r.flow.peerIp
  targets : r'.targets = r.targets
  dispatched : r'.dispatched = r.dispatched
  speaking : r.Speaking → r'.Speaking

variable {r : Recorded}

theorem HandshakeEnds.after {r' : Recorded} {sent : List UInt8} {talk : SocksTalk}
    {final : Recorded × List UInt8} (replied : r.Replied r' sent)
    (ends : HandshakeEnds s r' talk final) : HandshakeEnds s r (talk.after sent) final := by
  cases ends with
  | alone replies _ output targets dispatched =>
    apply HandshakeEnds.alone
    · rw [output, replied.output, List.append_assoc]
    · rw [targets, replied.targets]
    · rw [dispatched, replied.dispatched]
  | handed replies t f _ output peer flow targets dispatched =>
    apply HandshakeEnds.handed
    · rw [output, replied.output, List.append_assoc]
    · rw [peer, replied.peer]
    · exact flow
    · rw [targets, replied.targets]
    · rw [dispatched, replied.dispatched]

variable {phase : Phase} {d : List UInt8}

theorem settle_of_verdict (at_phase : r.flow.phase = phase)
    {v : Verdict} (judged : phase.verdict cfg pton d = some v) :
    (handshakeMachine s cfg pton).settle r d =
      (handshakeMachine s cfg pton).settle (r.settleBy s 0 v).bare (d.drop v.used) := by
  subst at_phase
  apply Incremental.Machine.settle_of_step
  show (r.flow.phase.verdict cfg pton d).map _ = _
  rw [judged]
  rfl

theorem settle_of_silence (at_phase : r.flow.phase = phase)
    (silent : phase.verdict cfg pton d = none) :
    (handshakeMachine s cfg pton).settle r d = (r, d) := by
  subst at_phase
  apply Incremental.Machine.settle_of_wait
  show (r.flow.phase.verdict cfg pton d).map _ = _
  rw [silent]
  rfl

theorem settle_of_last (at_phase : r.flow.phase = phase)
    {v : Verdict} (judged : phase.verdict cfg pton d = some v)
    (past : (r.settleBy s 0 v).flow.phase = .past) :
    (handshakeMachine s cfg pton).settle r d = ((r.settleBy s 0 v).bare, d.drop v.used) := by
  have past' : (r.settleBy s 0 v).bare.flow.phase = .past := past
  rw [settle_of_verdict at_phase judged, settle_of_silence past' rfl]

theorem queueSocksError_output {now : UInt64} {f : Flow} {rep : UInt8}
    (socks : f.httpMode = false) (unanswered : f.replySent = false) :
    (queueSocksError now f rep).output = f.output ++ rpSocksReply rep := by
  have plain : ¬ f.replySent = true := by
    rw [unanswered]
    exact Bool.false_ne_true
  have socks' : ¬ f.httpMode = true := by
    rw [socks]
    exact Bool.false_ne_true
  rw [queueSocksError, if_neg plain]
  show f.output ++ errorReply f rep = _
  rw [errorReply, if_neg socks']
  rfl

theorem settle_request (at_phase : r.flow.phase = .request)
    (speaking : r.Speaking) (d : List UInt8) :
    HandshakeEnds s r (requestTalk d) ((handshakeMachine s cfg pton).settle r d) := by
  unfold requestTalk
  cases parsed : ppSocksRequest d with
  | none =>
    rw [settle_of_silence at_phase
      (show requestVerdict d = none by rw [requestVerdict, parsed]; rfl)]
    exact .alone [] _ (List.append_nil _).symm rfl rfl
  | some request =>
    cases request with
    | refused rep =>
      have judged : requestVerdict d = some (.refused none rep) := by
        rw [requestVerdict, parsed]
        rfl
      rw [settle_of_last at_phase judged (settleBy_refused s 0 r none rep)]
      exact .alone _ _ (queueSocksError_output speaking.socks speaking.unanswered) rfl rfl
    | target t =>
      have judged : requestVerdict d = some (.target none t (socksRequestEnd d)) := by
        rw [requestVerdict, parsed]
        rfl
      rw [settle_of_last at_phase judged (settleBy_target s 0 r none t _)]
      exact .handed [] t r.flow (_, _) (List.append_nil _).symm rfl rfl rfl rfl

theorem settle_auth (at_phase : r.flow.phase = .auth) (speaking : r.Speaking) (d : List UInt8) :
    HandshakeEnds s r (authTalk cfg.authToken d) ((handshakeMachine s cfg pton).settle r d) := by
  unfold authTalk
  cases framed : ppSocksAuthFrame d 64 with
  | none =>
    rw [settle_of_silence at_phase
      (show authVerdict cfg.authToken d = none by rw [authVerdict, framed]; rfl)]
    exact .alone [] _ (List.append_nil _).symm rfl rfl
  | some frame =>
    have rejected (judged : authVerdict cfg.authToken d = some .badAuth) :
        HandshakeEnds s r ⟨[1, 1], none⟩ ((handshakeMachine s cfg pton).settle r d) := by
      rw [settle_of_last at_phase judged rfl]
      exact .alone _ _ rfl rfl rfl
    cases frame with
    | valid user pass =>
      have judged : authVerdict cfg.authToken d =
          some (.auth (ppSocksAuthOk pass cfg.authToken) (authFrameLen d)) := by
        rw [authVerdict, framed]
        rfl
      dsimp only
      by_cases ok : ppSocksAuthOk pass cfg.authToken = true
      · rw [ok] at judged
        have replied : r.Replied (r.settleBy s 0 (.auth true (authFrameLen d))).bare [1, 0] :=
          ⟨rfl, rfl, rfl, rfl, fun speaks => ⟨speaks.socks, speaks.unanswered⟩⟩
        rw [if_pos ok, settle_of_verdict at_phase judged]
        exact (settle_request rfl (replied.speaking speaking) _).after replied
      · rw [Bool.eq_false_iff.mpr ok] at judged
        rw [if_neg ok, settle_of_last at_phase judged rfl]
        exact .alone _ _ rfl rfl rfl
    | _ => exact rejected (by rw [authVerdict, framed]; rfl)

theorem greetingVerdict_socks (token : Option (List UInt8)) (version : byteAt d 0 = 5) :
    greetingVerdict token d = (ppSocksGreeting d token.isSome).map fun offered =>
      if ppSocksPickMethod token.isSome offered = 0xff then .noMethod
      else .method (ppSocksPickMethod token.isSome offered) (2 + (byteAt d 1).toNat) := by
  unfold greetingVerdict
  by_cases short : d.length < 2
  · rw [if_pos short, ppSocksGreeting_of_short token.isSome (by omega)]
    rfl
  · rw [if_neg short, if_neg (fun other => other.1 version), if_neg (fun other => other version)]

theorem settle_greeting (at_phase : r.flow.phase = .greeting)
    (speaking : r.Speaking) (version : byteAt d 0 = 5) :
    HandshakeEnds s r (socksTalk cfg.authToken d)
      ((handshakeMachine s cfg pton).settle r d) := by
  have judged := greetingVerdict_socks cfg.authToken version
  unfold socksTalk
  cases greeted : ppSocksGreeting d cfg.authToken.isSome with
  | none =>
    rw [greeted] at judged
    rw [settle_of_silence at_phase judged]
    exact .alone [] _ (List.append_nil _).symm rfl rfl
  | some offered =>
    rw [greeted, Option.map_some] at judged
    dsimp only
    by_cases none_fits : ppSocksPickMethod cfg.authToken.isSome offered = 0xff
    · rw [if_pos none_fits] at judged
      rw [if_pos none_fits, settle_of_last at_phase judged rfl]
      exact .alone _ _ rfl rfl rfl
    · obtain ⟨state, _, _⟩ := phase_greeting at_phase
      rw [if_neg none_fits] at judged
      rw [if_neg none_fits, settle_of_verdict at_phase judged]
      generalize ppSocksPickMethod cfg.authToken.isSome offered = chosen
      by_cases auth : chosen = 2
      · have replied : r.Replied
            (r.settleBy s 0 (.method chosen (2 + (byteAt d 1).toNat))).bare [5, 2] := by
          rw [Recorded.settleBy, if_pos auth]
          exact ⟨rfl, rfl, rfl, rfl, fun speaks => ⟨speaks.socks, speaks.unanswered⟩⟩
        have pending : (r.settleBy s 0
            (.method chosen (2 + (byteAt d 1).toNat))).bare.flow.phase = .auth := by
          rw [Recorded.settleBy, if_pos auth]
          exact phase_of_auth state speaking.socks rfl
        rw [if_pos auth]
        exact (settle_auth pending (replied.speaking speaking) _).after replied
      · have replied : r.Replied
            (r.settleBy s 0 (.method chosen (2 + (byteAt d 1).toNat))).bare [5, 0] := by
          rw [Recorded.settleBy, if_neg auth]
          exact ⟨rfl, rfl, rfl, rfl, fun speaks => ⟨speaks.socks, speaks.unanswered⟩⟩
        have requested : (r.settleBy s 0
            (.method chosen (2 + (byteAt d 1).toNat))).bare.flow.phase = .request := by
          rw [Recorded.settleBy, if_neg auth]
          rfl
        rw [if_neg auth]
        exact (settle_request requested (replied.speaking speaking) _).after replied

end

/-- The hand-over itself. -/
def handOver : TargetStart where
  start now f _ := (setFlowState now f .connecting, none)
  leaves _ _ _ := ⟨nofun, nofun⟩
  bare _ _ _ := rfl
  input _ _ _ := rfl

/-- Both planes answer a SOCKS5 client alike and hand over the same target and bytes. -/
theorem planes_socks_agree (cfg : SocksCfg) (pton : InetPton) (id : UInt64) (peerIp : UInt32)
    (born : UInt64) (pieces : List (UInt64 × List UInt8)) (src : Source UInt8)
    (flowing : src.Flowing) (fresh : src.taken = 0)
    (same : (pieces.map Prod.snd).flatten = src.rest) (version : src.rest.head? = some 5) :
    let relay := rpConnMain cfg.authToken pton src
    let flow := pieces.foldl (Recorded.feed handOver cfg pton) (Recorded.fresh id peerIp born)
    flow.flow.output = relay.sent ∧
    flow.targets = (relay.handed.map Prod.fst).toList ∧
    ∀ t read, relay.handed = some (t, read) →
      flow.flow.input = read ++ relay.src.rest ∧ t.Requestable ∧
      ∃ opening, SocksOpening cfg.authToken opening ∧
        src.rest = opening ++ (connectFrame t ++ flow.flow.input) := by
  intro relay flow
  have version' := byteAt_five.mpr version
  have holds : relay.Holds [] (socksTalk cfg.authToken src.rest) :=
    rpConnMain_holds cfg.authToken pton flowing fresh version'
  have settled := fresh_settles handOver cfg pton id peerIp born pieces
  rw [same] at settled
  have ends : HandshakeEnds handOver (Recorded.fresh id peerIp born).bare
      (socksTalk cfg.authToken src.rest) flow.point := by
    rw [settled]
    exact settle_greeting rfl ⟨rfl, rfl⟩ version'
  have replies := holds.replies
  have handed := holds.handed
  generalize talked : socksTalk cfg.authToken src.rest = talk at ends replies handed
  cases ends with
  | alone sent _ output targets dispatched =>
    have none : relay.handed = none := Option.map_eq_none_iff.mp handed
    refine ⟨output.trans replies.symm, ?_, ?_⟩
    · rw [none]
      exact targets
    · rw [none]
      nofun
  | handed sent t f _ output peer start targets dispatched =>
    obtain ⟨⟨t', read⟩, given, pair⟩ := Option.map_eq_some_iff.mp handed
    obtain ⟨rfl, payload⟩ := Prod.mk.inj pair
    have queued : flow.point.1.flow.output = f.output := by
      rw [start]
      rfl
    have frames := socksTalk_handed.mp (congrArg SocksTalk.handed talked)
    refine ⟨(queued.trans output).trans replies.symm, ?_, ?_⟩
    · rw [given]
      exact targets
    · intro t'' read' given'
      rw [given] at given'
      obtain ⟨rfl, rfl⟩ := Prod.mk.inj (Option.some.inj given')
      exact ⟨payload.symm, frames⟩

theorem planes_socks_agree_sample :
    let cfg : SocksCfg := ⟨none, false, false⟩
    let pton : InetPton := ⟨fun _ => none, fun _ => none⟩
    let pieces : List (UInt64 × List UInt8) :=
      [(0, [5]), (3, [1, 0, 5, 1, 0]), (4, [1, 8, 8, 8, 8, 0, 53, 0xaa])]
    let src : Source UInt8 := ⟨[[5, 1, 0, 5], [1, 0, 1, 8, 8, 8, 8, 0, 53, 0xaa]], 0⟩
    (rpConnMain none pton src).sent = [5, 0] ∧
    (pieces.foldl (Recorded.feed handOver cfg pton) (Recorded.fresh 1 0x0a000001 0)).flow.output =
      (rpConnMain none pton src).sent := by
  intro cfg pton pieces src
  have agree := planes_socks_agree cfg pton 1 0x0a000001 0 pieces src
    (by unfold Source.Flowing; decide) rfl (by decide) (by decide)
  exact ⟨by decide +kernel, agree.1⟩

end Iwan
