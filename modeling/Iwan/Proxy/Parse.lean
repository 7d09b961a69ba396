import Iwan.Lib.BigEndian
import Iwan.Lib.Incremental
import Iwan.Wire.Cipher

/- The parsers both data planes share; `none` waits for more bytes. -/
namespace Iwan

open BigEndian

/-- Whether a stream is HTTP. -/
inductive HttpProbe where
  | http
  | wait
  | other
deriving DecidableEq, Repr

def httpMethods : List (List UInt8) :=
  [ascii "CONNECT", ascii "GET", ascii "POST", ascii "HEAD", ascii "PUT", ascii "DELETE",
    ascii "OPTIONS", ascii "TRACE", ascii "PATCH"]

def httpMethodBegun (d : List UInt8) : Bool :=
  (byteAt d 0 = 0x43 ∧ d.length < 7) ∨ (byteAt d 0 = 0x4f ∧ d.length < 7) ∨
    (byteAt d 0 = 0x44 ∧ d.length < 6) ∨ (byteAt d 0 = 0x47 ∧ d.length < 3) ∨
    (byteAt d 0 = 0x48 ∧ d.length < 4) ∨
    ((byteAt d 0 = 0x50 ∨ byteAt d 0 = 0x54) ∧ d.length < 5)

def ppHttpProbe (d : List UInt8) : HttpProbe :=
  if d.length = 0 then .wait
  else
    match httpMethods.find? fun method =>
        method.length ≤ d.length ∧ d.take method.length = method with
    | some method =>
      if method.length < d.length ∧ byteAt d method.length = 0x20 then .http
      else if d.length = method.length then .wait
      else .other
    | none => if httpMethodBegun d then .wait else .other

inductive PpAf where
  | domain
  | v4
  | v6
deriving DecidableEq, Repr

/-- A requested target. -/
structure PpTarget where
  af : PpAf
  ip4 : List UInt8
  ip6 : List UInt8
  host : List UInt8
  port : UInt16
deriving DecidableEq, Repr

def PpTarget.zero : PpTarget := ⟨.domain, [0, 0, 0, 0], List.replicate 16 0, [], 0⟩

/-- inet_pton. -/
structure InetPton where
  v4 : List UInt8 → Option (List UInt8)
  v6 : List UInt8 → Option (List UInt8)

/-- The loop of pp_parse_port: the bound is tested behind each digit. -/
def ppParsePortLoop : List UInt8 → UInt64 → Option UInt64
  | [], v => some v
  | c :: rest, v =>
    if c < 0x30 ∨ 0x39 < c then none
    else
      let v' := v * 10 + (c - 0x30).toUInt64
      if 65535 < v' then none else ppParsePortLoop rest v'

def ppParsePort (s : List UInt8) : Option UInt16 :=
  if s = [] then none else (ppParsePortLoop s 0).map UInt64.toUInt16

def asciiLower (c : UInt8) : UInt8 := if 0x41 ≤ c ∧ c ≤ 0x5a then c + 0x20 else c

def hasScheme (s scheme : List UInt8) : Bool :=
  scheme.length ≤ s.length ∧ (s.take scheme.length).map asciiLower = scheme

def stripScheme (s : List UInt8) : List UInt8 × UInt16 :=
  if hasScheme s (ascii "http://") then (s.drop 7, 80)
  else if hasScheme s (ascii "https://") then (s.drop 8, 443)
  else (s, 80)

def isHostByte (c : UInt8) : Bool :=
  (0x61 ≤ c ∧ c ≤ 0x7a) ∨ (0x41 ≤ c ∧ c ≤ 0x5a) ∨ (0x30 ≤ c ∧ c ≤ 0x39) ∨ c = 0x2e ∨ c = 0x2d ∨
    c = 0x5f

def ppHttpLiteral6 (pton : InetPton) (s : List UInt8) (port : UInt16) : Option PpTarget :=
  let close := s.findIdx (· = 0x5d)
  if close = s.length ∨ close < 3 then none
  else if 45 < close - 1 then none
  else
    match pton.v6 (cString ((s.drop 1).take (close - 1))) with
    | none => none
    | some ip6 =>
      if close + 1 < s.length then
        if byteAt s (close + 1) ≠ 0x3a then none
        else
          (ppParsePort (s.drop (close + 2))).map fun port =>
            { PpTarget.zero with af := .v6, ip6 := ip6, port := port }
      else some { PpTarget.zero with af := .v6, ip6 := ip6, port := port }

def ppHttpSplit (s : List UInt8) (port : UInt16) : Option (List UInt8 × UInt16) :=
  let colon := s.findIdx (· = 0x3a)
  if colon = s.length then some (s, port)
  else if colon = s.length - 1 ∨ 0x3a ∈ s.drop (colon + 1) then none
  else (ppParsePort (s.drop (colon + 1))).map fun port => (s.take colon, port)

def ppHttpHost (pton : InetPton) (host : List UInt8) (port : UInt16) : Option PpTarget :=
  if host.length = 0 ∨ 255 < host.length then none
  else if host.all isHostByte then
    match pton.v4 host with
    | some ip4 => some { PpTarget.zero with af := .v4, ip4 := ip4, host := host, port := port }
    | none => some { PpTarget.zero with host := host, port := port }
  else none

def ppHttpTarget (pton : InetPton) (s : List UInt8) (isConnect : Bool) : Option PpTarget :=
  if s = [] then none
  else
    let (s, port) := if isConnect then (s, 443) else stripScheme s
    let s := if isConnect then s else s.takeWhile fun c => c ≠ 0x2f ∧ c ≠ 0x3f ∧ c ≠ 0x23
    let s := s.takeWhile (· ≠ 0x20)
    if s = [] then none
    else if byteAt s 0 = 0x5b then ppHttpLiteral6 pton s port
    else (ppHttpSplit s port).bind fun (host, port) => ppHttpHost pton host port

def socksMethod (haveToken : Bool) (offered : List UInt8) : UInt8 :=
  let want : UInt8 := if haveToken then 2 else 0
  if want ∈ offered then want
  -- a server without a token accepts a client that offers RFC1929 only
  else if haveToken = false ∧ 2 ∈ offered then 2
  else 0xff

def ppSocksGreeting (d : List UInt8) (haveToken : Bool) : Option UInt8 :=
  if d.length < 2 then none
  else if byteAt d 0 ≠ 5 then none
  else if d.length < 2 + (byteAt d 1).toNat then none
  else some (socksMethod haveToken ((d.drop 2).take (byteAt d 1).toNat))

def ppSocksPickMethod (haveToken : Bool) (method : UInt8) : UInt8 :=
  if method = 0xff then 0xff else if haveToken ∨ method = 2 then 2 else 0

def ppSocksAuthDiff (pass token : List UInt8) : UInt32 :=
  (List.range (max pass.length token.length)).foldl
    (fun diff i => diff ||| (byteAt pass i ^^^ byteAt token i).toUInt32)
    (UInt32.ofNat (pass.length ^^^ token.length))

def ppSocksAuthOk (pass : List UInt8) : Option (List UInt8) → Bool
  | none => true
  | some token => ppSocksAuthDiff pass token = 0

def authFrameLen (d : List UInt8) : Nat :=
  2 + (byteAt d 1).toNat + 1 + (byteAt d (2 + (byteAt d 1).toNat)).toNat

/-- An RFC 1929 frame. -/
inductive AuthFrame where
  | malformed
  | valid (user pass : List UInt8)
  | oversized
deriving DecidableEq, Repr

def ppSocksAuthFrame (d : List UInt8) (usz : Nat) : Option AuthFrame :=
  if d.length < 2 then none
  else if byteAt d 0 ≠ 1 ∨ byteAt d 1 = 0 then some .malformed
  else if d.length < 2 + (byteAt d 1).toNat + 1 then none
  else if byteAt d (2 + (byteAt d 1).toNat) = 0 then some .malformed
  else if d.length < authFrameLen d then none
  else if usz ≤ (byteAt d 1).toNat then some .oversized
  else some (.valid ((d.drop 2).take (byteAt d 1).toNat)
    ((d.drop (2 + (byteAt d 1).toNat + 1)).take (byteAt d (2 + (byteAt d 1).toNat)).toNat))

/-- A SOCKS5 request. -/
inductive SocksRequest where
  | refused (rep : UInt8)
  | target (t : PpTarget)
deriving DecidableEq, Repr

def ppSocksAddress (d : List UInt8) : Option SocksRequest :=
  if byteAt d 3 = 1 then
    if d.length < 10 then none
    else
      some (.target { PpTarget.zero with
        af := .v4, ip4 := (d.drop 4).take 4, port := be16 (byteAt d 8) (byteAt d 9) })
  else if byteAt d 3 = 4 then
    if d.length < 22 then none
    else
      some (.target { PpTarget.zero with
        af := .v6, ip6 := (d.drop 4).take 16, port := be16 (byteAt d 20) (byteAt d 21) })
  else if byteAt d 3 = 3 then
    if d.length < 5 then none
    else if (byteAt d 4).toNat = 0 then some (.refused 8)
    else if d.length < 5 + (byteAt d 4).toNat + 2 then none
    else
      some (.target { PpTarget.zero with
        host := (d.drop 5).take (byteAt d 4).toNat,
        port := be16 (byteAt d (5 + (byteAt d 4).toNat)) (byteAt d (6 + (byteAt d 4).toNat)) })
  else some (.refused 8)

def ppSocksRequest (d : List UInt8) : Option SocksRequest :=
  if d.length < 4 then none
  else if byteAt d 0 ≠ 5 then some (.refused 1)
  else if byteAt d 1 ≠ 1 then some (.refused 7)
  else if byteAt d 2 ≠ 0 then some (.refused 7)
  else ppSocksAddress d

section

open Incremental

theorem ppSocksGreeting_stable (haveToken : Bool) :
    Stable fun d => ppSocksGreeting d haveToken := by
  unfold ppSocksGreeting
  apply StableOn.stable
  apply StableOn.await (fun _ _ _ => rfl)
  apply StableOn.choose
  · rintro d more ⟨_, head⟩
    dsimp only
    rw [byteAt_append d more (by omega)]
  · exact fun _ _ _ _ absent => nomatch absent
  · apply StableOn.await
    · rintro d more ⟨_, head⟩
      dsimp only
      rw [byteAt_append d more (by omega)]
    · apply SettledOn.judgement
      rintro d more ⟨⟨_, head⟩, whole⟩
      dsimp only
      rw [byteAt_append d more (by omega), field_append d more whole]

variable {d : List UInt8}

theorem ppSocksGreeting_judged {haveToken : Bool} {method : UInt8}
    (judged : ppSocksGreeting d haveToken = some method) :
    byteAt d 0 = 5 ∧ 2 + (byteAt d 1).toNat ≤ d.length ∧
      method = socksMethod haveToken ((d.drop 2).take (byteAt d 1).toNat) := by
  unfold ppSocksGreeting at judged
  split at judged
  · cases judged
  · split at judged
    · cases judged
    · rename_i version
      split at judged
      · cases judged
      · exact ⟨Decidable.not_not.mp version, by omega, (Option.some.inj judged).symm⟩

theorem ppSocksGreeting_of_whole (haveToken : Bool) (version : byteAt d 0 = 5)
    (whole : 2 + (byteAt d 1).toNat ≤ d.length) :
    ppSocksGreeting d haveToken =
      some (socksMethod haveToken ((d.drop 2).take (byteAt d 1).toNat)) := by
  rw [ppSocksGreeting, if_neg (by omega), if_neg (fun other => other version), if_neg (by omega)]

theorem ppSocksGreeting_of_short (haveToken : Bool)
    (short : d.length < 2 + (byteAt d 1).toNat) : ppSocksGreeting d haveToken = none := by
  rw [ppSocksGreeting, if_pos short, ite_self, ite_self]

theorem ppSocksAuthFrame_stable (usz : Nat) : Stable fun d => ppSocksAuthFrame d usz := by
  unfold ppSocksAuthFrame
  apply StableOn.stable
  apply StableOn.await (fun _ _ _ => rfl)
  apply StableOn.choose
  · rintro d more ⟨_, head⟩
    dsimp only
    rw [byteAt_append d more (by omega), byteAt_append d more (by omega)]
  · exact SettledOn.judgement fun _ _ _ => rfl
  · apply StableOn.await
    · rintro d more ⟨_, head⟩
      dsimp only
      rw [byteAt_append d more (by omega)]
    · apply StableOn.choose
      · rintro d more ⟨⟨_, head⟩, named⟩
        dsimp only
        rw [byteAt_append d more (show 1 < d.length by omega), byteAt_append d more (by omega)]
      · exact SettledOn.judgement fun _ _ _ => rfl
      · apply StableOn.await
        · rintro d more ⟨⟨_, head⟩, named⟩
          unfold authFrameLen
          rw [byteAt_append d more (show 1 < d.length by omega), byteAt_append d more (by omega)]
        · apply SettledOn.judgement
          rintro d more ⟨⟨⟨_, head⟩, named⟩, whole⟩
          dsimp only
          unfold authFrameLen at whole
          rw [byteAt_append d more (show 1 < d.length by omega), byteAt_append d more (by omega),
            field_append d more (by omega), field_append d more (by omega)]

theorem authFrameLen_append (more : List UInt8)
    (fits : authFrameLen d ≤ d.length) : authFrameLen (d ++ more) = authFrameLen d := by
  unfold authFrameLen at fits ⊢
  rw [byteAt_append d more (show 1 < d.length by omega), byteAt_append d more (by omega)]

theorem ppSocksAuthFrame_valid {usz : Nat} {user pass : List UInt8}
    (judged : ppSocksAuthFrame d usz = some (.valid user pass)) :
    byteAt d 0 = 1 ∧ byteAt d 1 ≠ 0 ∧ byteAt d (2 + (byteAt d 1).toNat) ≠ 0 ∧
      authFrameLen d ≤ d.length ∧ (byteAt d 1).toNat < usz ∧
      user = (d.drop 2).take (byteAt d 1).toNat ∧
      pass = (d.drop (2 + (byteAt d 1).toNat + 1)).take
        (byteAt d (2 + (byteAt d 1).toNat)).toNat := by
  unfold ppSocksAuthFrame at judged
  split at judged
  · cases judged
  · split at judged
    · cases judged
    · rename_i head
      split at judged
      · cases judged
      · split at judged
        · cases judged
        · rename_i given
          split at judged
          · cases judged
          · rename_i whole
            split at judged
            · cases judged
            · rename_i fits
              obtain ⟨rfl, rfl⟩ := AuthFrame.valid.inj (Option.some.inj judged)
              rw [not_or, Decidable.not_not] at head
              exact ⟨head.1, head.2, given, by omega, by omega, rfl, rfl⟩

theorem ppSocksAuthFrame_fits {usz : Nat} {user pass : List UInt8}
    (judged : ppSocksAuthFrame d usz = some (.valid user pass)) :
    authFrameLen d ≤ d.length ∧
      pass.length = (byteAt d (2 + (byteAt d 1).toNat)).toNat := by
  obtain ⟨_, _, _, whole, _, _, rfl⟩ := ppSocksAuthFrame_valid judged
  refine ⟨whole, ?_⟩
  unfold authFrameLen at whole
  rw [List.length_take, List.length_drop]
  omega

theorem ppSocksAddress_stable : StableOn (fun d => 4 ≤ d.length) ppSocksAddress := by
  have atyp (v : UInt8) : SettledOn (fun d => 4 ≤ d.length) fun d => byteAt d 3 = v := by
    intro d more head
    dsimp only
    rw [byteAt_append d more (by omega)]
  unfold ppSocksAddress
  apply StableOn.choose (atyp 1)
  · apply StableOn.await (fun _ _ _ => rfl)
    apply SettledOn.judgement
    rintro d more ⟨_, whole⟩
    dsimp only
    rw [field_append d more (by omega), byteAt_append d more (by omega),
      byteAt_append d more (by omega)]
  · apply StableOn.choose (atyp 4)
    · apply StableOn.await (fun _ _ _ => rfl)
      apply SettledOn.judgement
      rintro d more ⟨_, whole⟩
      dsimp only
      rw [field_append d more (by omega), byteAt_append d more (by omega),
        byteAt_append d more (by omega)]
    · apply StableOn.choose (atyp 3)
      · apply StableOn.await (fun _ _ _ => rfl)
        apply StableOn.choose
        · rintro d more ⟨_, sized⟩
          dsimp only
          rw [byteAt_append d more (by omega)]
        · exact SettledOn.judgement fun _ _ _ => rfl
        · apply StableOn.await
          · rintro d more ⟨_, sized⟩
            dsimp only
            rw [byteAt_append d more (by omega)]
          · apply SettledOn.judgement
            rintro d more ⟨⟨_, sized⟩, whole⟩
            dsimp only
            rw [byteAt_append d more (show 4 < d.length by omega), field_append d more (by omega),
              byteAt_append d more (by omega), byteAt_append d more (by omega)]
      · exact SettledOn.judgement fun _ _ _ => rfl

theorem ppSocksRequest_stable : Stable ppSocksRequest := by
  unfold ppSocksRequest
  apply StableOn.stable
  apply StableOn.await (fun _ _ _ => rfl)
  have refuse {ready : List UInt8 → Prop} (rep : UInt8) :
      StableOn ready fun _ => some (SocksRequest.refused rep) :=
    SettledOn.judgement fun _ _ _ => rfl
  have byte (i : Nat) (v : UInt8) (inside : i < 4) :
      SettledOn (fun d : List UInt8 => True ∧ 4 ≤ d.length) fun d => byteAt d i ≠ v := by
    rintro d more ⟨_, head⟩
    dsimp only
    rw [byteAt_append d more (by omega)]
  apply StableOn.choose (byte 0 5 (by omega)) (refuse 1)
  apply StableOn.choose (byte 1 1 (by omega)) (refuse 7)
  apply StableOn.choose (byte 2 0 (by omega)) (refuse 7)
  intro d more v head judged
  exact ppSocksAddress_stable d more v head.2 judged

def socksRequestEnd (d : List UInt8) : Nat :=
  if byteAt d 3 = 1 then 10 else if byteAt d 3 = 4 then 22 else 5 + (byteAt d 4).toNat + 2

theorem socksRequestEnd_append (more : List UInt8)
    (fits : socksRequestEnd d ≤ d.length) : socksRequestEnd (d ++ more) = socksRequestEnd d := by
  have head : 5 ≤ socksRequestEnd d := by
    unfold socksRequestEnd
    split
    · omega
    · split <;> omega
  unfold socksRequestEnd
  rw [byteAt_append d more (by omega), byteAt_append d more (by omega)]

theorem ppSocksRequest_judged {t : PpTarget} (judged : ppSocksRequest d = some (.target t)) :
    byteAt d 0 = 5 ∧ byteAt d 1 = 1 ∧ byteAt d 2 = 0 ∧
      (byteAt d 3 = 1 ∧ 10 ≤ d.length ∧
          t = { PpTarget.zero with
            af := .v4, ip4 := (d.drop 4).take 4, port := be16 (byteAt d 8) (byteAt d 9) } ∨
        byteAt d 3 = 4 ∧ 22 ≤ d.length ∧
          t = { PpTarget.zero with
            af := .v6, ip6 := (d.drop 4).take 16, port := be16 (byteAt d 20) (byteAt d 21) } ∨
        byteAt d 3 = 3 ∧ (byteAt d 4).toNat ≠ 0 ∧ 5 + (byteAt d 4).toNat + 2 ≤ d.length ∧
          t = { PpTarget.zero with
            host := (d.drop 5).take (byteAt d 4).toNat,
            port := be16 (byteAt d (5 + (byteAt d 4).toNat))
              (byteAt d (6 + (byteAt d 4).toNat)) }) := by
  unfold ppSocksRequest at judged
  split at judged
  · cases judged
  · split at judged
    · cases judged
    · rename_i version
      split at judged
      · cases judged
      · rename_i command
        split at judged
        · cases judged
        · rename_i reserved
          refine ⟨Decidable.not_not.mp version, Decidable.not_not.mp command,
            Decidable.not_not.mp reserved, ?_⟩
          unfold ppSocksAddress at judged
          split at judged
          · rename_i ipv4
            split at judged
            · cases judged
            · exact .inl ⟨ipv4, by omega, (SocksRequest.target.inj (Option.some.inj judged)).symm⟩
          · split at judged
            · rename_i ipv6
              split at judged
              · cases judged
              · exact .inr (.inl
                  ⟨ipv6, by omega, (SocksRequest.target.inj (Option.some.inj judged)).symm⟩)
            · split at judged
              · rename_i named
                split at judged
                · cases judged
                · split at judged
                  · cases judged
                  · rename_i nonempty
                    split at judged
                    · cases judged
                    · exact .inr (.inr ⟨named, nonempty, by omega,
                        (SocksRequest.target.inj (Option.some.inj judged)).symm⟩)
              · cases judged

theorem ppSocksRequest_target {t : PpTarget} (judged : ppSocksRequest d = some (.target t)) :
    socksRequestEnd d ≤ d.length ∧
      (t.af = .v4 ∧ socksRequestEnd d = 10 ∨ t.af = .v6 ∧ socksRequestEnd d = 22 ∨
        t.af = .domain ∧ socksRequestEnd d = 5 + (byteAt d 4).toNat + 2) := by
  unfold socksRequestEnd
  rcases (ppSocksRequest_judged judged).2.2.2 with
    ⟨ipv4, whole, rfl⟩ | ⟨ipv6, whole, rfl⟩ | ⟨named, _, whole, rfl⟩
  · rw [if_pos ipv4]
    exact ⟨whole, .inl ⟨rfl, rfl⟩⟩
  · rw [ipv6]
    exact ⟨whole, .inr (Or.inl ⟨rfl, rfl⟩)⟩
  · rw [named]
    exact ⟨whole, .inr (Or.inr ⟨rfl, rfl⟩)⟩

theorem httpMethods_prefixFree :
    ∀ a ∈ httpMethods, ∀ b ∈ httpMethods, a <+: b → a = b := by decide

theorem httpMethods_begun :
    ∀ method ∈ httpMethods, ∀ n < method.length, 0 < n → httpMethodBegun (method.take n) := by
  decide

def httpMethodOf (d : List UInt8) : Option (List UInt8) :=
  httpMethods.find? fun method => method.length ≤ d.length ∧ d.take method.length = method

theorem httpMethodOf_iff {method : List UInt8} :
    httpMethodOf d = some method ↔ method ∈ httpMethods ∧ method <+: d := by
  have test (m : List UInt8) :
      decide (m.length ≤ d.length ∧ d.take m.length = m) = true ↔ m <+: d := by
    rw [decide_eq_true_iff, List.prefix_iff_eq_take]
    constructor
    · exact fun same => same.2.symm
    · intro same
      refine ⟨?_, same.symm⟩
      have size := congrArg List.length same
      rw [List.length_take] at size
      omega
  constructor
  · intro found
    have chosen := List.find?_some found
    exact ⟨List.mem_of_find?_eq_some found, (test method).mp chosen⟩
  · rintro ⟨known, starts⟩
    cases found : httpMethodOf d with
    | none => exact absurd ((test method).mpr starts) (List.find?_eq_none.mp found method known)
    | some other =>
      have chosen := List.find?_some found
      have starts' := (test other).mp chosen
      have known' := List.mem_of_find?_eq_some found
      rcases List.prefix_or_prefix_of_prefix starts starts' with shorter | shorter
      · rw [httpMethods_prefixFree method known other known' shorter]
      · rw [httpMethods_prefixFree other known' method known shorter]

theorem ppHttpProbe_eq (d : List UInt8) (nonempty : d ≠ []) :
    ppHttpProbe d =
      match httpMethodOf d with
      | some method =>
          if method.length < d.length ∧ byteAt d method.length = 0x20 then .http
          else if d.length = method.length then .wait
          else .other
      | none => if httpMethodBegun d then .wait else .other := by
  rw [ppHttpProbe, if_neg (fun empty => nonempty (List.length_eq_zero_iff.mp empty))]
  rfl

theorem httpMethodBegun_of_append {more : List UInt8} (nonempty : d ≠ [])
    (begun : httpMethodBegun (d ++ more)) : httpMethodBegun d := by
  have some_byte := List.length_pos_of_ne_nil nonempty
  unfold httpMethodBegun at begun ⊢
  rw [decide_eq_true_iff, byteAt_append d more some_byte, List.length_append] at begun
  rw [decide_eq_true_iff]
  have shorter {n : Nat} (short : d.length + more.length < n) : d.length < n := by omega
  rcases begun with c | o | d' | g | h | pt
  · exact .inl ⟨c.1, shorter c.2⟩
  · exact .inr (.inl ⟨o.1, shorter o.2⟩)
  · exact .inr (.inr (.inl ⟨d'.1, shorter d'.2⟩))
  · exact .inr (.inr (.inr (.inl ⟨g.1, shorter g.2⟩)))
  · exact .inr (.inr (.inr (.inr (.inl ⟨h.1, shorter h.2⟩))))
  · exact .inr (.inr (.inr (.inr (.inr ⟨pt.1, shorter pt.2⟩))))

theorem ppHttpProbe_append (more : List UInt8)
    (decided : ppHttpProbe d ≠ .wait) : ppHttpProbe (d ++ more) = ppHttpProbe d := by
  have nonempty : d ≠ [] := by
    rintro rfl
    exact decided rfl
  have nonempty' : d ++ more ≠ [] := List.append_ne_nil_of_left_ne_nil nonempty more
  rw [ppHttpProbe_eq d nonempty] at decided ⊢
  rw [ppHttpProbe_eq _ nonempty']
  cases found : httpMethodOf d with
  | some method =>
    obtain ⟨known, starts⟩ := httpMethodOf_iff.mp found
    have found' : httpMethodOf (d ++ more) = some method :=
      httpMethodOf_iff.mpr ⟨known, starts.trans (List.prefix_append d more)⟩
    rw [found] at decided
    rw [found']
    have size := starts.length_le
    dsimp only at decided ⊢
    by_cases whole : d.length = method.length
    · rw [if_neg (by omega), if_pos whole] at decided
      exact absurd rfl decided
    · rw [byteAt_append d more (by omega), List.length_append, if_neg whole,
        if_neg (show ¬ d.length + more.length = method.length by omega)]
      exact if_congr (and_congr_left fun _ => by omega) rfl rfl
  | none =>
    rw [found] at decided
    dsimp only at decided ⊢
    have finished : ¬ httpMethodBegun d := fun begun => decided (if_pos begun)
    cases found' : httpMethodOf (d ++ more) with
    | none =>
      dsimp only
      rw [if_neg finished,
        if_neg fun begun => finished (httpMethodBegun_of_append nonempty begun)]
    | some method =>
      -- the buffer would be an unfinished name, and the probe would have waited
      obtain ⟨known, starts⟩ := httpMethodOf_iff.mp found'
      rcases List.prefix_or_prefix_of_prefix starts (List.prefix_append d more)
        with whole | part
      · rw [httpMethodOf_iff.mpr ⟨known, whole⟩] at found
        cases found
      · have cut := List.prefix_iff_eq_take.mp part
        have shorter : d.length < method.length := by
          refine Nat.lt_of_le_of_ne part.length_le ?_
          intro same
          rw [httpMethodOf_iff.mpr ⟨known,
            part.eq_of_length same ▸ List.prefix_refl d⟩] at found
          cases found
        have begun := httpMethods_begun method known d.length shorter
          (List.length_pos_of_ne_nil nonempty)
        rw [← cut] at begun
        exact absurd begun finished

theorem ppHttpProbe_http (probed : ppHttpProbe d = .http) :
    ∃ method ∈ httpMethods, method <+: d ∧ method.length < d.length ∧
      byteAt d method.length = 0x20 := by
  have nonempty : d ≠ [] := by
    rintro rfl
    cases probed
  rw [ppHttpProbe_eq d nonempty] at probed
  cases found : httpMethodOf d with
  | some method =>
    obtain ⟨known, starts⟩ := httpMethodOf_iff.mp found
    rw [found] at probed
    dsimp only at probed
    split at probed
    · rename_i delimited
      exact ⟨method, known, starts, delimited⟩
    · split at probed <;> cases probed
  | none =>
    rw [found] at probed
    dsimp only at probed
    split at probed <;> cases probed

end

end Iwan
