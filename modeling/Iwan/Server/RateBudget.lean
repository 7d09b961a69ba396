import Iwan.Time
import Iwan.Lib.Decimal
import Iwan.Lib.Quota
import Iwan.Server.Buckets

/- What a source can spend (server_rate.c): the limits, the calls as a run. -/
namespace Iwan

def rateLimitParseLoop : List UInt8 → UInt64 → Option UInt64
  | [], v => some v
  | p :: rest, v =>
    if p < 0x30 ∨ 0x39 < p then none
    else
      let d := (p - 0x30).toUInt64
      if (65535 - d) / 10 < v then none else rateLimitParseLoop rest (v * 10 + d)

def rateLimitParse (s : List UInt8) : Option UInt32 :=
  if s = [] then none
  else
    match rateLimitParseLoop s 0 with
    | none => none
    | some v => if v = 0 then none else some v.toUInt32

def rateLimitEnv (getenv : List UInt8 → Option (List UInt8)) (name : List UInt8) (dflt : UInt32) :
    UInt32 :=
  match getenv name with
  | none => dflt
  | some v => (rateLimitParse v).getD dflt

def serverRateLimitsInit (getenv : List UInt8 → Option (List UInt8)) : RateLimits where
  openMax := rateLimitEnv getenv (ascii "IWAN_RATE_OPEN_MAX") RateLimits.default.openMax
  echoMax := rateLimitEnv getenv (ascii "IWAN_RATE_ECHO_MAX") RateLimits.default.echoMax
  missMax := rateLimitEnv getenv (ascii "IWAN_RATE_MISS_MAX") RateLimits.default.missMax
  tokbadMax := rateLimitEnv getenv (ascii "IWAN_RATE_TOKBAD_MAX") RateLimits.default.tokbadMax
  closeMax := rateLimitEnv getenv (ascii "IWAN_RATE_CLOSE_MAX") RateLimits.default.closeMax
  throttleMs := rateLimitEnv getenv (ascii "IWAN_SRV_THROTTLE_MS") RateLimits.default.throttleMs

/-- What is counted. -/
inductive RateMeter where
  | opens
  | pings
  | echoes
  | mismatch (kind : MismatchKind)
deriving DecidableEq, Repr

def RateMeter.ofType : FrameType → Option RateMeter
  | .ptOpen => some .opens
  | .ptPingReq => some .pings
  | .ptEchoReq => some .echoes
  | _ => none

def RateMeter.isControl : RateMeter → Bool
  | .mismatch _ => false
  | _ => true

def RateMeter.count (b : RateBucket) : RateMeter → UInt32
  | .opens => b.openCnt
  | .pings => b.pingCnt
  | .echoes => b.echoCnt
  | .mismatch kind => kind.count b

def RateMeter.bump (b : RateBucket) : RateMeter → RateBucket
  | .opens => { b with openCnt := b.openCnt + 1 }
  | .pings => { b with pingCnt := b.pingCnt + 1 }
  | .echoes => { b with echoCnt := b.echoCnt + 1 }
  | .mismatch kind => kind.bump b

def RateMeter.limit (limits : RateLimits) : RateMeter → UInt32
  | .opens => limits.openMax
  | .pings => limits.echoMax
  | .echoes => limits.echoMax
  | .mismatch kind => kind.limit limits

section

open Decimal

theorem rateLimitParseLoop_toNat (s : List UInt8) (v : UInt64) :
    (rateLimitParseLoop s v).map UInt64.toNat = bounded 65535 s v.toNat :=
  @guarded_toNat 65535 _ (by decide) (fun _ => rfl) (fun _ _ _ => rfl) s v

theorem rateLimitParse_eq_some {s : List UInt8} {n : UInt32} :
    rateLimitParse s = some n ↔ Run s ∧ value s = n.toNat ∧ 1 ≤ n.toNat ∧ n.toNat ≤ 65535 := by
  have accept := @run_value 65535 s n.toNat
  rw [← UInt64.toNat_zero, ← rateLimitParseLoop_toNat] at accept
  have rest : Run s ∧ value s = n.toNat ∧ 1 ≤ n.toNat ∧ n.toNat ≤ 65535 ↔
      (Run s ∧ value s = n.toNat ∧ n.toNat ≤ 65535) ∧ 1 ≤ n.toNat := by
    constructor
    · intro all
      exact ⟨⟨all.1, all.2.1, all.2.2.2⟩, all.2.2.1⟩
    · intro all
      exact ⟨all.1.1, all.1.2.1, all.2, all.1.2.2⟩
  rw [rest, ← accept]
  unfold rateLimitParse
  by_cases empty : s = []
  · simp [empty]
  rw [if_neg empty]
  have bound := rateLimitParseLoop_toNat s 0
  cases loop : rateLimitParseLoop s 0 with
  | none => simp
  | some v =>
    rw [loop] at bound
    have low := (bounded_eq_some (Nat.zero_le _)).mp bound.symm
    have narrow : v.toUInt32.toNat = v.toNat := by
      rw [UInt64.toNat_toUInt32]
      omega
    by_cases zero : v = 0
    · simp [zero, empty]
      omega
    · have positive : v.toNat ≠ 0 := fun same => zero (UInt64.toNat_inj.mp same)
      simp only [if_neg zero, Option.some.injEq, ← UInt32.toNat_inj, narrow, Option.map_some,
        empty, ne_eq, not_false_eq_true, true_and]
      omega

theorem rateLimitParse_range {s : List UInt8} {n : UInt32} (parsed : rateLimitParse s = some n) :
    1 ≤ n.toNat ∧ n.toNat ≤ 65535 :=
  (rateLimitParse_eq_some.mp parsed).2.2

theorem rateLimitEnv_range (getenv : List UInt8 → Option (List UInt8)) (name : List UInt8)
    (dflt : UInt32) (low : 1 ≤ dflt.toNat) (high : dflt.toNat ≤ 65535) :
    1 ≤ (rateLimitEnv getenv name dflt).toNat ∧
      (rateLimitEnv getenv name dflt).toNat ≤ 65535 := by
  unfold rateLimitEnv
  split
  · exact ⟨low, high⟩
  · rename_i v _
    cases parsed : rateLimitParse v with
    | none => exact ⟨low, high⟩
    | some n => exact rateLimitParse_range parsed

theorem serverRateLimitsInit_range (getenv : List UInt8 → Option (List UInt8)) (m : RateMeter) :
    1 ≤ (m.limit (serverRateLimitsInit getenv)).toNat ∧
      (m.limit (serverRateLimitsInit getenv)).toNat ≤ 65535 := by
  cases m with
  | mismatch kind =>
    cases kind <;> exact rateLimitEnv_range getenv _ _ (by decide) (by decide)
  | _ => exact rateLimitEnv_range getenv _ _ (by decide) (by decide)

end

section

variable (b : RateBucket) (m : RateMeter)

@[simp] theorem bump_ip : (m.bump b).ip = b.ip := by
  cases m with
  | mismatch kind => cases kind <;> rfl
  | _ => rfl

@[simp] theorem bump_win : (m.bump b).win = b.win := by
  cases m with
  | mismatch kind => cases kind <;> rfl
  | _ => rfl

theorem count_bump : m.count (m.bump b) = m.count b + 1 := by
  cases m with
  | mismatch kind => cases kind <;> rfl
  | _ => rfl

theorem count_bump_other (m' : RateMeter) (other : m' ≠ m) : m.count (m'.bump b) = m.count b := by
  cases m with
  | mismatch kind =>
    cases m' with
    | mismatch kind' =>
      have apart : kind' ≠ kind := fun same => other (congrArg RateMeter.mismatch same)
      cases kind <;> cases kind' <;> first | rfl | exact absurd rfl apart
    | _ => cases kind <;> rfl
  | _ =>
    cases m' with
    | mismatch kind' => cases kind' <;> rfl
    | _ => first | rfl | exact absurd rfl other

theorem spent_of_count (counted : m.count b ≠ 0) : b.Spent := by
  intro nothing
  apply counted
  cases m with
  | opens => exact nothing.1
  | pings => exact nothing.2.1
  | echoes => exact nothing.2.2.1
  | mismatch kind =>
    cases kind with
    | miss => exact nothing.2.2.2.1
    | tokbad => exact nothing.2.2.2.2.1
    | close => exact nothing.2.2.2.2.2

theorem count_fresh (ip : UInt32) (now : UInt64) : m.count (RateBucket.fresh ip now) = 0 := by
  cases m with
  | mismatch kind => cases kind <;> rfl
  | _ => rfl

end

/-- A call of one of the four functions, with the clock's value. -/
inductive RateCall where
  | control (ip : UInt32) (typ : Option FrameType) (now : NowMs)
  | mismatch (kind : MismatchKind) (ip : UInt32) (now : NowMs)

def RateCall.ip : RateCall → UInt32
  | .control ip _ _ => ip
  | .mismatch _ ip _ => ip

def RateCall.now : RateCall → NowMs
  | .control _ _ now => now
  | .mismatch _ _ now => now

def RateCall.time (c : RateCall) : Nat := c.now.time

def RateCall.meter : RateCall → Option RateMeter
  | .control _ typ _ => typ.bind RateMeter.ofType
  | .mismatch kind _ _ => some (.mismatch kind)

def RateCall.ask (r : RateState) : RateCall → RateState × Bool
  | .control ip typ now => serverRateAllowControl r ip typ now.ms
  | .mismatch kind ip now => serverRateAllowMismatch kind r ip now.ms now.ms

def rateStep (r : RateState) (c : RateCall) : RateState × List Bool :=
  ((c.ask r).1, [(c.ask r).2])

def rateGranted (m : RateMeter) (ip : UInt32) (r : RateState) (c : RateCall) : Bool :=
  c.meter = some m && c.ip = ip && (c.ask r).2

def RateCall.bucket (r : RateState) (c : RateCall) : RateBucket :=
  RateBucket.entered c.ip c.now.ms (r.held c.ip)

/-- What a request to the rate limiter can do. -/
inductive Asked (r : RateState) (c : RateCall) : RateState → Bool → Prop
  | free (unmetered : c.meter = none) : Asked r c r true
  | gated (kind : MismatchKind) (metered : c.meter = some (.mismatch kind))
      (closed : rateGateCheck (r.gates kind (rateGateSlot c.ip)) c.ip c.now.ms = true) :
      Asked r c r false
  | admitted (m : RateMeter) (r' : RateState) (metered : c.meter = some m)
      (control : m.isControl = true) (room : m.count (c.bucket r) < m.limit r.limits)
      (shards : r'.shards =
        (r.setBucket (rateIpShard c.ip) (r.find c.ip) (m.bump (c.bucket r))).shards)
      (gates : r'.gates = (rateBucketEnter r c.ip c.now.ms).1.gates)
      (limits : r'.limits = r.limits) : Asked r c r' true
  | refused (m : RateMeter) (r' : RateState) (metered : c.meter = some m)
      (control : m.isControl = true) (full : m.limit r.limits ≤ m.count (c.bucket r))
      (shards : r'.shards = (r.setBucket (rateIpShard c.ip) (r.find c.ip) (c.bucket r)).shards)
      (gates : r'.gates = (rateBucketEnter r c.ip c.now.ms).1.gates)
      (limits : r'.limits = r.limits) : Asked r c r' false
  | counted (kind : MismatchKind) (r' : RateState) (metered : c.meter = some (.mismatch kind))
      (opened : rateGateCheck (r.gates kind (rateGateSlot c.ip)) c.ip c.now.ms = false)
      (room : kind.count (kind.bump (c.bucket r)) ≤ kind.limit r.limits)
      (shards : r'.shards =
        (r.setBucket (rateIpShard c.ip) (r.find c.ip) (kind.bump (c.bucket r))).shards)
      (gates : r'.gates = (rateBucketEnter r c.ip c.now.ms).1.gates)
      (limits : r'.limits = r.limits) : Asked r c r' true
  | overrun (kind : MismatchKind) (r' : RateState) (metered : c.meter = some (.mismatch kind))
      (opened : rateGateCheck (r.gates kind (rateGateSlot c.ip)) c.ip c.now.ms = false)
      (full : ¬ kind.count (kind.bump (c.bucket r)) ≤ kind.limit r.limits)
      (shards : r'.shards =
        (r.setBucket (rateIpShard c.ip) (r.find c.ip) (kind.bump (c.bucket r))).shards)
      (gates : r'.gates = ((rateBucketEnter r c.ip c.now.ms).1.claimGate kind c.ip
        ((c.bucket r).win + rateWindowMs) c.now.ms).gates)
      (limits : r'.limits = r.limits) : Asked r c r' false

section

variable {r : RateState} {c : RateCall}

theorem allowControl_metered (r : RateState) (ip : UInt32) (now : UInt64) (typ : FrameType)
    (m : RateMeter) (metered : RateMeter.ofType typ = some m) :
    serverRateAllowControl r ip (some typ) now =
      let r' := (rateBucketEnter r ip now).1
      let b := r'.shards (rateIpShard ip) (r.find ip)
      if m.limit r'.limits ≤ m.count b then (serverRateDropInc r', false)
      else (r'.setBucket (rateIpShard ip) (r.find ip) (m.bump b), true) := by
  cases typ <;> first | (cases metered; rfl) | exact nomatch metered

theorem allowControl_unmetered (r : RateState) (ip : UInt32) (now : UInt64)
    (typ : Option FrameType) (unmetered : typ.bind RateMeter.ofType = none) :
    serverRateAllowControl r ip typ now = (r, true) := by
  cases typ with
  | none => rfl
  | some typ => cases typ <;> first | rfl | exact nomatch unmetered

theorem allowMismatch_opened (r : RateState) (kind : MismatchKind) (ip : UInt32) (now : UInt64)
    (opened : rateGateCheck (r.gates kind (rateGateSlot ip)) ip now = false) :
    serverRateAllowMismatch kind r ip now now =
      let r' := (rateBucketEnter r ip now).1
      let b := kind.bump (r'.shards (rateIpShard ip) (r.find ip))
      if kind.count b ≤ kind.limit r'.limits then
        (r'.setBucket (rateIpShard ip) (r.find ip) b, true)
      else
        ((r'.setBucket (rateIpShard ip) (r.find ip) b).claimGate kind ip (b.win + rateWindowMs) now,
          false) := by
  unfold serverRateAllowMismatch
  rw [if_neg (by rw [opened]; decide)]
  rfl

theorem ofType_isControl {typ : FrameType} {m : RateMeter}
    (metered : RateMeter.ofType typ = some m) : m.isControl = true := by
  cases typ <;> first | (cases metered; rfl) | exact nomatch metered

theorem enter_bucket (r : RateState) (ip : UInt32) (now : UInt64) :
    (rateBucketEnter r ip now).1.shards (rateIpShard ip) (r.find ip) =
      RateBucket.entered ip now (r.held ip) := by
  rw [enter_shards, setBucket_here]

theorem enter_setBucket (r : RateState) (ip : UInt32) (now : UInt64) (b : RateBucket) :
    ((rateBucketEnter r ip now).1.setBucket (rateIpShard ip) (r.find ip) b).shards =
      (r.setBucket (rateIpShard ip) (r.find ip) b).shards := by
  simp only [RateState.setBucket, enter_shards, Function.update_self, Function.update_idem]

theorem ask_asked (r : RateState) (c : RateCall) : Asked r c (c.ask r).1 (c.ask r).2 := by
  cases c with
  | control ip typ now =>
    unfold RateCall.ask
    dsimp only
    cases meter : typ.bind RateMeter.ofType with
    | none =>
      rw [allowControl_unmetered r ip now.ms typ meter]
      exact .free meter
    | some m =>
      obtain ⟨t, rfl, metered⟩ := Option.bind_eq_some_iff.mp meter
      rw [allowControl_metered r ip now.ms t m metered]
      dsimp only
      rw [enter_bucket, rateBucketEnter_limits]
      split_ifs with full
      · exact .refused m _ meter (ofType_isControl metered) full
          (enter_shards r ip now.ms) rfl (rateBucketEnter_limits r ip now.ms)
      · exact .admitted m _ meter (ofType_isControl metered) (UInt32.not_le.mp full)
          (enter_setBucket r ip now.ms _) rfl (rateBucketEnter_limits r ip now.ms)
  | mismatch kind ip now =>
    unfold RateCall.ask
    dsimp only
    cases gate : rateGateCheck (r.gates kind (rateGateSlot ip)) ip now.ms with
    | true =>
      unfold serverRateAllowMismatch
      rw [if_pos gate]
      exact .gated kind rfl gate
    | false =>
      rw [allowMismatch_opened r kind ip now.ms gate]
      dsimp only
      rw [enter_bucket, rateBucketEnter_limits]
      split_ifs with room
      · exact .counted kind _ rfl gate room (enter_setBucket r ip now.ms _) rfl
          (rateBucketEnter_limits r ip now.ms)
      · refine .overrun kind _ rfl gate room (enter_setBucket r ip now.ms _) ?_
          (rateBucketEnter_limits r ip now.ms)
        have win : (kind.bump (RateBucket.entered ip now.ms (r.held ip))).win =
            (RateBucket.entered ip now.ms (r.held ip)).win :=
          bump_win _ (.mismatch kind)
        rw [win]
        rfl

end

def RateState.seat (r : RateState) (m : RateMeter) (ip : UInt32) : Option MarkWindow :=
  (r.held ip).map fun b => ⟨b.win.toNat, (m.count b).toNat⟩

section

variable {r r' : RateState} {c : RateCall} {ok : Bool} {m : RateMeter} {ip : UInt32}

theorem Asked.writes (asked : Asked r c r' ok) :
    r' = r ∨ ∃ b, b.ip = c.ip ∧
      r'.shards = (r.setBucket (rateIpShard c.ip) (r.find c.ip) b).shards := by
  have named : (c.bucket r).ip = c.ip := entered_ip r c.ip c.now.ms
  cases asked with
  | admitted m _ _ _ _ shards => exact .inr ⟨_, (bump_ip _ m).trans named, shards⟩
  | refused _ _ _ _ _ shards => exact .inr ⟨_, named, shards⟩
  | counted kind _ _ _ _ shards =>
    exact .inr ⟨_, (bump_ip _ (.mismatch kind)).trans named, shards⟩
  | overrun kind _ _ _ _ shards =>
    exact .inr ⟨_, (bump_ip _ (.mismatch kind)).trans named, shards⟩
  | _ => exact .inl rfl

theorem Asked.limits (asked : Asked r c r' ok) : r'.limits = r.limits := by
  cases asked <;> first | rfl | assumption

theorem Asked.seated (asked : Asked r c r' ok) (nonzero : c.ip ≠ 0) (seated : r.Seated ip) :
    r'.Seated ip := by
  rcases asked.writes with rfl | ⟨b, named, shards⟩
  · exact seated
  · by_cases own : c.ip = ip
    · subst own
      exact (seated.setBucket_own b named).congr shards
    · refine (seated.setBucket_other _ _ b ?_ ?_).congr shards
      · rwa [named]
      · rwa [named]

theorem Asked.held_other (asked : Asked r c r' ok) (nonzero : c.ip ≠ 0) (foreign : c.ip ≠ ip)
    (seated : r.Seated ip) :
    r'.held ip = r.held ip ∨ c.meter.isSome ∧ r.Collides c.ip ip ∧ r'.held ip = none := by
  by_cases metered : c.meter.isSome
  · rcases asked.writes with rfl | ⟨b, named, shards⟩
    · exact .inl rfl
    · have held := held_setBucket_other seated (rateIpShard c.ip) (r.find c.ip) b
        (by rwa [named]) (by rwa [named])
      rw [← held_congr shards] at held
      by_cases here : r.Collides c.ip ip
      · exact .inr ⟨metered, here, held.trans (if_pos here)⟩
      · exact .inl (held.trans (if_neg here))
  · cases asked with
    | free => exact .inl rfl
    | _ => simp_all

theorem window_out {win now : UInt64} (opened : win.toNat ≤ now.toNat) :
    rateWindowMs ≤ now - win ↔ win.toNat + rateWindowMs.toNat ≤ now.toNat := by
  rw [UInt64.le_iff_toNat_le, UInt64.toNat_sub_of_le _ _ (UInt64.le_iff_toNat_le.mpr opened)]
  omega

theorem tracks_entered {cap now : Nat} {holds holds' : Nat → Prop} {l : Quota.Ledger}
    (tracks : Quota.Tracks rateWindowMs.toNat cap holds (r.seat m c.ip) l now)
    (later : now ≤ c.time)
    (kept : c.time < l.start + rateWindowMs.toNat → holds (l.start + rateWindowMs.toNat) →
      holds' (l.start + rateWindowMs.toNat)) :
    Quota.Tracks rateWindowMs.toNat cap holds'
      (some ⟨(c.bucket r).win.toNat, (m.count (c.bucket r)).toNat⟩) l c.time := by
  have now' := tracks.later later kept
  have sit : ∀ (out : ∀ w, r.seat m c.ip = some w → w.start + rateWindowMs.toNat ≤ c.time),
      c.bucket r = RateBucket.fresh c.ip c.now.ms →
      Quota.Tracks rateWindowMs.toNat cap holds'
        (some ⟨(c.bucket r).win.toNat, (m.count (c.bucket r)).toNat⟩) l c.time := by
    intro out fresh
    rw [fresh, count_fresh]
    exact now'.sit out
  cases was : r.held c.ip with
  | none =>
    refine sit (fun w seat => ?_) ?_
    · rw [RateState.seat, was] at seat
      exact nomatch seat
    · rw [RateCall.bucket, was]
      rfl
  | some b =>
    have seat : r.seat m c.ip = some ⟨b.win.toNat, (m.count b).toNat⟩ := by
      rw [RateState.seat, was]
      rfl
    have opened : b.win.toNat ≤ c.time := now'.opened _ seat
    by_cases old : rateWindowMs ≤ c.now.ms - b.win
    · refine sit (fun w held => ?_) ?_
      · rw [seat] at held
        obtain rfl := Option.some.inj held
        exact (window_out opened).mp old
      · rw [RateCall.bucket, was, RateBucket.entered, if_pos old]
    · have kept : c.bucket r = b := by rw [RateCall.bucket, was, RateBucket.entered, if_neg old]
      rw [kept, ← seat]
      exact now'

theorem seat_own {b : RateBucket} (named : b.ip = c.ip)
    (shards : r'.shards = (r.setBucket (rateIpShard c.ip) (r.find c.ip) b).shards) :
    r'.seat m c.ip = some ⟨b.win.toNat, (m.count b).toNat⟩ := by
  rw [RateState.seat, held_congr shards, held_setBucket_own b named]
  rfl

theorem Asked.seat_apart (asked : Asked r c r' ok) (apart : c.meter ≠ some m) :
    r' = r ∨ r'.seat m c.ip = some ⟨(c.bucket r).win.toNat, (m.count (c.bucket r)).toNat⟩ := by
  have named : (c.bucket r).ip = c.ip := entered_ip r c.ip c.now.ms
  have bumped : ∀ m', c.meter = some m' →
      r'.shards = (r.setBucket (rateIpShard c.ip) (r.find c.ip) (m'.bump (c.bucket r))).shards →
      r'.seat m c.ip = some ⟨(c.bucket r).win.toNat, (m.count (c.bucket r)).toNat⟩ := by
    intro m' metered shards
    have other : m' ≠ m := fun same => apart (same ▸ metered)
    rw [seat_own ((bump_ip _ m').trans named) shards, bump_win, count_bump_other _ m m' other]
  cases asked with
  | admitted m' _ metered _ _ shards => exact .inr (bumped m' metered shards)
  | refused _ _ _ _ _ shards => exact .inr (seat_own named shards)
  | counted kind _ metered _ _ shards => exact .inr (bumped (.mismatch kind) metered shards)
  | overrun kind _ metered _ _ shards => exact .inr (bumped (.mismatch kind) metered shards)
  | _ => exact .inl rfl

end

/-- The call takes no bucket from the source in which its frames are counted. -/
def RateCall.Spares (m : RateMeter) (ip : UInt32) (r : RateState) (c : RateCall) : Prop :=
  c.meter.isSome → c.ip ≠ ip → r.Collides c.ip ip → ∀ b, r.held ip = some b →
    m.count b = 0 ∨ rateWindowMs ≤ c.now.ms - b.win

/-- The limiter's state for a source follows its ledger. -/
structure ControlFollows (m : RateMeter) (ip : UInt32) (limits : RateLimits) (r : RateState)
    (l : Quota.Ledger) (now : Nat) : Prop where
  configured : r.limits = limits
  seated : r.Seated ip
  tracks : Quota.Tracks rateWindowMs.toNat (m.limit limits).toNat (fun _ => False) (r.seat m ip) l
    now

section

variable {m : RateMeter} {ip : UInt32} {limits : RateLimits}

private theorem control_own {r r' : RateState} {c : RateCall} {ok : Bool} {l : Quota.Ledger}
    {now : Nat} (control : m.isControl = true)
    (follows : ControlFollows m c.ip limits r l now) (later : now ≤ c.time)
    (asked : Asked r c r' ok) (metered : c.meter = some m) :
    if ok then ∃ next, Quota.Grants rateWindowMs.toNat (m.limit limits).toNat l c.time next ∧
      Quota.Tracks rateWindowMs.toNat (m.limit limits).toNat (fun _ => False) (r'.seat m c.ip) next
        c.time
    else Quota.Tracks rateWindowMs.toNat (m.limit limits).toNat (fun _ => False) (r'.seat m c.ip) l
      c.time := by
  have tracks := follows.tracks
  have named : (c.bucket r).ip = c.ip := entered_ip r c.ip c.now.ms
  have entered : Quota.Tracks _ _ (fun _ => False) _ l c.time :=
    tracks_entered tracks later (fun _ held => held)
  -- a mismatch call does not draw on a control counter
  have foreign : ∀ kind, c.meter ≠ some (.mismatch kind) := by
    intro kind mismatch
    obtain rfl := Option.some.inj (metered.symm.trans mismatch)
    exact absurd control Bool.false_ne_true
  cases asked with
  | free unmetered => exact absurd (metered.symm.trans unmetered) (by simp)
  | gated kind mismatch => exact absurd mismatch (foreign kind)
  | admitted m' _ metered' _ room shards =>
    obtain rfl := Option.some.inj (metered.symm.trans metered')
    rw [follows.configured, UInt32.lt_iff_toNat_lt] at room
    have bound := (m.limit limits).toNat_lt
    have succ : (m.count (c.bucket r) + 1).toNat = (m.count (c.bucket r)).toNat + 1 := by
      rw [UInt32.toNat_add]
      exact Nat.mod_eq_of_lt (Nat.lt_of_le_of_lt room bound)
    rw [if_pos rfl, seat_own ((bump_ip _ m).trans named) shards, bump_win, count_bump, succ]
    exact entered.grant (fun held => held.elim) room
  | refused m' _ metered' _ full shards =>
    rw [if_neg (by decide), seat_own named shards]
    exact entered
  | counted kind _ mismatch => exact absurd mismatch (foreign kind)
  | overrun kind _ mismatch => exact absurd mismatch (foreign kind)

theorem control_advance (control : m.isControl = true) (r : RateState) (l : Quota.Ledger)
    (now : Nat) (c : RateCall) (follows : ControlFollows m ip limits r l now)
    (later : now ≤ c.time) (cond : c.ip ≠ 0 ∧ c.Spares m ip r) :
    if rateGranted m ip r c then
      ∃ next, Quota.Grants rateWindowMs.toNat (m.limit limits).toNat l c.time next ∧
        ControlFollows m ip limits (rateStep r c).1 next c.time
    else ControlFollows m ip limits (rateStep r c).1 l c.time := by
  have asked := ask_asked r c
  have limits' := asked.limits.trans follows.configured
  have seated' := asked.seated cond.1 follows.seated
  have waits : Quota.Tracks _ _ (fun _ => False) _ l c.time :=
    follows.tracks.later later (fun _ held => held)
  by_cases own : c.ip = ip
  · subst own
    by_cases metered : c.meter = some m
    · have next := control_own control follows later asked metered
      have granted : rateGranted m c.ip r c = (c.ask r).2 := by
        rw [rateGranted, decide_eq_true metered, decide_eq_true rfl]
        rfl
      rw [granted]
      split_ifs at next ⊢ with ok
      · obtain ⟨l', grants, tracks⟩ := next
        exact ⟨l', grants, limits', seated', tracks⟩
      · exact ⟨limits', seated', next⟩
    · rw [if_neg (by rw [rateGranted, decide_eq_false metered]; exact Bool.false_ne_true)]
      refine ⟨limits', seated', ?_⟩
      rcases asked.seat_apart metered with same | seat
      · rw [rateStep, same]
        exact waits
      · rw [rateStep, seat]
        exact tracks_entered follows.tracks later (fun _ held => held)
  · rw [if_neg (by
      rw [rateGranted, decide_eq_false own, Bool.and_false]
      exact Bool.false_ne_true)]
    refine ⟨limits', seated', ?_⟩
    rcases asked.held_other cond.1 own follows.seated with same | ⟨metered, collides, lost⟩
    · rw [rateStep, RateState.seat, same]
      exact waits
    · rw [rateStep, RateState.seat, lost]
      refine waits.lose fun w seat counted => Or.inl ?_
      obtain ⟨b, held, rfl⟩ := Option.map_eq_some_iff.mp seat
      rcases cond.2 metered own collides b held with zero | old
      · rw [zero] at counted
        exact absurd counted (Nat.lt_irrefl 0)
      · exact (window_out (waits.opened _ seat)).mp old

theorem init_seated (nonzero : ip ≠ 0) : (RateState.init limits).Seated ip :=
  fun _ _ named => absurd named.symm nonzero

theorem init_seat (nonzero : ip ≠ 0) : (RateState.init limits).seat m ip = none := by
  rw [RateState.seat, (held_none (init_seated nonzero)).mpr fun _ _ named => nonzero named.symm]
  rfl

theorem init_tracks {cap : Nat} {holds : Nat → Prop} (nonzero : ip ≠ 0) :
    Quota.Tracks rateWindowMs.toNat cap holds ((RateState.init limits).seat m ip)
      Quota.Ledger.empty 0 := by
  rw [init_seat nonzero]
  exact {
    start_le := Nat.le_refl 0
    last_le := Nat.le_refl 0
    absent := fun _ => Or.inl rfl
    opened := fun _ seat => nomatch seat
    unused := fun _ seat => nomatch seat
    counted := fun _ seat => nomatch seat }

end

/-- While its bucket is not taken by others, a source gets at most twice the limit of a control
frame through in less than 1000 ms. -/
theorem rateRun_controlBudget (getenv : List UInt8 → Option (List UInt8)) (m : RateMeter)
    (control : m.isControl = true) (ip : UInt32) (nonzero : ip ≠ 0) (calls : List RateCall)
    (clocked : Trace.Clocked RateCall.time RateCall.time 0 calls)
    (spared : Trace.Along rateStep (fun r c => c.ip ≠ 0 ∧ c.Spares m ip r)
      (RateState.init (serverRateLimitsInit getenv)) calls)
    (since til : Nat) (short : til < since + rateWindowMs.toNat) :
    Quota.grantsIn rateStep RateCall.time (rateGranted m ip) since til
        (RateState.init (serverRateLimitsInit getenv)) calls ≤
      2 * (m.limit (serverRateLimitsInit getenv)).toNat := by
  have follows : ControlFollows m ip (serverRateLimitsInit getenv)
      (RateState.init (serverRateLimitsInit getenv)) Quota.Ledger.empty 0 :=
    ⟨rfl, init_seated nonzero, init_tracks nonzero⟩
  have bound := Quota.grantsIn_le rateStep RateCall.time (rateGranted m ip) _ _
    (control_advance control) since til short _ _ 0 0 calls follows
    (Quota.Within.empty _ since) clocked spared
  rwa [Nat.zero_add] at bound

def clashSource (k : UInt32) : UInt32 := 244002641 * k

def oneEach : List UInt8 → Option (List UInt8) := fun _ => some (ascii "1")

def NowMs.small (ms : UInt16) : NowMs :=
  ⟨ms.toUInt64, by rw [UInt16.toNat_toUInt64]; have := ms.toNat_lt; omega⟩

def clashOpen (at_ : UInt16) (k : UInt32) : RateCall :=
  .control (clashSource k) (some .ptOpen) (NowMs.small at_)

theorem rateRun_controlBudget_sample :
    let calls := [clashOpen 5 1, clashOpen 6 2, clashOpen 7 1, clashOpen 8 2]
    Quota.grantsIn rateStep RateCall.time (rateGranted .opens (clashSource 1)) 0 999
      (RateState.init (serverRateLimitsInit oneEach)) calls ≤
        2 * (RateMeter.opens.limit (serverRateLimitsInit oneEach)).toNat := by
  refine rateRun_controlBudget oneEach .opens rfl (clashSource 1) (by decide) _ ?_ ?_ 0 999
    (by decide)
  · simp only [Trace.Clocked]
    decide
  · refine ⟨⟨by decide, ?_⟩, ⟨by decide, ?_⟩, ⟨by decide, ?_⟩, ⟨by decide, ?_⟩, trivial⟩
    · exact fun _ other => absurd rfl other
    · intro _ _ collides
      exact absurd collides (by decide +kernel)
    · exact fun _ other => absurd rfl other
    · intro _ _ collides
      exact absurd collides (by decide +kernel)

def evictionCalls : List RateCall :=
  [1, 2, 3, 4, 5, 6, 7, 8, 9, 1, 9, 1].map (clashOpen 5)

theorem evicted_source_refilled :
    Trace.Clocked RateCall.time RateCall.time 0 evictionCalls ∧
      2 * (RateMeter.opens.limit (serverRateLimitsInit oneEach)).toNat <
        Quota.grantsIn rateStep RateCall.time (rateGranted .opens (clashSource 1)) 5 5
          (RateState.init (serverRateLimitsInit oneEach)) evictionCalls := by
  refine ⟨?_, by decide +kernel⟩
  simp only [evictionCalls, List.map, Trace.Clocked]
  decide

/-- The ledger shows what the counter can still grant, and a full counter has its gate. -/
structure MismatchFollows (kind : MismatchKind) (ip : UInt32) (limits : RateLimits)
    (r : RateState) (l : Quota.Ledger) (now : Nat) : Prop where
  configured : r.limits = limits
  seated : r.Seated ip
  tracks : Quota.Tracks rateWindowMs.toNat (kind.limit limits).toNat (r.Gated kind ip)
    (r.seat (.mismatch kind) ip) l now
  capped : ∀ w, r.seat (.mismatch kind) ip = some w → w.count ≤ (kind.limit limits).toNat ∨
    w.count = (kind.limit limits).toNat + 1 ∧
      (w.start + rateWindowMs.toNat ≤ now ∨ r.Gated kind ip (w.start + rateWindowMs.toNat))

section

variable {kind : MismatchKind} {ip : UInt32} {limits : RateLimits} {r r' : RateState}
  {c : RateCall} {ok : Bool} {l : Quota.Ledger} {now : Nat}

theorem Gated.congr {wait : Nat} (gated : r.Gated kind ip wait) (same : r'.gates = r.gates) :
    r'.Gated kind ip wait := by
  unfold RateState.Gated at gated ⊢
  rw [same]
  exact gated

theorem Asked.gates (asked : Asked r c r' ok) :
    r' = r ∨ ∀ kind ip wait, (rateBucketEnter r c.ip c.now.ms).1.Gated kind ip wait → ip ≠ 0 →
      c.time < wait → (c.ip = ip → wait ≤ ((c.bucket r).win + rateWindowMs).toNat) →
        r'.Gated kind ip wait := by
  cases asked with
  | admitted _ _ _ _ _ _ gates => exact .inr fun _ _ _ gated _ _ _ => Gated.congr gated gates
  | refused _ _ _ _ _ _ gates => exact .inr fun _ _ _ gated _ _ _ => Gated.congr gated gates
  | counted _ _ _ _ _ _ gates => exact .inr fun _ _ _ gated _ _ _ => Gated.congr gated gates
  | overrun _ _ _ _ _ _ gates =>
    exact .inr fun _ _ _ gated nonzero early reaches =>
      Gated.congr (gated.claim nonzero early reaches) gates
  | _ => exact .inl rfl

theorem deadline_toNat (now : NowMs) {win : UInt64} (opened : win.toNat ≤ now.time) :
    (win + rateWindowMs).toNat = win.toNat + rateWindowMs.toNat :=
  add_toNat_of_le now win rateWindowMs (UInt64.le_iff_toNat_le.mpr opened) (by decide)

theorem bucket_cases (r : RateState) (c : RateCall)
    (opened : ∀ b, r.held c.ip = some b → b.win.toNat ≤ c.time) :
    c.bucket r = RateBucket.fresh c.ip c.now.ms ∨
      ∃ b, r.held c.ip = some b ∧ c.bucket r = b ∧ c.time < b.win.toNat + rateWindowMs.toNat ∧
        (rateBucketEnter r c.ip c.now.ms).1 = r := by
  rw [RateCall.bucket]
  cases was : r.held c.ip with
  | none => exact .inl rfl
  | some b =>
    unfold RateBucket.entered
    dsimp only
    split_ifs with old
    · exact .inl rfl
    · refine .inr ⟨b, rfl, rfl, ?_, ?_⟩
      · exact Nat.not_le.mp fun past => old ((window_out (opened b was)).mpr past)
      · obtain ⟨here, named⟩ := held_some.mp was
        rw [rateBucketEnter_eq, here]
        exact if_neg fun roll => roll.elim (fun foreign => foreign named) old

theorem Asked.gated_kept {wait : Nat} (asked : Asked r c r' ok) (nonzero : ip ≠ 0)
    (seated : r.Seated ip) (opened : ∀ b, r.held ip = some b → b.win.toNat ≤ c.time)
    (gated : r.Gated kind ip wait) (early : c.time < wait)
    (reaches : ∀ b, r.held ip = some b → wait ≤ b.win.toNat + rateWindowMs.toNat)
    (near : wait ≤ c.time + rateWindowMs.toNat) : r'.Gated kind ip wait := by
  rcases asked.gates with rfl | kept
  · exact gated
  · refine kept kind ip wait ?_ nonzero early ?_
    · refine gated.enter nonzero seated early fun b held => ?_
      rw [deadline_toNat c.now (opened b held)]
      exact reaches b held
    · rintro rfl
      rcases bucket_cases r c opened with fresh | ⟨b, held, same, _, _⟩
      · rw [fresh]
        exact Nat.le_trans near (Nat.le_of_eq (deadline_toNat c.now (Nat.le_refl _)).symm)
      · rw [same, deadline_toNat c.now (opened b held)]
        exact reaches b held

theorem seat_some {m : RateMeter} {w : MarkWindow} :
    r.seat m ip = some w ↔ ∃ b, r.held ip = some b ∧ ⟨b.win.toNat, (m.count b).toNat⟩ = w :=
  Option.map_eq_some_iff

theorem MismatchFollows.opened (follows : MismatchFollows kind ip limits r l now)
    (later : now ≤ c.time) (b : RateBucket) (held : r.held ip = some b) : b.win.toNat ≤ c.time :=
  Nat.le_trans (follows.tracks.opened _ (seat_some.mpr ⟨b, held, rfl⟩)) later

theorem MismatchFollows.kept (follows : MismatchFollows kind ip limits r l now)
    (later : now ≤ c.time) (nonzero : ip ≠ 0) (asked : Asked r c r' ok)
    (early : c.time < l.start + rateWindowMs.toNat)
    (gated : r.Gated kind ip (l.start + rateWindowMs.toNat)) :
    r'.Gated kind ip (l.start + rateWindowMs.toNat) := by
  have first := Nat.le_trans follows.tracks.start_le follows.tracks.last_le
  refine asked.gated_kept nonzero follows.seated (follows.opened later) gated early
    (fun b held => ?_) (by omega)
  have start := follows.tracks.start_le_seat _ (seat_some.mpr ⟨b, held, rfl⟩)
  exact Nat.add_le_add_right start _

theorem MismatchFollows.capped_kept (follows : MismatchFollows kind ip limits r l now)
    (later : now ≤ c.time) (nonzero : ip ≠ 0) (asked : Asked r c r' ok) (w : MarkWindow)
    (seat : r.seat (.mismatch kind) ip = some w) :
    w.count ≤ (kind.limit limits).toNat ∨ w.count = (kind.limit limits).toNat + 1 ∧
      (w.start + rateWindowMs.toNat ≤ c.time ∨
        r'.Gated kind ip (w.start + rateWindowMs.toNat)) := by
  rcases follows.capped w seat with room | ⟨full, past | gated⟩
  · exact .inl room
  · exact .inr ⟨full, .inl (Nat.le_trans past later)⟩
  · refine .inr ⟨full, ?_⟩
    by_cases past : w.start + rateWindowMs.toNat ≤ c.time
    · exact .inl past
    · have start := Nat.le_trans (follows.tracks.opened w seat) later
      obtain ⟨b, held, rfl⟩ := seat_some.mp seat
      refine .inr (asked.gated_kept nonzero follows.seated (follows.opened later) gated
        (Nat.not_le.mp past) (fun b' held' => ?_) (Nat.add_le_add_right start _))
      obtain rfl := Option.some.inj (held.symm.trans held')
      exact Nat.le_refl _

theorem MismatchFollows.bucket_count (follows : MismatchFollows kind c.ip limits r l now)
    (later : now ≤ c.time)
    (opened : rateGateCheck (r.gates kind (rateGateSlot c.ip)) c.ip c.now.ms = false) :
    (kind.count (c.bucket r)).toNat ≤ (kind.limit limits).toNat := by
  rcases bucket_cases r c (follows.opened later) with fresh | ⟨b, held, same, running, _⟩
  · rw [fresh]
    have zero : kind.count (RateBucket.fresh c.ip c.now.ms) = 0 :=
      count_fresh (.mismatch kind) c.ip c.now.ms
    rw [zero]
    exact Nat.zero_le _
  · rw [same]
    rcases follows.capped _ (seat_some.mpr ⟨b, held, rfl⟩) with room | ⟨_, past | gated⟩
    · exact room
    · have now_past : b.win.toNat + rateWindowMs.toNat ≤ c.time := Nat.le_trans past later
      omega
    · rw [gate_check_of_gated gated running] at opened
      exact absurd opened (by decide)

private theorem mismatch_own (bounded : (kind.limit limits).toNat ≤ 65535)
    (positive : 1 ≤ (kind.limit limits).toNat) (nonzero : c.ip ≠ 0)
    (room : (r.gatesTaken kind c.ip c.now.ms).card < rateGateWays)
    (follows : MismatchFollows kind c.ip limits r l now) (later : now ≤ c.time)
    (asked : Asked r c r' ok) (metered : c.meter = some (.mismatch kind))
    (configured : r'.limits = limits) (seated : r'.Seated c.ip) :
    if ok then ∃ next, Quota.Grants rateWindowMs.toNat (kind.limit limits).toNat l c.time next ∧
      MismatchFollows kind c.ip limits r' next c.time
    else MismatchFollows kind c.ip limits r' l c.time := by
  have named : (c.bucket r).ip = c.ip := entered_ip r c.ip c.now.ms
  -- before the verdict the old gates still stand
  have entered : Quota.Tracks _ _ (r.Gated kind c.ip) _ l c.time :=
    tracks_entered follows.tracks later (fun _ held => held)
  have free : rateGateCheck (r.gates kind (rateGateSlot c.ip)) c.ip c.now.ms = false →
      r.Gated kind c.ip (l.start + rateWindowMs.toNat) →
        l.start + rateWindowMs.toNat ≤ c.time := by
    intro opened gated
    by_contra early
    rw [gate_check_of_gated gated (Nat.not_le.mp early)] at opened
    exact absurd opened (by decide)
  have succ : ∀ opened : rateGateCheck (r.gates kind (rateGateSlot c.ip)) c.ip c.now.ms = false,
      (kind.count (c.bucket r) + 1).toNat = (kind.count (c.bucket r)).toNat + 1 := by
    intro opened
    have count := follows.bucket_count later opened
    rw [UInt32.toNat_add]
    exact Nat.mod_eq_of_lt (by have one : (1 : UInt32).toNat = 1 := rfl; omega)
  have bumped : kind.count (kind.bump (c.bucket r)) = kind.count (c.bucket r) + 1 :=
    count_bump _ (.mismatch kind)
  have seat : r'.shards = (r.setBucket (rateIpShard c.ip) (r.find c.ip)
      (kind.bump (c.bucket r))).shards → r'.seat (.mismatch kind) c.ip =
        some ⟨(c.bucket r).win.toNat, (kind.count (kind.bump (c.bucket r))).toNat⟩ := by
    intro shards
    have win : (kind.bump (c.bucket r)).win = (c.bucket r).win := bump_win _ (.mismatch kind)
    have written := seat_own (m := .mismatch kind) ((bump_ip _ (.mismatch kind)).trans named) shards
    rw [bump_win] at written
    exact written
  have capped := follows.capped_kept later nonzero asked
  have kept := follows.kept later nonzero asked
  cases asked with
  | free unmetered => exact absurd (metered.symm.trans unmetered) (by simp)
  | gated =>
    rw [if_neg Bool.false_ne_true]
    exact ⟨configured, seated, follows.tracks.later later (fun _ held => held), capped⟩
  | admitted m _ metered' control =>
    obtain rfl := Option.some.inj (metered.symm.trans metered')
    exact absurd control Bool.false_ne_true
  | refused m _ metered' control =>
    obtain rfl := Option.some.inj (metered.symm.trans metered')
    exact absurd control Bool.false_ne_true
  | counted kind' _ metered' opened fits shards =>
    obtain rfl := RateMeter.mismatch.inj (Option.some.inj (metered.symm.trans metered'))
    rw [follows.configured, bumped, UInt32.le_iff_toNat_le, succ opened] at fits
    rw [if_pos rfl]
    obtain ⟨next, grants, tracks⟩ := entered.grant (free opened) fits
    refine ⟨next, grants, configured, seated, ?_, ?_⟩
    · rw [seat shards, bumped, succ opened]
      exact tracks
    · intro w held
      rw [seat shards, bumped, succ opened] at held
      obtain rfl := Option.some.inj held
      exact .inl fits
  | overrun kind' _ metered' opened full shards gates =>
    obtain rfl := RateMeter.mismatch.inj (Option.some.inj (metered.symm.trans metered'))
    rw [follows.configured, bumped, UInt32.le_iff_toNat_le, succ opened, Nat.not_le] at full
    rw [if_neg Bool.false_ne_true]
    have count := follows.bucket_count later opened
    -- the bucket counts already, so it is the running one and entering it changes nothing
    rcases bucket_cases r c (follows.opened later) with fresh | ⟨b, held, same, running, idle⟩
    · have zero : kind.count (c.bucket r) = 0 := by
        rw [fresh]
        exact count_fresh (.mismatch kind) c.ip c.now.ms
      rw [zero] at full
      have none : (0 : UInt32).toNat = 0 := rfl
      omega
    · have deadline : ((c.bucket r).win + rateWindowMs).toNat =
          (c.bucket r).win.toNat + rateWindowMs.toNat := by
        rw [same]
        exact deadline_toNat c.now (follows.opened later b held)
      have claimed : r'.Gated kind c.ip ((c.bucket r).win.toNat + rateWindowMs.toNat) := by
        rw [← deadline]
        rw [idle] at gates
        exact Gated.congr (claimGate_gated room) gates
      refine ⟨configured, seated, ?_, ?_⟩
      · rw [seat shards, bumped, succ opened]
        have at_cap : (kind.limit limits).toNat ≤ (kind.count (c.bucket r)).toNat := by omega
        exact (entered.refuse at_cap (Nat.lt_of_lt_of_le positive at_cap)).later
          (Nat.le_refl _) kept
      · intro w held
        rw [seat shards, bumped, succ opened] at held
        obtain rfl := Option.some.inj held
        exact .inr ⟨by dsimp only; omega, .inr claimed⟩

theorem MismatchFollows.capped_entered (follows : MismatchFollows kind c.ip limits r l now)
    (later : now ≤ c.time) (nonzero : c.ip ≠ 0) (asked : Asked r c r' ok) (w : MarkWindow)
    (entered : ⟨(c.bucket r).win.toNat, (kind.count (c.bucket r)).toNat⟩ = w) :
    w.count ≤ (kind.limit limits).toNat ∨ w.count = (kind.limit limits).toNat + 1 ∧
      (w.start + rateWindowMs.toNat ≤ c.time ∨
        r'.Gated kind c.ip (w.start + rateWindowMs.toNat)) := by
  subst entered
  rcases bucket_cases r c (follows.opened later) with fresh | ⟨b, held, same, _, _⟩
  · rw [fresh]
    have zero : kind.count (RateBucket.fresh c.ip c.now.ms) = 0 :=
      count_fresh (.mismatch kind) c.ip c.now.ms
    rw [zero]
    exact .inl (Nat.zero_le _)
  · rw [same]
    exact follows.capped_kept later nonzero asked _ (seat_some.mpr ⟨b, held, rfl⟩)

theorem MismatchFollows.lost (follows : MismatchFollows kind ip limits r l now)
    (later : now ≤ c.time) (nonzero : ip ≠ 0) (foreign : c.ip ≠ ip)
    (room : (r.gatesTaken kind ip c.now.ms).card < rateGateWays) (asked : Asked r c r' ok)
    (collides : r.Collides c.ip ip) (gone : r'.held ip = none) (w : MarkWindow)
    (seat : r.seat (.mismatch kind) ip = some w) (counted : 0 < w.count) :
    w.start + rateWindowMs.toNat ≤ c.time ∨ r'.Gated kind ip (w.start + rateWindowMs.toNat) := by
  obtain ⟨b, held, rfl⟩ := seat_some.mp seat
  by_cases past : b.win.toNat + rateWindowMs.toNat ≤ c.time
  · exact .inl past
  · refine .inr ?_
    have opened := follows.opened later b held
    have deadline := deadline_toNat c.now opened
    have running : c.now.ms - b.win < rateWindowMs :=
      UInt64.not_le.mp fun old => past ((window_out opened).mp old)
    have spent : b.Spent := spent_of_count b (.mismatch kind) fun zero => by
      rw [zero] at counted
      exact Nat.lt_irrefl 0 counted
    rcases asked.gates with rfl | kept
    · rw [held] at gone
      exact nomatch gone
    · rw [← deadline]
      refine kept kind ip _ ?_ nonzero ?_ fun own => absurd own foreign
      · exact enter_publishes held foreign nonzero collides running spent
          (by rw [deadline]; exact Nat.not_le.mp past) room
      · rw [deadline]
        exact Nat.not_le.mp past

theorem mismatch_advance (bounded : (kind.limit limits).toNat ≤ 65535)
    (positive : 1 ≤ (kind.limit limits).toNat) (nonzero : ip ≠ 0) (r : RateState)
    (l : Quota.Ledger) (now : Nat) (c : RateCall) (follows : MismatchFollows kind ip limits r l now)
    (later : now ≤ c.time)
    (cond : c.ip ≠ 0 ∧ (r.gatesTaken kind ip c.now.ms).card < rateGateWays) :
    if rateGranted (.mismatch kind) ip r c then
      ∃ next, Quota.Grants rateWindowMs.toNat (kind.limit limits).toNat l c.time next ∧
        MismatchFollows kind ip limits (rateStep r c).1 next c.time
    else MismatchFollows kind ip limits (rateStep r c).1 l c.time := by
  have asked := ask_asked r c
  have configured := asked.limits.trans follows.configured
  have seated := asked.seated cond.1 follows.seated
  have kept := follows.kept later nonzero asked
  have capped := follows.capped_kept later nonzero asked
  have waits := follows.tracks.later later kept
  by_cases own : c.ip = ip
  · subst own
    by_cases metered : c.meter = some (.mismatch kind)
    · have granted : rateGranted (.mismatch kind) c.ip r c = (c.ask r).2 := by
        rw [rateGranted, decide_eq_true metered, decide_eq_true rfl]
        rfl
      rw [granted]
      exact mismatch_own bounded positive nonzero cond.2 follows later asked metered configured
        seated
    · rw [if_neg (by rw [rateGranted, decide_eq_false metered]; exact Bool.false_ne_true)]
      rcases asked.seat_apart metered with same | seat
      · refine ⟨configured, seated, ?_, ?_⟩
        · rw [rateStep, congrArg (RateState.seat · _ _) same]
          exact waits
        · intro w held
          rw [rateStep, congrArg (RateState.seat · _ _) same] at held
          exact capped w held
      · refine ⟨configured, seated, ?_, ?_⟩
        · rw [rateStep, seat]
          exact tracks_entered follows.tracks later kept
        · intro w held
          rw [rateStep, seat] at held
          exact follows.capped_entered later nonzero asked w (Option.some.inj held)
  · rw [if_neg (by
      rw [rateGranted, decide_eq_false own, Bool.and_false]
      exact Bool.false_ne_true)]
    rcases asked.held_other cond.1 own follows.seated with same | ⟨_, collides, gone⟩
    · have seat : (rateStep r c).1.seat (.mismatch kind) ip = r.seat (.mismatch kind) ip := by
        rw [rateStep, RateState.seat, same]
        rfl
      refine ⟨configured, seated, ?_, ?_⟩
      · rw [seat]
        exact waits
      · rw [seat]
        exact capped
    · have seat : (rateStep r c).1.seat (.mismatch kind) ip = none := by
        rw [rateStep, RateState.seat, gone]
        rfl
      refine ⟨configured, seated, ?_, ?_⟩
      · rw [seat]
        exact waits.lose (follows.lost later nonzero own cond.2 asked collides gone)
      · rw [seat]
        exact fun _ held => nomatch held

end

/-- While a way of its gate set is free of others' gates, a source gets at most twice its mismatch
budget in less than 1000 ms, however often its bucket is evicted. -/
theorem rateRun_mismatchBudget (getenv : List UInt8 → Option (List UInt8)) (kind : MismatchKind)
    (ip : UInt32) (nonzero : ip ≠ 0) (calls : List RateCall)
    (clocked : Trace.Clocked RateCall.time RateCall.time 0 calls)
    (room : Trace.Along rateStep
      (fun r c => c.ip ≠ 0 ∧ (r.gatesTaken kind ip c.now.ms).card ≤ 15)
      (RateState.init (serverRateLimitsInit getenv)) calls)
    (since til : Nat) (short : til < since + rateWindowMs.toNat) :
    Quota.grantsIn rateStep RateCall.time (rateGranted (.mismatch kind) ip) since til
        (RateState.init (serverRateLimitsInit getenv)) calls ≤
      2 * (kind.limit (serverRateLimitsInit getenv)).toNat := by
  obtain ⟨positive, bounded⟩ := serverRateLimitsInit_range getenv (.mismatch kind)
  have follows : MismatchFollows kind ip (serverRateLimitsInit getenv)
      (RateState.init (serverRateLimitsInit getenv)) Quota.Ledger.empty 0 := by
    refine ⟨rfl, init_seated nonzero, init_tracks nonzero, ?_⟩
    rw [init_seat nonzero]
    exact fun _ held => nomatch held
  have bound := Quota.grantsIn_le rateStep RateCall.time (rateGranted (.mismatch kind) ip)
    (fun r c => c.ip ≠ 0 ∧ (r.gatesTaken kind ip c.now.ms).card ≤ 15) _
    (fun r l now c holds later cond => mismatch_advance bounded positive nonzero r l now c holds
      later ⟨cond.1, Nat.lt_succ_of_le cond.2⟩)
    since til short _ _ 0 0 calls follows (Quota.Within.empty _ since) clocked room
  rwa [Nat.zero_add] at bound

def clashMiss (at_ : UInt16) (k : UInt32) : RateCall :=
  .mismatch .miss (clashSource k) (NowMs.small at_)

/-- The first source's bucket is evicted, and its second call meets the gate. -/
def gatedCalls : List RateCall :=
  clashMiss 5 1 :: ([2, 3, 4, 5, 6, 7, 8, 9].map (clashOpen 5) ++ [clashMiss 6 1])

theorem rateRun_mismatchBudget_sample :
    Quota.grantsIn rateStep RateCall.time (rateGranted (.mismatch .miss) (clashSource 1)) 0 999
      (RateState.init (serverRateLimitsInit oneEach)) gatedCalls ≤
        2 * (MismatchKind.miss.limit (serverRateLimitsInit oneEach)).toNat := by
  refine rateRun_mismatchBudget oneEach .miss (clashSource 1) (by decide) gatedCalls ?_
    (by decide +kernel) 0 999 (by decide)
  simp only [gatedCalls, List.map, List.cons_append, List.nil_append, Trace.Clocked]
  decide

def RateState.gateHolders (r : RateState) (kind : MismatchKind) (slot : Fin rateBuckets)
    (now : UInt64) : Finset UInt32 :=
  (Finset.univ.filter fun way => (r.gates kind slot way).ip ≠ 0 ∧
    now < (r.gates kind slot way).overUntilMs).image fun way => (r.gates kind slot way).ip

def doubledCalls : List RateCall :=
  clashOpen 5 1 :: ([2, 3, 4, 5, 6, 7, 8, 9, 10, 9].map (clashOpen 6) ++
    ([11, 12, 13, 14, 15, 16, 17, 18, 19, 20, 21, 22, 23].map (clashOpen 1005) ++
    [clashMiss 1005 40, clashOpen 1005 11, clashMiss 1005 40, clashOpen 1005 11,
      clashMiss 1005 40]))

theorem doubled_gate_refilled :
    Trace.Clocked RateCall.time RateCall.time 0 doubledCalls ∧
      Trace.Along rateStep
        (fun r c => c.ip ≠ 0 ∧ ∀ kind ∈ [MismatchKind.miss, .tokbad, .close],
          ((rateStep r c).1.gateHolders kind (rateGateSlot (clashSource 40)) c.now.ms).card ≤ 15)
        (RateState.init (serverRateLimitsInit oneEach)) doubledCalls ∧
      2 * (MismatchKind.miss.limit (serverRateLimitsInit oneEach)).toNat <
        Quota.grantsIn rateStep RateCall.time (rateGranted (.mismatch .miss) (clashSource 40)) 1005
          1005 (RateState.init (serverRateLimitsInit oneEach)) doubledCalls := by
  refine ⟨?_, by decide +kernel, by decide +kernel⟩
  simp only [doubledCalls, List.map, List.cons_append, List.nil_append, Trace.Clocked]
  decide

end Iwan
