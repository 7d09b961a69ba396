import Iwan.Wire.Frame

/- Per-source budgets (server_rate.c): buckets that count frames, and gates over them. -/
namespace Iwan

def rateBuckets : Nat := 1024
def rateWindowMs : UInt64 := 1000
def rateProbeMax : Nat := 8
def rateShards : Nat := 16
def rateBucketsPerShard : Nat := 64
def rateGateWays : Nat := 16

/-- The counters of a source. -/
structure RateBucket where
  ip : UInt32
  win : UInt64
  openCnt : UInt32
  pingCnt : UInt32
  echoCnt : UInt32
  missCnt : UInt32
  tokbadCnt : UInt32
  closeCnt : UInt32
deriving DecidableEq, Repr

def RateBucket.zero : RateBucket := ⟨0, 0, 0, 0, 0, 0, 0, 0⟩

/-- A source that is over its budget. -/
structure RateGate where
  ip : UInt32
  overUntilMs : UInt64
deriving DecidableEq, Repr

abbrev RateGateSet := Fin rateGateWays → RateGate

/-- Sid misses, and wrong tokens of DATA and of CLOSE. -/
inductive MismatchKind where
  | miss
  | tokbad
  | close
deriving DecidableEq, Repr

/-- The configured budgets. -/
structure RateLimits where
  openMax : UInt32
  echoMax : UInt32
  missMax : UInt32
  tokbadMax : UInt32
  closeMax : UInt32
  throttleMs : UInt32
deriving DecidableEq, Repr

def RateLimits.default : RateLimits := ⟨20, 60, 2000, 4096, 4096, 2⟩

/-- Buckets and gates. -/
structure RateState where
  shards : Fin rateShards → Fin rateBucketsPerShard → RateBucket
  gates : MismatchKind → Fin rateBuckets → RateGateSet
  limits : RateLimits
  drops : UInt64

def RateState.init (limits : RateLimits) : RateState :=
  ⟨fun _ _ => RateBucket.zero, fun _ _ _ => ⟨0, 0⟩, limits, 0⟩

def serverRateGetThrottleMs (r : RateState) : UInt32 := r.limits.throttleMs

def serverRateDropInc (r : RateState) : RateState := { r with drops := r.drops + 1 }

def rateHash (ip : UInt32) : UInt32 := (ip * 2654435761) >>> 22

theorem rateHash_lt (ip : UInt32) : (rateHash ip).toNat < rateBuckets := by
  have bound := (ip * 2654435761).toNat_lt
  rw [rateHash, UInt32.toNat_shiftRight, Nat.shiftRight_eq_div_pow, rateBuckets]
  simp only [UInt32.reduceToNat, Nat.reduceMod, Nat.reducePow] at bound ⊢
  omega

def rateIpShard (ip : UInt32) : Fin rateShards :=
  ⟨(rateHash ip).toNat / rateBucketsPerShard, by
    have bound := rateHash_lt ip
    unfold rateBuckets at bound
    unfold rateBucketsPerShard rateShards
    omega⟩

def rateGateSlot (ip : UInt32) : Fin rateBuckets := ⟨(rateHash ip).toNat, rateHash_lt ip⟩

def RateGate.taken (gate : RateGate) (ip : UInt32) (now : UInt64) : Bool :=
  gate.ip ≠ 0 && gate.ip ≠ ip && now < gate.overUntilMs

def rateGateClaim (gs : RateGateSet) (ip : UInt32) (til now : UInt64) : RateGateSet :=
  match Fin.find? (fun way => !(gs way).taken ip now) with
  | some way => Function.update gs way ⟨ip, til⟩
  | none => gs

def rateGateCheck (gs : RateGateSet) (ip : UInt32) (now : UInt64) : Bool :=
  (Fin.find? (fun way => (gs way).ip = ip && now < (gs way).overUntilMs)).isSome

def RateState.claimGate (r : RateState) (kind : MismatchKind) (ip : UInt32) (til now : UInt64) :
    RateState :=
  let slot := rateGateSlot ip
  let claimed := rateGateClaim (r.gates kind slot) ip til now
  { r with gates := Function.update r.gates kind (Function.update (r.gates kind) slot claimed) }

def rateBucketSlot (position : Nat) : Fin rateBucketsPerShard :=
  ⟨position % rateBucketsPerShard, Nat.mod_lt _ (by decide)⟩

def rateBucketProbe (buckets : Fin rateBucketsPerShard → RateBucket) (ip : UInt32) (home : Nat) :
    List Nat → Nat → UInt64 → Fin rateBucketsPerShard
  | [], evict, _ => rateBucketSlot (home + evict)
  | i :: rest, evict, oldest =>
    let c := buckets (rateBucketSlot (home + i))
    let evict' := if c.win < oldest then i else evict
    let oldest' := if c.win < oldest then c.win else oldest
    if c.ip = ip ∨ (c.ip = 0 ∧ c.win = 0) then rateBucketSlot (home + i)
    else rateBucketProbe buckets ip home rest evict' oldest'

def rateBucketFind (buckets : Fin rateBucketsPerShard → RateBucket) (ip : UInt32) :
    Fin rateBucketsPerShard :=
  rateBucketProbe buckets ip ((rateHash ip).toNat % rateBucketsPerShard) (List.range rateProbeMax)
    0 0xFFFFFFFFFFFFFFFF

def rateEvictPublish (r : RateState) (b : RateBucket) (now : UInt64) : RateState :=
  if b.ip = 0 ∨ rateWindowMs ≤ now - b.win then r
  else if b.openCnt = 0 ∧ b.pingCnt = 0 ∧ b.echoCnt = 0 ∧ b.missCnt = 0 ∧ b.tokbadCnt = 0 ∧
      b.closeCnt = 0 then r
  else
    let til := b.win + rateWindowMs
    ((r.claimGate .miss b.ip til now).claimGate .tokbad b.ip til now).claimGate .close b.ip til now

def RateState.setBucket (r : RateState) (shard : Fin rateShards)
    (slot : Fin rateBucketsPerShard) (b : RateBucket) : RateState :=
  { r with shards := Function.update r.shards shard (Function.update (r.shards shard) slot b) }

def rateBucketTouch (r : RateState) (shard : Fin rateShards) (slot : Fin rateBucketsPerShard)
    (ip : UInt32) (now : UInt64) : RateState :=
  let b := r.shards shard slot
  if b.ip ≠ ip ∨ rateWindowMs ≤ now - b.win then
    (rateEvictPublish r b now).setBucket shard slot { RateBucket.zero with ip, win := now }
  else r

def rateBucketEnter (r : RateState) (ip : UInt32) (now : UInt64) :
    RateState × Fin rateShards × Fin rateBucketsPerShard :=
  let shard := rateIpShard ip
  let slot := rateBucketFind (r.shards shard) ip
  (rateBucketTouch r shard slot ip now, shard, slot)

def controlBudget (r : RateState) (b : RateBucket) :
    FrameType → Option (UInt32 × UInt32 × RateBucket)
  | .ptOpen => some (r.limits.openMax, b.openCnt, { b with openCnt := b.openCnt + 1 })
  | .ptPingReq => some (r.limits.echoMax, b.pingCnt, { b with pingCnt := b.pingCnt + 1 })
  | .ptEchoReq => some (r.limits.echoMax, b.echoCnt, { b with echoCnt := b.echoCnt + 1 })
  | _ => none

def serverRateAllowControl (r : RateState) (ip : UInt32) (typ : Option FrameType) (now : UInt64) :
    RateState × Bool :=
  match typ with
  | some .ptOpen | some .ptPingReq | some .ptEchoReq =>
    let (r, shard, slot) := rateBucketEnter r ip now
    match typ.bind (controlBudget r (r.shards shard slot)) with
    | some (limit, cnt, counted) =>
      if limit ≤ cnt then (serverRateDropInc r, false)
      else (r.setBucket shard slot counted, true)
    | none => (r, true)
  | _ => (r, true)

def MismatchKind.limit (kind : MismatchKind) (limits : RateLimits) : UInt32 :=
  match kind with
  | .miss => limits.missMax
  | .tokbad => limits.tokbadMax
  | .close => limits.closeMax

def MismatchKind.count (kind : MismatchKind) (b : RateBucket) : UInt32 :=
  match kind with
  | .miss => b.missCnt
  | .tokbad => b.tokbadCnt
  | .close => b.closeCnt

def MismatchKind.bump (kind : MismatchKind) (b : RateBucket) : RateBucket :=
  match kind with
  | .miss => { b with missCnt := b.missCnt + 1 }
  | .tokbad => { b with tokbadCnt := b.tokbadCnt + 1 }
  | .close => { b with closeCnt := b.closeCnt + 1 }

def serverRateAllowMismatch (kind : MismatchKind) (r : RateState) (ip : UInt32)
    (now touch : UInt64) : RateState × Bool :=
  if rateGateCheck (r.gates kind (rateGateSlot ip)) ip now then (r, false)
  else
    let (r, shard, slot) := rateBucketEnter r ip touch
    let b := kind.bump (r.shards shard slot)
    let r := r.setBucket shard slot b
    if kind.count b ≤ kind.limit r.limits then (r, true)
    else (r.claimGate kind ip (b.win + rateWindowMs) now, false)

def serverRateAllowSidMiss (r : RateState) (ip : UInt32) (now touch : UInt64) : RateState × Bool :=
  serverRateAllowMismatch .miss r ip now touch

def serverRateAllowTokbad (r : RateState) (ip : UInt32) (now touch : UInt64) : RateState × Bool :=
  serverRateAllowMismatch .tokbad r ip now touch

def serverRateAllowClose (r : RateState) (ip : UInt32) (now touch : UInt64) : RateState × Bool :=
  serverRateAllowMismatch .close r ip now touch

variable (r : RateState)

@[simp] theorem serverRateDropInc_limits : (serverRateDropInc r).limits = r.limits := rfl

@[simp] theorem claimGate_limits (kind : MismatchKind) (ip : UInt32)
    (til now : UInt64) : (r.claimGate kind ip til now).limits = r.limits := rfl

@[simp] theorem setBucket_limits (shard : Fin rateShards)
    (slot : Fin rateBucketsPerShard) (b : RateBucket) :
    (r.setBucket shard slot b).limits = r.limits := rfl

@[simp] theorem rateEvictPublish_limits (b : RateBucket) (now : UInt64) :
    (rateEvictPublish r b now).limits = r.limits := by
  unfold rateEvictPublish
  split_ifs <;> rfl

@[simp] theorem rateBucketEnter_limits (ip : UInt32) (now : UInt64) :
    (rateBucketEnter r ip now).1.limits = r.limits := by
  unfold rateBucketEnter rateBucketTouch
  dsimp only
  split_ifs <;> simp only [setBucket_limits, rateEvictPublish_limits]

@[simp] theorem serverRateAllowControl_limits (ip : UInt32)
    (typ : Option FrameType) (now : UInt64) :
    (serverRateAllowControl r ip typ now).1.limits = r.limits := by
  unfold serverRateAllowControl
  split
  all_goals try rfl
  all_goals
    dsimp only
    split
    · split_ifs <;> simp only [serverRateDropInc_limits, setBucket_limits, rateBucketEnter_limits]
    · exact rateBucketEnter_limits r ip now

@[simp] theorem serverRateAllowMismatch_limits (kind : MismatchKind) (r : RateState) (ip : UInt32)
    (now touch : UInt64) : (serverRateAllowMismatch kind r ip now touch).1.limits = r.limits := by
  unfold serverRateAllowMismatch
  split_ifs
  · rfl
  · dsimp only
    split_ifs <;> simp only [claimGate_limits, setBucket_limits, rateBucketEnter_limits]

end Iwan
