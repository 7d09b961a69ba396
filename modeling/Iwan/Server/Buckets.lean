import Iwan.Server.Rate

/- The bucket table of the rate limiter (server_rate.c). -/
namespace Iwan

open Function (update update_eq_self update_of_ne update_self)

def rateProbe (ip : UInt32) (i : Nat) : Fin rateBucketsPerShard :=
  rateBucketSlot ((rateHash ip).toNat % rateBucketsPerShard + i)

def RateBucket.Stops (b : RateBucket) (ip : UInt32) : Prop := b.ip = ip ∨ (b.ip = 0 ∧ b.win = 0)

theorem rateProbe_inj {ip : UInt32} {i j : Nat} (left : i < rateProbeMax) (right : j < rateProbeMax)
    (same : rateProbe ip i = rateProbe ip j) : i = j := by
  have value := congrArg Fin.val same
  unfold rateProbe rateBucketSlot at value
  unfold rateProbeMax at left right
  unfold rateBucketsPerShard at value
  dsimp only at value
  omega

section

variable (buckets : Fin rateBucketsPerShard → RateBucket) (ip : UInt32)

private theorem rateBucketProbe_reach (n k evict : Nat) (oldest : UInt64)
    (passed : ∀ j < k, ¬ (buckets (rateProbe ip j)).Stops ip) (seen : evict = 0 ∨ evict < k) :
    ∃ i, (i = 0 ∨ i < k + n) ∧
      rateBucketProbe buckets ip ((rateHash ip).toNat % rateBucketsPerShard) (List.range' k n)
        evict oldest = rateProbe ip i ∧
      ∀ j < i, ¬ (buckets (rateProbe ip j)).Stops ip := by
  induction n generalizing k evict oldest with
  | zero =>
    refine ⟨evict, seen, rfl, fun j before => passed j ?_⟩
    omega
  | succ n ih =>
    rw [List.range'_succ]
    unfold rateBucketProbe
    dsimp only
    split
    · exact ⟨k, Or.inr (by omega), rfl, passed⟩
    · rename_i goes
      have passed' : ∀ j < k + 1, ¬ (buckets (rateProbe ip j)).Stops ip := by
        intro j below
        rcases Nat.lt_succ_iff_lt_or_eq.mp below with before | rfl
        · exact passed j before
        · exact goes
      obtain ⟨i, range, result, before⟩ := ih (k + 1)
        (if (buckets (rateProbe ip k)).win < oldest then k else evict)
        (if (buckets (rateProbe ip k)).win < oldest then (buckets (rateProbe ip k)).win
          else oldest) passed' (by split_ifs <;> omega)
      exact ⟨i, by omega, result, before⟩

private theorem rateBucketProbe_first (n k evict i : Nat) (oldest : UInt64) (low : k ≤ i)
    (high : i < k + n) (stops : (buckets (rateProbe ip i)).Stops ip)
    (passed : ∀ j < i, ¬ (buckets (rateProbe ip j)).Stops ip) :
    rateBucketProbe buckets ip ((rateHash ip).toNat % rateBucketsPerShard) (List.range' k n)
      evict oldest = rateProbe ip i := by
  induction n generalizing k evict oldest with
  | zero => omega
  | succ n ih =>
    rw [List.range'_succ]
    unfold rateBucketProbe
    dsimp only
    split
    · rename_i here
      have same : ¬ k < i := fun before => passed k before here
      obtain rfl : k = i := by omega
      rfl
    · rename_i goes
      have later : k ≠ i := fun same => goes (same ▸ stops)
      exact ih (k + 1) _ _ (by omega) (by omega)

theorem rateBucketFind_reach :
    ∃ i < rateProbeMax, rateBucketFind buckets ip = rateProbe ip i ∧
      ∀ j < i, ¬ (buckets (rateProbe ip j)).Stops ip := by
  obtain ⟨i, range, result, before⟩ :=
    rateBucketProbe_reach buckets ip rateProbeMax 0 0 0xFFFFFFFFFFFFFFFF
      (fun _ below => absurd below (Nat.not_lt_zero _)) (Or.inl rfl)
  refine ⟨i, by unfold rateProbeMax at range ⊢; omega, ?_, before⟩
  rw [rateBucketFind, List.range_eq_range']
  exact result

theorem rateBucketFind_first (i : Nat) (inside : i < rateProbeMax)
    (stops : (buckets (rateProbe ip i)).Stops ip)
    (passed : ∀ j < i, ¬ (buckets (rateProbe ip j)).Stops ip) :
    rateBucketFind buckets ip = rateProbe ip i := by
  rw [rateBucketFind, List.range_eq_range']
  exact rateBucketProbe_first buckets ip rateProbeMax 0 0 i _ (Nat.zero_le i)
    (by rwa [Nat.zero_add]) stops passed

theorem rateBucketFind_own (b : RateBucket) (own : b.ip = ip) :
    rateBucketFind (update buckets (rateBucketFind buckets ip) b) ip =
      rateBucketFind buckets ip := by
  obtain ⟨i, inside, result, passed⟩ := rateBucketFind_reach buckets ip
  rw [result]
  apply rateBucketFind_first _ ip i inside
  · rw [update_self]
    exact .inl own
  · intro j before
    have other : rateProbe ip j ≠ rateProbe ip i := fun same =>
      Nat.ne_of_lt before (rateProbe_inj (Nat.lt_trans before inside) inside same)
    rw [update_of_ne other]
    exact passed j before

theorem rateBucketFind_other (slot : Fin rateBucketsPerShard) (b : RateBucket)
    (own : (buckets (rateBucketFind buckets ip)).ip = ip)
    (elsewhere : rateBucketFind buckets ip ≠ slot)
    (foreign : ¬ b.Stops ip) :
    rateBucketFind (update buckets slot b) ip = rateBucketFind buckets ip := by
  obtain ⟨i, inside, result, passed⟩ := rateBucketFind_reach buckets ip
  rw [result] at own elsewhere ⊢
  apply rateBucketFind_first _ ip i inside
  · rw [update_of_ne elsewhere]
    exact .inl own
  · intro j before
    by_cases here : rateProbe ip j = slot
    · rw [here, update_self]
      exact foreign
    · rw [update_of_ne here]
      exact passed j before

end

def RateState.find (r : RateState) (ip : UInt32) : Fin rateBucketsPerShard :=
  rateBucketFind (r.shards (rateIpShard ip)) ip

def RateState.held (r : RateState) (ip : UInt32) : Option RateBucket :=
  let b := r.shards (rateIpShard ip) (r.find ip)
  if b.ip = ip then some b else none

def RateState.Collides (r : RateState) (caller ip : UInt32) : Prop :=
  rateIpShard caller = rateIpShard ip ∧ r.find caller = r.find ip

instance (r : RateState) (caller ip : UInt32) : Decidable (r.Collides caller ip) :=
  inferInstanceAs (Decidable (_ ∧ _))

def RateState.Seated (r : RateState) (ip : UInt32) : Prop :=
  ∀ shard slot, (r.shards shard slot).ip = ip → shard = rateIpShard ip ∧ r.find ip = slot

def RateBucket.fresh (ip : UInt32) (now : UInt64) : RateBucket :=
  { RateBucket.zero with ip, win := now }

def RateBucket.entered (ip : UInt32) (now : UInt64) : Option RateBucket → RateBucket
  | some b => if rateWindowMs ≤ now - b.win then RateBucket.fresh ip now else b
  | none => RateBucket.fresh ip now

section

variable {r : RateState} {ip : UInt32}

theorem held_some {b : RateBucket} :
    r.held ip = some b ↔ r.shards (rateIpShard ip) (r.find ip) = b ∧ b.ip = ip := by
  unfold RateState.held
  dsimp only
  split_ifs with own
  · rw [Option.some.injEq]
    exact ⟨fun same => ⟨same, same ▸ own⟩, fun same => same.1⟩
  · exact ⟨fun none => (nomatch none), fun same => absurd (same.1 ▸ same.2) own⟩

theorem held_none (seated : r.Seated ip) :
    r.held ip = none ↔ ∀ shard slot, (r.shards shard slot).ip ≠ ip := by
  unfold RateState.held
  dsimp only
  split_ifs with own
  · exact ⟨fun none => (nomatch none), fun absent => absurd own (absent _ _)⟩
  · refine ⟨fun _ shard slot named => own ?_, fun _ => rfl⟩
    obtain ⟨rfl, rfl⟩ := seated shard slot named
    exact named

theorem held_congr {r' : RateState} (same : r'.shards = r.shards) : r'.held ip = r.held ip := by
  unfold RateState.held RateState.find
  rw [same]

theorem RateState.Seated.congr {r' : RateState} (seated : r.Seated ip)
    (same : r'.shards = r.shards) :
    r'.Seated ip := by
  unfold RateState.Seated RateState.find at seated ⊢
  rw [same]
  exact seated

theorem setBucket_here (shard : Fin rateShards) (slot : Fin rateBucketsPerShard) (b : RateBucket) :
    (r.setBucket shard slot b).shards shard slot = b := by
  simp only [RateState.setBucket, update_self]

theorem setBucket_shard (shard : Fin rateShards) (slot : Fin rateBucketsPerShard) (b : RateBucket) :
    (r.setBucket shard slot b).shards shard = update (r.shards shard) slot b := by
  simp only [RateState.setBucket, update_self]

theorem setBucket_elsewhere (shard shard' : Fin rateShards) (slot : Fin rateBucketsPerShard)
    (b : RateBucket) (other : shard' ≠ shard) :
    (r.setBucket shard slot b).shards shard' = r.shards shard' := by
  simp only [RateState.setBucket, update_of_ne other]

theorem setBucket_bucket (shard shard' : Fin rateShards) (slot slot' : Fin rateBucketsPerShard)
    (b : RateBucket) : (r.setBucket shard slot b).shards shard' slot' =
      if shard' = shard ∧ slot' = slot then b else r.shards shard' slot' := by
  by_cases there : shard' = shard
  · subst there
    rw [setBucket_shard]
    by_cases here : slot' = slot
    · rw [here, update_self, if_pos ⟨rfl, rfl⟩]
    · rw [update_of_ne here, if_neg fun both => here both.2]
  · rw [setBucket_elsewhere shard shard' slot b there, if_neg fun both => there both.1]

theorem find_setBucket_own (b : RateBucket) (own : b.ip = ip) :
    (r.setBucket (rateIpShard ip) (r.find ip) b).find ip = r.find ip := by
  unfold RateState.find
  rw [setBucket_shard]
  exact rateBucketFind_own (r.shards (rateIpShard ip)) ip b own

theorem held_setBucket_own (b : RateBucket) (own : b.ip = ip) :
    (r.setBucket (rateIpShard ip) (r.find ip) b).held ip = some b := by
  rw [held_some, find_setBucket_own b own, setBucket_here]
  exact ⟨rfl, own⟩

theorem RateState.Seated.setBucket_own (seated : r.Seated ip) (b : RateBucket) (own : b.ip = ip) :
    (r.setBucket (rateIpShard ip) (r.find ip) b).Seated ip := by
  intro shard slot named
  rw [find_setBucket_own b own]
  rw [setBucket_bucket] at named
  split_ifs at named with here
  · exact ⟨here.1, here.2.symm⟩
  · exact seated shard slot named

theorem RateState.Seated.setBucket_other (seated : r.Seated ip) (shard : Fin rateShards)
    (slot : Fin rateBucketsPerShard) (b : RateBucket) (foreign : b.ip ≠ ip) (nonzero : b.ip ≠ 0) :
    (r.setBucket shard slot b).Seated ip := by
  intro shard' slot' named
  rw [setBucket_bucket] at named
  split_ifs at named with here
  · exact absurd named foreign
  · obtain ⟨rfl, found⟩ := seated shard' slot' named
    refine ⟨rfl, ?_⟩
    subst found
    by_cases there : rateIpShard ip = shard
    · subst there
      have elsewhere : r.find ip ≠ slot := fun same => here ⟨rfl, same⟩
      have quiet : ¬ b.Stops ip := fun stops => stops.elim foreign (fun free => nonzero free.1)
      unfold RateState.find at *
      rw [setBucket_shard]
      exact rateBucketFind_other (r.shards (rateIpShard ip)) ip slot b named elsewhere quiet
    · unfold RateState.find
      rw [setBucket_elsewhere shard _ slot b there]

theorem held_setBucket_other (seated : r.Seated ip) (shard : Fin rateShards)
    (slot : Fin rateBucketsPerShard) (b : RateBucket) (foreign : b.ip ≠ ip) (nonzero : b.ip ≠ 0) :
    (r.setBucket shard slot b).held ip =
      if shard = rateIpShard ip ∧ slot = r.find ip then none else r.held ip := by
  have seated' := seated.setBucket_other shard slot b foreign nonzero
  split_ifs with here
  · rw [held_none seated']
    intro shard' slot' named
    rw [setBucket_bucket] at named
    split_ifs at named with there
    · exact foreign named
    · obtain ⟨rfl, rfl⟩ := seated shard' slot' named
      exact there ⟨here.1.symm, here.2.symm⟩
  · cases was : r.held ip with
    | none =>
      rw [held_none seated] at was
      rw [held_none seated']
      intro shard' slot'
      rw [setBucket_bucket]
      split_ifs
      · exact foreign
      · exact was shard' slot'
    | some own =>
      obtain ⟨at_found, named⟩ := held_some.mp was
      have kept : (r.setBucket shard slot b).shards (rateIpShard ip) (r.find ip) = own := by
        rw [setBucket_bucket, if_neg fun both => here ⟨both.1.symm, both.2.symm⟩]
        exact at_found
      have found := (seated' (rateIpShard ip) (r.find ip) (by rw [kept]; exact named)).2
      rw [held_some, found]
      exact ⟨kept, named⟩

end

def RateState.Gated (r : RateState) (kind : MismatchKind) (ip : UInt32) (til : Nat) : Prop :=
  ∃ way, (r.gates kind (rateGateSlot ip) way).ip = ip ∧
    til ≤ (r.gates kind (rateGateSlot ip) way).overUntilMs.toNat

def RateState.gatesTaken (r : RateState) (kind : MismatchKind) (ip : UInt32) (now : UInt64) :
    Finset (Fin rateGateWays) :=
  Finset.univ.filter fun way => (r.gates kind (rateGateSlot ip) way).taken ip now = true

section

variable {r : RateState} {kind kind' : MismatchKind} {ip claimant : UInt32} {now til : UInt64}

theorem gate_check_of_gated {wait : Nat} (gated : r.Gated kind ip wait) (early : now.toNat < wait) :
    rateGateCheck (r.gates kind (rateGateSlot ip)) ip now = true := by
  obtain ⟨way, named, later⟩ := gated
  unfold rateGateCheck
  apply Fin.isSome_find?_of_eq_true (i := way)
  rw [Bool.and_eq_true, decide_eq_true_eq, decide_eq_true_eq, UInt64.lt_iff_toNat_lt]
  exact ⟨named, by omega⟩

theorem claimGate_other (other : kind' ≠ kind) :
    (r.claimGate kind' claimant til now).gates kind = r.gates kind := by
  simp only [RateState.claimGate, update_of_ne (Ne.symm other)]

theorem claimGate_slot (slot : Fin rateBuckets) :
    (r.claimGate kind claimant til now).gates kind slot =
      if slot = rateGateSlot claimant then
        rateGateClaim (r.gates kind (rateGateSlot claimant)) claimant til now
      else r.gates kind slot := by
  simp only [RateState.claimGate, update_self]
  split_ifs with here
  · rw [here, update_self]
  · rw [update_of_ne here]

theorem rateGateClaim_way (gs : RateGateSet) (way : Fin rateGateWays) :
    rateGateClaim gs claimant til now way = gs way ∨
      (gs way).taken claimant now = false ∧
        rateGateClaim gs claimant til now way = ⟨claimant, til⟩ := by
  unfold rateGateClaim
  cases found : Fin.find? (fun way => !(gs way).taken claimant now) with
  | none => exact .inl rfl
  | some free =>
    dsimp only
    by_cases here : way = free
    · subst here
      have untaken := Fin.eq_true_of_find?_eq_some found
      rw [Bool.not_eq_true'] at untaken
      exact .inr ⟨untaken, update_self way _ gs⟩
    · exact .inl (update_of_ne here _ gs)

theorem RateState.Gated.claim {wait : Nat} (gated : r.Gated kind ip wait) (nonzero : ip ≠ 0)
    (early : now.toNat < wait) (reaches : claimant = ip → wait ≤ til.toNat) :
    (r.claimGate kind' claimant til now).Gated kind ip wait := by
  by_cases same : kind' = kind
  · subst same
    obtain ⟨way, named, later⟩ := gated
    refine ⟨way, ?_⟩
    rw [claimGate_slot]
    split_ifs with here
    · rw [← here]
      rcases rateGateClaim_way (r.gates kind' (rateGateSlot ip)) way with kept | ⟨untaken, written⟩
      · rw [kept]
        exact ⟨named, later⟩
      · rw [written]
        have owner : claimant = ip := by
          by_contra foreign
          have holds : (r.gates kind' (rateGateSlot ip) way).taken claimant now = true := by
            unfold RateGate.taken
            rw [named, Bool.and_eq_true, Bool.and_eq_true, decide_eq_true_eq, decide_eq_true_eq,
              decide_eq_true_eq, UInt64.lt_iff_toNat_lt]
            exact ⟨⟨nonzero, Ne.symm foreign⟩, by omega⟩
          rw [untaken] at holds
          exact Bool.noConfusion holds
        exact ⟨owner, reaches owner⟩
    · exact ⟨named, later⟩
  · unfold RateState.Gated
    rw [claimGate_other same]
    exact gated

theorem claimGate_gated (room : (r.gatesTaken kind ip now).card < rateGateWays) :
    (r.claimGate kind ip til now).Gated kind ip til.toNat := by
  obtain ⟨way, untaken⟩ : ∃ way, way ∉ r.gatesTaken kind ip now := by
    by_contra full
    rw [not_exists] at full
    rw [Finset.eq_univ_of_forall fun way => not_not.mp (full way),
      Finset.card_univ, Fintype.card_fin] at room
    exact Nat.lt_irrefl rateGateWays room
  have free : (!(r.gates kind (rateGateSlot ip) way).taken ip now) = true := by
    simpa [RateState.gatesTaken] using untaken
  unfold RateState.Gated
  rw [claimGate_slot, if_pos rfl]
  unfold rateGateClaim
  cases found : Fin.find? (fun way => !(r.gates kind (rateGateSlot ip) way).taken ip now) with
  | none => exact absurd (Fin.eq_false_of_find?_eq_none found way) (by rw [free]; decide)
  | some first =>
    refine ⟨first, ?_⟩
    dsimp only
    rw [update_self]
    exact ⟨rfl, Nat.le_refl _⟩

theorem claimGate_taken (other : kind' ≠ kind) (at_ : UInt64) :
    (r.claimGate kind' claimant til now).gatesTaken kind ip at_ = r.gatesTaken kind ip at_ := by
  unfold RateState.gatesTaken
  rw [claimGate_other other]

end

def RateBucket.Spent (b : RateBucket) : Prop :=
  ¬ (b.openCnt = 0 ∧ b.pingCnt = 0 ∧ b.echoCnt = 0 ∧ b.missCnt = 0 ∧ b.tokbadCnt = 0 ∧
    b.closeCnt = 0)

section

variable {r : RateState} {kind : MismatchKind} {ip : UInt32} {now : UInt64} {b : RateBucket}

@[simp] theorem rateEvictPublish_shards : (rateEvictPublish r b now).shards = r.shards := by
  unfold rateEvictPublish
  split_ifs <;> rfl

theorem RateState.Gated.publish {wait : Nat} (gated : r.Gated kind ip wait) (nonzero : ip ≠ 0)
    (early : now.toNat < wait) (reaches : b.ip = ip → wait ≤ (b.win + rateWindowMs).toNat) :
    (rateEvictPublish r b now).Gated kind ip wait := by
  unfold rateEvictPublish
  split_ifs
  · exact gated
  · exact gated
  · exact ((gated.claim nonzero early reaches).claim nonzero early reaches).claim nonzero early
      reaches

theorem publish_gated (nonzero : b.ip ≠ 0) (running : now - b.win < rateWindowMs) (spent : b.Spent)
    (ahead : now.toNat < (b.win + rateWindowMs).toNat)
    (room : (r.gatesTaken kind b.ip now).card < rateGateWays) :
    (rateEvictPublish r b now).Gated kind b.ip (b.win + rateWindowMs).toNat := by
  unfold rateEvictPublish
  rw [if_neg (fun skip => skip.elim nonzero (fun old => absurd running (UInt64.not_lt.mpr old))),
    if_neg spent]
  dsimp only
  have keep : ∀ {r' : RateState} {kind' : MismatchKind},
      r'.Gated kind b.ip (b.win + rateWindowMs).toNat →
        (r'.claimGate kind' b.ip (b.win + rateWindowMs) now).Gated kind b.ip
          (b.win + rateWindowMs).toNat :=
    fun gated => gated.claim nonzero ahead fun _ => Nat.le_refl _
  cases kind with
  | miss => exact keep (keep (claimGate_gated room))
  | tokbad =>
    refine keep (claimGate_gated ?_)
    rw [claimGate_taken (by decide)]
    exact room
  | close =>
    refine claimGate_gated ?_
    rw [claimGate_taken (by decide), claimGate_taken (by decide)]
    exact room

end

section

variable {r : RateState} {kind : MismatchKind} {ip caller : UInt32} {now : UInt64}

theorem rateBucketEnter_eq (r : RateState) (caller : UInt32) (now : UInt64) :
    rateBucketEnter r caller now =
      (if (r.shards (rateIpShard caller) (r.find caller)).ip ≠ caller ∨
          rateWindowMs ≤ now - (r.shards (rateIpShard caller) (r.find caller)).win then
        (rateEvictPublish r (r.shards (rateIpShard caller) (r.find caller)) now).setBucket
          (rateIpShard caller) (r.find caller) (RateBucket.fresh caller now)
      else r, rateIpShard caller, r.find caller) := rfl

theorem publish_setBucket (b fresh : RateBucket) (shard : Fin rateShards)
    (slot : Fin rateBucketsPerShard) :
    ((rateEvictPublish r b now).setBucket shard slot fresh).shards =
      (r.setBucket shard slot fresh).shards := by
  simp only [RateState.setBucket, rateEvictPublish_shards]

theorem entered_ip (r : RateState) (ip : UInt32) (now : UInt64) :
    (RateBucket.entered ip now (r.held ip)).ip = ip := by
  cases was : r.held ip with
  | none => rfl
  | some b =>
    unfold RateBucket.entered
    dsimp only
    split_ifs
    · rfl
    · exact (held_some.mp was).2

theorem enter_shards (r : RateState) (ip : UInt32) (now : UInt64) :
    (rateBucketEnter r ip now).1.shards =
      (r.setBucket (rateIpShard ip) (r.find ip)
        (RateBucket.entered ip now (r.held ip))).shards := by
  rw [rateBucketEnter_eq]
  dsimp only
  cases was : r.held ip with
  | none =>
    have foreign : (r.shards (rateIpShard ip) (r.find ip)).ip ≠ ip := by
      intro own
      have mine := held_some.mpr ⟨rfl, own⟩
      rw [was] at mine
      exact absurd mine (by simp)
    rw [if_pos (Or.inl foreign), publish_setBucket]
    rfl
  | some b =>
    obtain ⟨here, own⟩ := held_some.mp was
    unfold RateBucket.entered
    dsimp only
    rw [here]
    by_cases old : rateWindowMs ≤ now - b.win
    · rw [if_pos (Or.inr old), if_pos old, publish_setBucket]
    · rw [if_neg (fun roll => roll.elim (fun foreign => foreign own) old), if_neg old]
      simp only [RateState.setBucket, ← here, update_eq_self]

theorem RateState.Gated.enter {wait : Nat} (gated : r.Gated kind ip wait) (nonzero : ip ≠ 0)
    (seated : r.Seated ip) (early : now.toNat < wait)
    (reaches : ∀ b, r.held ip = some b → wait ≤ (b.win + rateWindowMs).toNat) :
    (rateBucketEnter r caller now).1.Gated kind ip wait := by
  rw [rateBucketEnter_eq]
  dsimp only
  split_ifs
  · refine gated.publish nonzero early fun own => reaches _ ?_
    obtain ⟨shard, slot⟩ := seated _ _ own
    rw [shard, ← slot] at own ⊢
    exact held_some.mpr ⟨rfl, own⟩
  · exact gated

theorem enter_publishes {b : RateBucket} (was : r.held ip = some b) (foreign : caller ≠ ip)
    (nonzero : ip ≠ 0) (collides : r.Collides caller ip) (running : now - b.win < rateWindowMs)
    (spent : b.Spent) (ahead : now.toNat < (b.win + rateWindowMs).toNat)
    (room : (r.gatesTaken kind ip now).card < rateGateWays) :
    (rateBucketEnter r caller now).1.Gated kind ip (b.win + rateWindowMs).toNat := by
  obtain ⟨here, rfl⟩ := held_some.mp was
  obtain ⟨shard, slot⟩ := collides
  rw [rateBucketEnter_eq, shard, slot, here]
  dsimp only
  rw [if_pos (Or.inl (Ne.symm foreign))]
  exact publish_gated nonzero running spent ahead room

end

end Iwan
