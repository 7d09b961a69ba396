import Iwan.Client.Auth
import Iwan.Server.Slots

/- The address pool: live sessions own pool addresses and next_ip stays in the pool. -/
namespace Iwan

theorem sessWipe_frame (ctx : ServerCtx) (i : Slot) :
    (sessWipe ctx i).config = ctx.config ∧ (sessWipe ctx i).nextIp = ctx.nextIp := by
  unfold sessWipe
  dsimp only
  split <;> exact ⟨rfl, rfl⟩

theorem wipeLoop_frame (test : Session → Bool) (slots : List Slot) (ctx : ServerCtx) :
    (wipeLoop test slots ctx).1.config = ctx.config ∧
      (wipeLoop test slots ctx).1.nextIp = ctx.nextIp := by
  induction slots generalizing ctx with
  | nil => exact ⟨rfl, rfl⟩
  | cons i rest ih =>
    unfold wipeLoop
    split
    · obtain ⟨config, next⟩ := ih (sessWipe ctx i)
      obtain ⟨config', next'⟩ := sessWipe_frame ctx i
      exact ⟨config.trans config', next.trans next'⟩
    · exact ih ctx

section

variable (crypto : Crypto) (machine : Machine) (users : List ServerUser)

theorem serverStep_frame (w : World) (e : Event) (inv : TableInv w.ctx) :
    (serverStep crypto machine users w e).1.ctx.config = w.ctx.config ∧
      ((serverStep crypto machine users w e).1.ctx.nextIp = w.ctx.nextIp ∨
        ∃ ipu, openProbe w.ctx (w.ctx.ipEnd - w.ctx.ipBase + 1).toNat w.ctx.nextIp = some ipu ∧
          (serverStep crypto machine users w e).1.ctx.nextIp =
            if ipu = w.ctx.ipEnd then w.ctx.ipBase else ipu + 1) := by
  cases e with
  | purge now =>
    obtain ⟨config, next⟩ := wipeLoop_frame
      (fun s => s.valid && idleTimeoutMs < now - s.lastActiveMs)
      (List.finRange serverMaxSessions) w.ctx
    exact ⟨config, .inl next⟩
  | udp d env =>
    have step := handleUdp_step crypto machine users w d env inv
    change (handleUdp crypto machine users w d env).1.ctx.config = w.ctx.config ∧
      ((handleUdp crypto machine users w d env).1.ctx.nextIp = w.ctx.nextIp ∨
        ∃ ipu, _ ∧ (handleUdp crypto machine users w d env).1.ctx.nextIp = _)
    generalize (handleUdp crypto machine users w d env).1 = w' at step ⊢
    generalize (handleUdp crypto machine users w d env).2 = fx at step
    cases step with
    | dropped rate limits => exact ⟨rfl, .inl rfl⟩
    | opened named rate limits ctx fx step =>
      cases step with
      | fresh a u slot ipu granted free newUser narrow probed =>
        exact ⟨rfl, .inr ⟨ipu, probed, rfl⟩⟩
      | _ => exact ⟨rfl, .inl rfl⟩
    | data typ isData named w' fx step =>
      cases step with
      | miss unknown =>
        rw [sidMiss_ctx]
        exact ⟨rfl, .inl rfl⟩
      | _ => exact ⟨rfl, .inl rfl⟩
    | close named w' fx step =>
      cases step with
      | miss unknown =>
        rw [sidMiss_ctx]
        exact ⟨rfl, .inl rfl⟩
      | wiped i tested signed right bound =>
        obtain ⟨config, next⟩ := sessWipe_frame w.ctx i
        exact ⟨config, .inl next⟩
      | _ => exact ⟨rfl, .inl rfl⟩
    | keepalive typ isProbe named rate limits w' fx step =>
      cases step with
      | untouched fx quiet => exact ⟨rfl, .inl rfl⟩
      | touched i fx quiet signed found right gate => exact ⟨rfl, .inl rfl⟩

theorem serverRun_config (w : World) (events : List Event) (inv : TableInv w.ctx) :
    (serverRun crypto machine users w events).ctx.config = w.ctx.config := by
  have kept := Trace.final_invariant (serverStep crypto machine users)
    (fun v : World => TableInv v.ctx ∧ v.ctx.config = w.ctx.config)
    (fun v e held => ⟨serverStep_tableInv v e held.1,
      (serverStep_frame crypto machine users v e held.1).1.trans held.2⟩) w events ⟨inv, rfl⟩
  exact kept.2

end

/-- The addresses are handed out from the pool. -/
structure PoolInv (ctx : ServerCtx) : Prop where
  base_le_next : ctx.ipBase ≤ ctx.nextIp
  next_le_end : ctx.nextIp ≤ ctx.ipEnd
  inPool : ∀ i, (ctx.sess i).valid = true →
    ctx.ipBase ≤ ip4U32 (ctx.sess i).ip ∧ ip4U32 (ctx.sess i).ip ≤ ctx.ipEnd

theorem openProbe_inPool (ctx : ServerCtx) (nonempty : ctx.ipBase ≤ ctx.ipEnd)
    (below : ctx.ipEnd ≠ 0xFFFFFFFF) (tries : Nat) (probe ipu : UInt32)
    (lower : ctx.ipBase ≤ probe) (upper : probe.toNat ≤ ctx.ipEnd.toNat + 1)
    (found : openProbe ctx tries probe = some ipu) : ctx.ipBase ≤ ipu ∧ ipu ≤ ctx.ipEnd := by
  induction tries generalizing probe with
  | zero => cases found
  | succ tries ih =>
    rw [openProbe] at found
    have inside : ctx.ipBase ≤ (if ctx.ipEnd < probe then ctx.ipBase else probe) ∧
        (if ctx.ipEnd < probe then ctx.ipBase else probe) ≤ ctx.ipEnd := by
      split
      · exact ⟨UInt32.le_refl _, nonempty⟩
      · rename_i within
        exact ⟨lower, UInt32.not_lt.mp within⟩
    generalize (if ctx.ipEnd < probe then ctx.ipBase else probe) = address at found inside
    split at found
    · rw [← Option.some.inj found]
      exact inside
    · have last : ctx.ipEnd.toNat < 2 ^ 32 - 1 := by
        have bound := ctx.ipEnd.toNat_lt
        have differs : ctx.ipEnd.toNat ≠ 2 ^ 32 - 1 :=
          fun same => below (UInt32.toNat_inj.mp same)
        omega
      have lower' := UInt32.le_iff_toNat_le.mp inside.1
      have upper' := UInt32.le_iff_toNat_le.mp inside.2
      have next : (address + 1).toNat = address.toNat + 1 := by
        rw [UInt32.toNat_add]
        exact Nat.mod_eq_of_lt (by simp only [UInt32.reduceToNat]; omega)
      exact ih (address + 1) (UInt32.le_iff_toNat_le.mpr (by omega)) (by omega) found

section

variable {crypto : Crypto} {machine : Machine} {users : List ServerUser}

theorem PoolInv.probed {ctx : ServerCtx} (pool : PoolInv ctx) (below : ctx.ipEnd ≠ 0xFFFFFFFF)
    (tries : Nat) (ipu : UInt32) (found : openProbe ctx tries ctx.nextIp = some ipu) :
    ctx.ipBase ≤ ipu ∧ ipu ≤ ctx.ipEnd := by
  have next := UInt32.le_iff_toNat_le.mp pool.next_le_end
  exact openProbe_inPool ctx (UInt32.le_trans pool.base_le_next pool.next_le_end) below tries
    ctx.nextIp ipu pool.base_le_next (by omega) found

theorem next_inPool (base last ipu : UInt32) (lower : base ≤ ipu) (upper : ipu ≤ last) :
    base ≤ (if ipu = last then base else ipu + 1) ∧
      (if ipu = last then base else ipu + 1) ≤ last := by
  split
  · exact ⟨UInt32.le_refl _, UInt32.le_trans lower upper⟩
  · rename_i differs
    have lower' := UInt32.le_iff_toNat_le.mp lower
    have upper' := UInt32.le_iff_toNat_le.mp upper
    have apart : ipu.toNat ≠ last.toNat := fun same => differs (UInt32.toNat_inj.mp same)
    have bound := last.toNat_lt
    have next : (ipu + 1).toNat = ipu.toNat + 1 := by
      rw [UInt32.toNat_add]
      exact Nat.mod_eq_of_lt (by simp only [UInt32.reduceToNat]; omega)
    exact ⟨UInt32.le_iff_toNat_le.mpr (by omega), UInt32.le_iff_toNat_le.mpr (by omega)⟩

theorem SlotOutcome.inPool {w : World} {i : Slot} {e : Event} {s : Session} {fx : List Effect}
    (outcome : SlotOutcome crypto users w i e s fx) (pool : PoolInv w.ctx)
    (below : w.ctx.ipEnd ≠ 0xFFFFFFFF) (live : s.valid = true) :
    w.ctx.ipBase ≤ ip4U32 s.ip ∧ ip4U32 s.ip ≤ w.ctx.ipEnd := by
  cases outcome with
  | untouched e fx noWipe noInstall noCharge => exact pool.inPool i live
  | charged d env before cause =>
    rw [tokBudgetCharge_frame]
    exact pool.inPool i before
  | driven d env til fx before cause probe noWipe noInstall noCharge => exact pool.inPool i before
  | refilled d env a u fx before cause wipes installs =>
    have kept : (grantedSession crypto d.peer env.clock env.draws a u (w.ctx.sess i).sid
        (ip4U32 (w.ctx.sess i).ip)).ip = (w.ctx.sess i).ip := u32Ip4_ip4U32 _
    rw [kept]
    exact pool.inPool i before
  | filled d env a u ipu fx free granted newUser probed installs =>
    have assigned : ip4U32 (grantedSession crypto d.peer env.clock env.draws a u ipu.toUInt16
        ipu).ip = ipu := ip4U32_u32Ip4 ipu
    rw [assigned]
    exact pool.probed below _ ipu probed
  | _ =>
    rw [wiped_valid] at live
    cases live

theorem serverStep_poolInv (w : World) (e : Event) (inv : TableInv w.ctx) (pool : PoolInv w.ctx)
    (below : w.ctx.ipEnd ≠ 0xFFFFFFFF) :
    PoolInv (serverStep crypto machine users w e).1.ctx := by
  obtain ⟨config, next⟩ := serverStep_frame crypto machine users w e inv
  have base : (serverStep crypto machine users w e).1.ctx.ipBase = w.ctx.ipBase :=
    congrArg ServerConfig.ipBase config
  have last : (serverStep crypto machine users w e).1.ctx.ipEnd = w.ctx.ipEnd :=
    congrArg ServerConfig.ipEnd config
  have moved : w.ctx.ipBase ≤ (serverStep crypto machine users w e).1.ctx.nextIp ∧
      (serverStep crypto machine users w e).1.ctx.nextIp ≤ w.ctx.ipEnd := by
    rcases next with same | ⟨ipu, probed, same⟩
    · rw [same]
      exact ⟨pool.base_le_next, pool.next_le_end⟩
    · rw [same]
      obtain ⟨lower, upper⟩ := pool.probed below _ ipu probed
      exact next_inPool _ _ ipu lower upper
  refine ⟨?_, ?_, ?_⟩
  · rw [base]
    exact moved.1
  · rw [last]
    exact moved.2
  · intro i live
    rw [base, last]
    exact (serverStep_slot w e inv i).inPool pool below live

end

/-- The map names the live slots exactly, sessions own pool addresses and share nothing, and both
lookups answer like a scan. -/
structure TableSound (ctx : ServerCtx) : Prop where
  mapped : ∀ i, (ctx.sess i).valid = true → ctx.sidMap (ctx.sess i).sid = i.val
  lowSid : ∀ i, (ctx.sess i).valid = true →
    (ctx.sess i).sid = (ip4U32 (ctx.sess i).ip).toUInt16
  inPool : ∀ i, (ctx.sess i).valid = true →
    ctx.ipBase ≤ ip4U32 (ctx.sess i).ip ∧ ip4U32 (ctx.sess i).ip ≤ ctx.ipEnd
  token : ∀ i, (ctx.sess i).valid = true → (ctx.sess i).token ≠ 0
  distinct : ∀ i j, (ctx.sess i).valid = true → (ctx.sess j).valid = true → i ≠ j →
    (ctx.sess i).sid ≠ (ctx.sess j).sid ∧ (ctx.sess i).ip ≠ (ctx.sess j).ip ∧
      (ctx.sess i).user ≠ (ctx.sess j).user
  backed : ∀ sid, 0 ≤ ctx.sidMap sid →
    ∃ i : Slot, ctx.sidMap sid = i.val ∧ (ctx.sess i).valid = true ∧ (ctx.sess i).sid = sid
  lookup : ∀ sid, findSession ctx sid = ctx.scan (·.hasSid sid)
  lookupIp : ∀ ip, findSessionByIp ctx ip = ctx.scan (·.hasIp ip)

theorem TableInv.sound {ctx : ServerCtx} (inv : TableInv ctx) (pool : PoolInv ctx) :
    TableSound ctx where
  mapped i live := mapSlot_some _ i (inv.exact.indexed i live)
  lowSid := inv.lowSid
  inPool := pool.inPool
  token := inv.token
  distinct i j live live' apart :=
    ⟨fun same => apart (inv.sid_inj i j live live' same),
      fun same => apart (inv.ip_inj i j live live' same),
      fun same => apart (inv.owner i j live live' same)⟩
  backed sid mapped := by
    obtain ⟨i, named⟩ := Option.ne_none_iff_exists'.mp (inv.entries sid mapped)
    exact ⟨i, mapSlot_some _ i named, inv.exact.backed sid i named⟩
  lookup := findSession_eq_scan inv
  lookupIp := findSessionByIp_eq_scan inv

theorem serverRun_poolInv (crypto : Crypto) (machine : Machine) (users : List ServerUser)
    (w : World) (boot : Booted w.ctx) (base_le_next : w.ctx.ipBase ≤ w.ctx.nextIp)
    (next_le_end : w.ctx.nextIp ≤ w.ctx.ipEnd) (below : w.ctx.ipEnd ≠ 0xFFFFFFFF)
    (events : List Event) :
    TableInv (serverRun crypto machine users w events).ctx ∧
      PoolInv (serverRun crypto machine users w events).ctx := by
  have pool : PoolInv w.ctx := by
    refine ⟨base_le_next, next_le_end, fun i live => ?_⟩
    rw [boot.zeroed i] at live
    cases live
  have kept : TableInv (serverRun crypto machine users w events).ctx ∧
      PoolInv (serverRun crypto machine users w events).ctx ∧
      (serverRun crypto machine users w events).ctx.ipEnd ≠ 0xFFFFFFFF := by
    apply Trace.final_invariant (serverStep crypto machine users)
      (fun w : World => TableInv w.ctx ∧ PoolInv w.ctx ∧ w.ctx.ipEnd ≠ 0xFFFFFFFF)
    · rintro w e ⟨inv, pool, below⟩
      have config := (serverStep_frame crypto machine users w e inv).1
      have last : (serverStep crypto machine users w e).1.ctx.ipEnd = w.ctx.ipEnd :=
        congrArg ServerConfig.ipEnd config
      exact ⟨serverStep_tableInv w e inv, serverStep_poolInv w e inv pool below, last ▸ below⟩
    · exact ⟨boot.tableInv, pool, below⟩
  exact ⟨kept.1, kept.2.1⟩

/-- A zeroed table over a nonempty pool keeps its promises through every run. -/
theorem serverRun_tableSound (crypto : Crypto) (machine : Machine) (users : List ServerUser)
    (w : World) (boot : Booted w.ctx) (base_le_next : w.ctx.ipBase ≤ w.ctx.nextIp)
    (next_le_end : w.ctx.nextIp ≤ w.ctx.ipEnd) (below : w.ctx.ipEnd ≠ 0xFFFFFFFF)
    (events : List Event) : TableSound (serverRun crypto machine users w events).ctx := by
  obtain ⟨inv, pool⟩ :=
    serverRun_poolInv crypto machine users w boot base_le_next next_le_end below events
  exact inv.sound pool

def sampleDigests : List (List UInt8 × Vector UInt8 16) :=
  [ -- the OPEN header without and with the encryption flag
    ([0x13, 0x00, 0x00, 0x00, 0x00, 0x00, 0x00, 0x00, 0x6D, 0x77],
      #v[0x39, 0xC6, 0xB5, 0x88, 0x39, 0x23, 0x92, 0x70, 0x10, 0x64, 0xEF, 0xE9, 0xE0, 0xDD, 0x4E,
        0x98]),
    ([0x13, 0x01, 0x00, 0x00, 0x00, 0x00, 0x00, 0x00, 0x6D, 0x77],
      #v[0x36, 0x01, 0x68, 0x0D, 0xE3, 0xA6, 0xB3, 0xDD, 0x33, 0x6A, 0xC5, 0x57, 0xC8, 0x7B, 0x50,
        0x1B]),
    -- the password keys of the users a, b and c
    ([0x6D, 0x77, 0x61],
      #v[0x5F, 0xF0, 0xA0, 0xCA, 0xFF, 0x6A, 0xAD, 0x6E, 0x64, 0x9B, 0x69, 0x69, 0xD9, 0xB0, 0xE8,
        0xBD]),
    ([0x6D, 0x77, 0x62],
      #v[0x44, 0x3C, 0xAF, 0xA4, 0x37, 0x63, 0xEC, 0xEF, 0x31, 0xA1, 0x81, 0x98, 0xDC, 0xC0, 0x4D,
        0xC2]),
    ([0x6D, 0x77, 0x63],
      #v[0x4C, 0x45, 0x58, 0x1A, 0xFE, 0x8A, 0xCC, 0x7C, 0x8F, 0x55, 0x01, 0x36, 0x62, 0x1C, 0x95,
        0x88]),
    -- the session keys of the users a, b and c
    ([0x61, 0x70],
      #v[0x62, 0xC4, 0x28, 0x53, 0x38, 0x30, 0xD8, 0x4F, 0xD8, 0xBC, 0x77, 0xBF, 0x40, 0x25, 0x12,
        0xFC]),
    ([0x62, 0x71],
      #v[0x52, 0x19, 0x6A, 0xA5, 0x4F, 0x16, 0x74, 0xF9, 0xEC, 0xBF, 0x26, 0x43, 0x9C, 0x42, 0xC7,
        0x63]),
    ([0x63, 0x72],
      #v[0x32, 0x4D, 0x8A, 0x1D, 0x3F, 0x81, 0xE7, 0x30, 0xD5, 0x09, 0x9A, 0x48, 0xCE, 0xE0, 0xC5,
        0xB6])]

def sampleBlocks : List (List UInt8 × Vector UInt8 16) :=
  [ ([0x70], #v[0x9C, 0xB2, 0x7E, 0x10, 0x92, 0x33, 0x9B, 0x22, 0xE5, 0x45, 0xA6, 0x9C, 0xD6, 0x1C,
      0x7D, 0x19]),
    ([0x71], #v[0x23, 0x0B, 0xA2, 0xF0, 0x94, 0x5B, 0xFD, 0xEC, 0x22, 0x89, 0x47, 0xDD, 0x39, 0x82,
      0x19, 0xCF]),
    ([0x72], #v[0x60, 0x1A, 0xE6, 0xAA, 0x4E, 0x17, 0x97, 0x58, 0x60, 0x25, 0xA1, 0x42, 0x84, 0x6C,
      0x57, 0xD5])]

def sampleCrypto : Crypto where
  md5 bytes := ((sampleDigests.find? (fun row => row.1 == bytes)).map Prod.snd).getD
    (Vector.replicate 16 0)
  aes128Ecb _ block :=
    ((sampleBlocks.find? (fun row => passwordBlock row.1 == block)).map Prod.snd).getD block

def sampleMachine : Machine := ⟨.little, true⟩

def sampleUser (name pass : UInt8) (text : name ≠ 0) (text' : pass ≠ 0) : ServerUser :=
  ⟨[name], [pass], by simpa using text.symm, by simpa using text'.symm, by simp [serverUserMax],
    by simp [serverUserMax]⟩

theorem sampleName_ne : (0x61 : UInt8) ≠ 0 := by decide

theorem samplePass_ne : (0x70 : UInt8) ≠ 0 := by decide

theorem sampleTok_ne : (0x01020304 : UInt32) ≠ 0 := by decide

def sampleUsers : List ServerUser :=
  [sampleUser 0x61 0x70 (by decide) (by decide), sampleUser 0x62 0x71 (by decide) (by decide),
    sampleUser 0x63 0x72 (by decide) (by decide)]

def sampleCtx (base last next : UInt32) : ServerCtx where
  sess _ := Session.zero
  sidMap _ := -1
  serverIp := ⟨10, 0, 0, 1⟩
  dns := ⟨10, 0, 0, 1⟩
  nextIp := next
  ipBase := base
  ipEnd := last
  subnetBase := 0x0A000000
  subnetMask := 0xFFFFFF00
  subnetSet := true
  tunFd := 3
  tunPool := false

def sampleWorld (base last next : UInt32) : World :=
  ⟨sampleCtx base last next, RateState.init RateLimits.default⟩

theorem sampleWorld_booted (base last next : UInt32) : Booted (sampleWorld base last next).ctx :=
  ⟨fun _ => rfl, fun _ => rfl⟩

def sampleEnv (now : UInt64) (tok : UInt32) (nonzero : tok ≠ 0) : UdpEnv :=
  ⟨Clock.at now, ⟨[], tok, nonzero⟩, true, true⟩

def sampleOpen (u : ServerUser) (enc : UInt8) : List UInt8 :=
  (buildOpen sampleCrypto u.name (encryptPassword sampleCrypto u.pass u.name) 1400 enc 7).getD []

def sampleOpenEvent (u : ServerUser) (peer : SockaddrIn) (now : UInt64) : Event :=
  .udp ⟨sampleOpen u 0, peer⟩ (sampleEnv now 0x01020304 (by decide))

def sampleOpens : List Event :=
  (sampleUsers.zip [0x01010101, 0x02020202, 0x03030303]).map fun (u, addr) =>
    sampleOpenEvent u ⟨addr, 4000⟩ 5000

def lastAddressRun : World :=
  serverRun sampleCrypto sampleMachine sampleUsers
    (sampleWorld 0xFFFFFFFE 0xFFFFFFFF 0xFFFFFFFF) sampleOpens

/-- There the third user's probe wraps to 0.0.0.0, outside the pool. -/
theorem lastAddress_pool_unsound :
    let w := sampleWorld 0xFFFFFFFE 0xFFFFFFFF 0xFFFFFFFF
    Booted w.ctx ∧ w.ctx.ipBase ≤ w.ctx.nextIp ∧ w.ctx.nextIp ≤ w.ctx.ipEnd ∧
      w.ctx.ipEnd - w.ctx.ipBase + 1 ≤ 65536 ∧ (sampleUsers.map ServerUser.name).Nodup ∧
      lastAddressRun = serverRun sampleCrypto sampleMachine sampleUsers w sampleOpens ∧
      ¬ TableSound lastAddressRun.ctx := by
  refine ⟨sampleWorld_booted _ _ _, by decide, by decide, by decide, by decide, rfl, ?_⟩
  intro sound
  have outside : (lastAddressRun.ctx.sess 2).valid = true ∧
      ¬ lastAddressRun.ctx.ipBase ≤ ip4U32 (lastAddressRun.ctx.sess 2).ip := by
    decide +kernel
  exact outside.2 (sound.inPool 2 outside.1).1

theorem serverRun_tableSound_sample :
    TableSound (serverRun sampleCrypto sampleMachine sampleUsers
      (sampleWorld 0x0A000002 0x0A0000FE 0x0A000002) sampleOpens).ctx :=
  serverRun_tableSound sampleCrypto sampleMachine sampleUsers _ (sampleWorld_booted _ _ _)
    (by decide) (by decide) (by decide) sampleOpens

end Iwan
