import Iwan.Server.Uplink

/- The session-table invariant: the sid map is an exact index of the live slots. -/
namespace Iwan

open Function (update update_idem update_of_ne update_self)

def ServerCtx.index (ctx : ServerCtx) (sid : UInt16) : Option Slot := mapSlot (ctx.sidMap sid)

@[simp] theorem mapSlot_slot (i : Slot) : mapSlot (i.val : Int) = some i := by
  have bound := i.isLt
  unfold serverMaxSessions at bound
  have inside : 0 ≤ (i.val : Int) ∧ (i.val : Int) < 256 := by omega
  rw [mapSlot, dif_pos inside]
  rfl

@[simp] theorem mapSlot_free : mapSlot (-1) = none := rfl

theorem mapSlot_some (entry : Int) (i : Slot) (named : mapSlot entry = some i) :
    entry = i.val := by
  unfold mapSlot at named
  split at named
  · rename_i inside
    rw [← Option.some.inj named]
    exact (Int.toNat_of_nonneg inside.1).symm
  · cases named

/-- What makes a session. -/
structure SessionIdentity where
  valid : Bool
  sid : UInt16
  token : UInt32
  ip : Ip4
  xorKey : Vector UInt8 8
  enc : UInt8
  user : List UInt8
deriving DecidableEq

def Session.identity (s : Session) : SessionIdentity :=
  ⟨s.valid, s.sid, s.token, s.ip, s.xorKey, s.enc, s.user⟩

/-- The map has the live sessions; sids, addresses and tokens are their own. -/
structure TableInv (ctx : ServerCtx) : Prop where
  exact : SlotIndex.Exact ctx.sess (fun s => s.valid = true) Session.sid ctx.index
  entries : ∀ sid, 0 ≤ ctx.sidMap sid → ctx.index sid ≠ none
  lowSid : ∀ i, (ctx.sess i).valid = true →
    (ctx.sess i).sid = (ip4U32 (ctx.sess i).ip).toUInt16
  token : ∀ i, (ctx.sess i).valid = true → (ctx.sess i).token ≠ 0
  owner : ∀ i j, (ctx.sess i).valid = true → (ctx.sess j).valid = true →
    (ctx.sess i).user = (ctx.sess j).user → i = j

variable {ctx : ServerCtx}

theorem TableInv.sid_inj (inv : TableInv ctx) (i j : Slot)
    (live : (ctx.sess i).valid = true) (live' : (ctx.sess j).valid = true)
    (same : (ctx.sess i).sid = (ctx.sess j).sid) : i = j :=
  inv.exact.key_inj i j live live' same

theorem TableInv.ip_inj (inv : TableInv ctx) (i j : Slot)
    (live : (ctx.sess i).valid = true) (live' : (ctx.sess j).valid = true)
    (same : (ctx.sess i).ip = (ctx.sess j).ip) : i = j := by
  apply inv.sid_inj i j live live'
  rw [inv.lowSid i live, inv.lowSid j live', same]

theorem hasSid_iff (s : Session) (sid : UInt16) :
    s.hasSid sid = true ↔ s.valid = true ∧ s.sid = sid := by
  simp only [Session.hasSid, Bool.and_eq_true, beq_iff_eq]

theorem hasIp_iff (s : Session) (ip : Ip4) : s.hasIp ip = true ↔ s.valid = true ∧ s.ip = ip := by
  simp only [Session.hasIp, Bool.and_eq_true, beq_iff_eq]

theorem scan_eq_some (ctx : ServerCtx) (test : Session → Bool) (i : Slot)
    (unique : ∀ j, test (ctx.sess j) = true → j = i) (passes : test (ctx.sess i) = true) :
    ctx.scan test = some i := by
  refine Fin.find?_eq_some_iff.mpr ⟨passes, ?_⟩
  intro j before
  by_contra other
  rw [unique j (Bool.not_eq_false _ ▸ other)] at before
  exact lt_irrefl i before

theorem scan_some (ctx : ServerCtx) (test : Session → Bool) (i : Slot)
    (found : ctx.scan test = some i) : test (ctx.sess i) = true :=
  Fin.eq_true_of_find?_eq_some found

theorem scan_none (ctx : ServerCtx) (test : Session → Bool) (missing : ctx.scan test = none)
    (i : Slot) : test (ctx.sess i) = false :=
  Fin.eq_false_of_find?_eq_none missing i

theorem findSession_eq_index (inv : TableInv ctx) (sid : UInt16) :
    findSession ctx sid = ctx.index sid := by
  unfold findSession
  cases named : ctx.index sid with
  | none =>
    have negative : ctx.sidMap sid < 0 := by
      by_contra mapped
      exact inv.entries sid (Int.not_lt.mp mapped) named
    simp only [negative, ↓reduceIte]
  | some i =>
    have entry := mapSlot_some _ i named
    have mapped : ¬ ctx.sidMap sid < 0 := by omega
    have holds := (hasSid_iff _ _).mpr (inv.exact.backed sid i named)
    have target : mapSlot (ctx.sidMap sid) = some i := named
    simp only [mapped, ↓reduceIte, target, holds]

theorem findSession_iff (inv : TableInv ctx) (sid : UInt16) (i : Slot) :
    findSession ctx sid = some i ↔ (ctx.sess i).valid = true ∧ (ctx.sess i).sid = sid := by
  rw [findSession_eq_index inv, inv.exact.lookup]

theorem findSession_none_iff (inv : TableInv ctx) (sid : UInt16) :
    findSession ctx sid = none ↔ ∀ i, (ctx.sess i).valid = true → (ctx.sess i).sid ≠ sid := by
  rw [findSession_eq_index inv, inv.exact.absent]

theorem findSession_eq_scan (inv : TableInv ctx) (sid : UInt16) :
    findSession ctx sid = ctx.scan (·.hasSid sid) := by
  cases found : findSession ctx sid with
  | none =>
    symm
    refine Fin.find?_eq_none_iff.mpr fun i => ?_
    have absent := (findSession_none_iff inv sid).mp found i
    by_contra present
    obtain ⟨live, same⟩ := (hasSid_iff _ _).mp (Bool.not_eq_false _ ▸ present)
    exact absent live same
  | some i =>
    obtain ⟨live, same⟩ := (findSession_iff inv sid i).mp found
    symm
    apply scan_eq_some ctx _ i _ ((hasSid_iff _ _).mpr ⟨live, same⟩)
    intro j carries
    obtain ⟨live', same'⟩ := (hasSid_iff _ _).mp carries
    exact inv.sid_inj j i live' live (same'.trans same.symm)

theorem findSessionByIp_iff (inv : TableInv ctx) (ip : Ip4) (i : Slot) :
    findSessionByIp ctx ip = some i ↔ (ctx.sess i).valid = true ∧ (ctx.sess i).ip = ip := by
  have low : BigEndian.be16 ip.b2 ip.b3 = (ip4U32 ip).toUInt16 :=
    (BigEndian.be32_toUInt16 ip.b0 ip.b1 ip.b2 ip.b3).symm
  unfold findSessionByIp
  dsimp only
  rw [low]
  cases named : ctx.index (ip4U32 ip).toUInt16 with
  | none =>
    have negative : ctx.sidMap (ip4U32 ip).toUInt16 < 0 := by
      by_contra mapped
      exact inv.entries _ (Int.not_lt.mp mapped) named
    rw [if_pos negative]
    constructor
    · intro found
      cases found
    · rintro ⟨live, rfl⟩
      exact absurd (inv.lowSid i live) ((inv.exact.absent _).mp named i live)
  | some j =>
    have entry := mapSlot_some _ j named
    have mapped : ¬ ctx.sidMap (ip4U32 ip).toUInt16 < 0 := by omega
    have target : mapSlot (ctx.sidMap (ip4U32 ip).toUInt16) = some j := named
    obtain ⟨live, same⟩ := inv.exact.backed _ j named
    have holds := (hasSid_iff _ _).mpr ⟨live, same⟩
    rw [if_neg mapped, target]
    simp only [holds, Bool.true_and, beq_iff_eq]
    -- the map entry owns the address, or else nobody does and the scan fails
    split
    · rename_i owns
      constructor
      · intro found
        obtain rfl := Option.some.inj found
        exact ⟨live, owns⟩
      · rintro ⟨live', same'⟩
        rw [inv.ip_inj i j live' live (same'.trans owns.symm)]
    · rename_i other
      constructor
      · intro found
        exact (hasIp_iff _ _).mp (scan_some ctx _ i found)
      · rintro ⟨live', rfl⟩
        have here : i = j := inv.sid_inj i j live' live ((inv.lowSid i live').trans same.symm)
        exact absurd (congrArg (fun k => (ctx.sess k).ip) here).symm other

theorem findSessionByIp_eq_scan (inv : TableInv ctx) (ip : Ip4) :
    findSessionByIp ctx ip = ctx.scan (·.hasIp ip) := by
  cases found : findSessionByIp ctx ip with
  | none =>
    symm
    refine Fin.find?_eq_none_iff.mpr fun i => ?_
    by_contra present
    have owns := (hasIp_iff _ _).mp (Bool.not_eq_false _ ▸ present)
    rw [(findSessionByIp_iff inv ip i).mpr owns] at found
    cases found
  | some i =>
    obtain ⟨live, same⟩ := (findSessionByIp_iff inv ip i).mp found
    symm
    apply scan_eq_some ctx _ i _ ((hasIp_iff _ _).mpr ⟨live, same⟩)
    intro j owns
    obtain ⟨live', same'⟩ := (hasIp_iff _ _).mp owns
    exact inv.ip_inj j i live' live (same'.trans same.symm)

section

variable (ctx : ServerCtx) (i : Slot) (f : Session → Session)

theorem modify_identity (keeps : (f (ctx.sess i)).identity = (ctx.sess i).identity) (j : Slot) :
    ((ctx.modify i f).sess j).identity = (ctx.sess j).identity := by
  by_cases here : j = i
  · subst j
    rw [modify_self, keeps]
  · rw [modify_other ctx i f j here]

theorem hasSid_congr (s t : Session) (same : t.identity = s.identity) (sid : UInt16) :
    t.hasSid sid = s.hasSid sid := by
  have valid := congrArg SessionIdentity.valid same
  have key := congrArg SessionIdentity.sid same
  simp only [Session.identity] at valid key
  simp only [Session.hasSid, valid, key]

theorem findSession_modify (keeps : (f (ctx.sess i)).identity = (ctx.sess i).identity)
    (sid : UInt16) : findSession (ctx.modify i f) sid = findSession ctx sid := by
  have tests : ∀ j, ((ctx.modify i f).sess j).hasSid sid = (ctx.sess j).hasSid sid :=
    fun j => hasSid_congr _ _ (modify_identity ctx i f keeps j) sid
  simp only [findSession, modify_sidMap, ServerCtx.scan, tests]

end

theorem TableInv.modify (inv : TableInv ctx) (i : Slot) (f : Session → Session)
    (keeps : (f (ctx.sess i)).identity = (ctx.sess i).identity) : TableInv (ctx.modify i f) := by
  have field : ∀ {α : Type} (get : SessionIdentity → α) (j : Slot),
      get ((ctx.modify i f).sess j).identity = get (ctx.sess j).identity :=
    fun get j => congrArg get (modify_identity ctx i f keeps j)
  have valid : ∀ j, ((ctx.modify i f).sess j).valid = (ctx.sess j).valid :=
    field SessionIdentity.valid
  constructor
  · apply inv.exact.modify i (f (ctx.sess i))
    · rw [show (f (ctx.sess i)).valid = (ctx.sess i).valid from
        congrArg SessionIdentity.valid keeps]
    · intro _
      exact congrArg SessionIdentity.sid keeps
  · exact inv.entries
  · intro j live
    rw [valid] at live
    have low := inv.lowSid j live
    rw [← show ((ctx.modify i f).sess j).sid = (ctx.sess j).sid from field SessionIdentity.sid j,
      ← show ((ctx.modify i f).sess j).ip = (ctx.sess j).ip from field SessionIdentity.ip j] at low
    exact low
  · intro j live
    rw [valid] at live
    rw [show ((ctx.modify i f).sess j).token = (ctx.sess j).token from
      field SessionIdentity.token j]
    exact inv.token j live
  · intro j k live live' same
    rw [valid] at live live'
    rw [show ((ctx.modify i f).sess j).user = (ctx.sess j).user from field SessionIdentity.user j,
      show ((ctx.modify i f).sess k).user = (ctx.sess k).user from field SessionIdentity.user k]
      at same
    exact inv.owner j k live live' same

def Session.wiped (s : Session) : Session :=
  if s.valid then { s with valid := false, xorKey := Vector.replicate 8 0, token := 0 } else s

theorem wiped_valid (s : Session) : s.wiped.valid = false := by
  unfold Session.wiped
  split
  · rfl
  · rename_i dead
    exact Bool.not_eq_true _ ▸ dead

theorem sessWipe_self (ctx : ServerCtx) (i : Slot) :
    (sessWipe ctx i).sess i = (ctx.sess i).wiped := by
  unfold sessWipe Session.wiped
  cases live : (ctx.sess i).valid <;> simp [live]

theorem sessWipe_other (ctx : ServerCtx) (i j : Slot) (other : j ≠ i) :
    (sessWipe ctx i).sess j = ctx.sess j := by
  unfold sessWipe
  dsimp only
  split
  · rfl
  · exact update_of_ne other _ _

private theorem sessWipe_index (ctx : ServerCtx) (i : Slot) (live : (ctx.sess i).valid = true) :
    (sessWipe ctx i).index = update ctx.index (ctx.sess i).sid none := by
  funext sid
  simp only [ServerCtx.index, sessWipe, live, Bool.not_true, Bool.false_eq_true, ↓reduceIte]
  by_cases here : sid = (ctx.sess i).sid
  · rw [here, update_self, update_self, mapSlot_free]
  · rw [update_of_ne here, update_of_ne here]
    rfl

private theorem sessWipe_live (ctx : ServerCtx) (i j : Slot)
    (live : ((sessWipe ctx i).sess j).valid = true) :
    (ctx.sess j).valid = true ∧ (sessWipe ctx i).sess j = ctx.sess j := by
  by_cases here : j = i
  · subst j
    rw [sessWipe_self, wiped_valid] at live
    cases live
  · rw [sessWipe_other ctx i j here] at live ⊢
    exact ⟨live, rfl⟩

theorem TableInv.sessWipe (inv : TableInv ctx) (i : Slot) : TableInv (sessWipe ctx i) := by
  by_cases live : (ctx.sess i).valid = true
  · constructor
    · rw [sessWipe_index ctx i live]
      have slots : (Iwan.sessWipe ctx i).sess = update ctx.sess i (ctx.sess i).wiped := by
        funext j
        by_cases here : j = i
        · rw [here, sessWipe_self, update_self]
        · rw [sessWipe_other ctx i j here, update_of_ne here]
      rw [slots]
      exact inv.exact.erase i _ live (by rw [wiped_valid]; exact Bool.false_ne_true)
    · intro sid mapped
      rw [sessWipe_index ctx i live]
      simp only [Iwan.sessWipe, live, Bool.not_true, Bool.false_eq_true, ↓reduceIte] at mapped
      by_cases here : sid = (ctx.sess i).sid
      · rw [here, update_self] at mapped
        omega
      · rw [update_of_ne here] at mapped ⊢
        exact inv.entries sid mapped
    · intro j live'
      obtain ⟨before, same⟩ := sessWipe_live ctx i j live'
      rw [same]
      exact inv.lowSid j before
    · intro j live'
      obtain ⟨before, same⟩ := sessWipe_live ctx i j live'
      rw [same]
      exact inv.token j before
    · intro j k live' live''
      obtain ⟨before, same⟩ := sessWipe_live ctx i j live'
      obtain ⟨before', same'⟩ := sessWipe_live ctx i k live''
      rw [same, same']
      exact inv.owner j k before before'
  · have unchanged : Iwan.sessWipe ctx i = ctx := by
      simp only [Iwan.sessWipe, Bool.not_eq_true _ ▸ live, Bool.not_false, ↓reduceIte]
    rw [unchanged]
    exact inv

section

variable (test : Session → Bool)

variable (slots : List Slot) (ctx : ServerCtx)

theorem TableInv.wipeLoop (inv : TableInv ctx) : TableInv (wipeLoop test slots ctx).1 := by
  induction slots generalizing ctx with
  | nil => exact inv
  | cons i rest ih =>
    unfold Iwan.wipeLoop
    split
    · exact ih _ (inv.sessWipe i)
    · exact ih _ inv

theorem wipeLoop_other (j : Slot) (outside : j ∉ slots) :
    (wipeLoop test slots ctx).1.sess j = ctx.sess j := by
  induction slots generalizing ctx with
  | nil => rfl
  | cons i rest ih =>
    have other := List.ne_of_not_mem_cons outside
    have outside := List.not_mem_of_not_mem_cons outside
    unfold wipeLoop
    split
    · exact (ih _ outside).trans (sessWipe_other ctx i j other)
    · exact ih _ outside

theorem wipeLoop_sess (distinct : slots.Nodup) (j : Slot) : (wipeLoop test slots ctx).1.sess j =
      if j ∈ slots ∧ test (ctx.sess j) = true then (ctx.sess j).wiped else ctx.sess j := by
  induction slots generalizing ctx with
  | nil => simp only [wipeLoop, List.not_mem_nil, false_and, ↓reduceIte]
  | cons i rest ih =>
    obtain ⟨apart, distinct⟩ := List.nodup_cons.mp distinct
    unfold wipeLoop
    by_cases here : j = i
    · subst j
      split
      · rename_i passes
        simp only [List.mem_cons, true_or, passes, and_self, ↓reduceIte]
        rw [wipeLoop_other test rest _ i apart, sessWipe_self]
      · rename_i fails
        simp only [fails, Bool.false_eq_true, and_false, ↓reduceIte]
        exact wipeLoop_other test rest ctx i apart
    · have member : j ∈ i :: rest ↔ j ∈ rest := by simp only [List.mem_cons, here, false_or]
      simp only [member]
      split
      · exact (ih _ distinct).trans (by rw [sessWipe_other ctx i j here])
      · exact ih _ distinct

theorem wipeLoop_effects (distinct : slots.Nodup) : (wipeLoop test slots ctx).2 =
      (slots.filter fun i => test (ctx.sess i)).map Effect.wipe := by
  induction slots generalizing ctx with
  | nil => rfl
  | cons i rest ih =>
    obtain ⟨apart, distinct⟩ := List.nodup_cons.mp distinct
    have others : rest.filter (fun k => test ((sessWipe ctx i).sess k)) =
        rest.filter fun k => test (ctx.sess k) := by
      apply List.filter_congr
      intro k member
      rw [sessWipe_other ctx i k fun same => apart (same ▸ member)]
    unfold wipeLoop
    rw [List.filter_cons]
    split
    · rw [List.map_cons, ← others, ← ih _ distinct]
    · exact ih _ distinct

theorem wipeLoop_none
    (fails : ∀ j ∈ slots, test (ctx.sess j) = false) : wipeLoop test slots ctx = (ctx, []) := by
  induction slots with
  | nil => rfl
  | cons i rest ih =>
    rw [wipeLoop, fails i List.mem_cons_self]
    exact ih fun j member => fails j (List.mem_cons_of_mem i member)

theorem wipeLoop_single (distinct : slots.Nodup) (i : Slot)
    (member : i ∈ slots) (passes : test (ctx.sess i) = true)
    (unique : ∀ j, test (ctx.sess j) = true → j = i) :
    wipeLoop test slots ctx = (sessWipe ctx i, [.wipe i]) := by
  have others : ∀ j, j ≠ i → test (ctx.sess j) = false :=
    fun j other => Bool.eq_false_iff.mpr fun holds => other (unique j holds)
  induction slots with
  | nil => cases member
  | cons k rest ih =>
    obtain ⟨apart, distinct⟩ := List.nodup_cons.mp distinct
    rw [wipeLoop]
    by_cases here : k = i
    · subst k
      have quiet : wipeLoop test rest (sessWipe ctx i) = (sessWipe ctx i, []) := by
        apply wipeLoop_none
        intro j inside
        have other : j ≠ i := fun same => apart (same ▸ inside)
        rw [sessWipe_other ctx i j other]
        exact others j other
      simp only [passes, ↓reduceIte, quiet]
    · rw [others k here]
      exact ih distinct (List.mem_of_ne_of_mem (Ne.symm here) member)

end

theorem TableInv.wipeWhere (inv : TableInv ctx) (test : Session → Bool) :
    TableInv (wipeWhere ctx test).1 :=
  TableInv.wipeLoop test _ ctx inv

theorem wipeWhere_sess (ctx : ServerCtx) (test : Session → Bool) (j : Slot) :
    (wipeWhere ctx test).1.sess j =
      if test (ctx.sess j) = true then (ctx.sess j).wiped else ctx.sess j := by
  rw [wipeWhere, wipeLoop_sess test _ ctx (List.nodup_finRange _)]
  simp only [List.mem_finRange, true_and]

theorem wipeWhere_effects (ctx : ServerCtx) (test : Session → Bool) :
    (wipeWhere ctx test).2 =
      ((List.finRange serverMaxSessions).filter fun i => test (ctx.sess i)).map Effect.wipe :=
  wipeLoop_effects test _ ctx (List.nodup_finRange _)

theorem install_self (ctx : ServerCtx) (slot : Slot) (s : Session) :
    (ctx.install slot s).sess slot = s := by
  simp only [ServerCtx.install, update_self]

theorem install_other (ctx : ServerCtx) (slot : Slot) (s : Session) (j : Slot)
    (other : j ≠ slot) : (ctx.install slot s).sess j = ctx.sess j := by
  simp only [ServerCtx.install, update_of_ne other]

private theorem install_index (ctx : ServerCtx) (slot : Slot) (s : Session) :
    (ctx.install slot s).index = update ctx.index s.sid (some slot) := by
  funext sid
  simp only [ServerCtx.index, ServerCtx.install]
  by_cases here : sid = s.sid
  · rw [here, update_self, update_self, mapSlot_slot]
  · rw [update_of_ne here, update_of_ne here]
    rfl

theorem TableInv.install (inv : TableInv ctx) (slot : Slot) (s : Session)
    (free : (ctx.sess slot).valid = false) (fresh : findSession ctx s.sid = none)
    (live : s.valid = true) (low : s.sid = (ip4U32 s.ip).toUInt16) (token : s.token ≠ 0)
    (user : ∀ j, (ctx.sess j).valid = true → (ctx.sess j).user ≠ s.user) :
    TableInv (ctx.install slot s) := by
  have cases : ∀ j, ((ctx.install slot s).sess j).valid = true →
      (j = slot ∧ (ctx.install slot s).sess j = s) ∨
      (j ≠ slot ∧ (ctx.sess j).valid = true ∧ (ctx.install slot s).sess j = ctx.sess j) := by
    intro j live'
    by_cases here : j = slot
    · subst j
      exact .inl ⟨rfl, install_self ctx slot s⟩
    · rw [install_other ctx slot s j here] at live' ⊢
      exact .inr ⟨here, live', rfl⟩
  constructor
  · rw [install_index]
    apply inv.exact.insert slot s
    · rw [free]
      exact Bool.false_ne_true
    · rw [← findSession_eq_index inv]
      exact fresh
    · exact live
  · intro sid mapped
    rw [install_index]
    by_cases here : sid = s.sid
    · rw [here, update_self]
      exact Option.some_ne_none slot
    · simp only [ServerCtx.install, update_of_ne here] at mapped
      rw [update_of_ne here]
      exact inv.entries sid mapped
  · intro j live'
    rcases cases j live' with ⟨rfl, same⟩ | ⟨_, before, same⟩
    · rw [same]
      exact low
    · rw [same]
      exact inv.lowSid j before
  · intro j live'
    rcases cases j live' with ⟨rfl, same⟩ | ⟨_, before, same⟩
    · rw [same]
      exact token
    · rw [same]
      exact inv.token j before
  · intro j k live' live'' names
    rcases cases j live' with ⟨here, same⟩ | ⟨_, before, same⟩ <;>
      rcases cases k live'' with ⟨here', same'⟩ | ⟨_, before', same'⟩ <;>
      rw [same, same'] at names
    · exact here.trans here'.symm
    · exact absurd names.symm (user k before')
    · exact absurd names (user j before)
    · exact inv.owner j k before before' names

theorem install_sessWipe (ctx : ServerCtx) (slot : Slot) (s : Session)
    (live : (ctx.sess slot).valid = true) (sid : s.sid = (ctx.sess slot).sid) :
    (sessWipe ctx slot).install slot s = ctx.install slot s := by
  simp only [ServerCtx.install, sessWipe, live, Bool.not_true, Bool.false_eq_true, ↓reduceIte,
    update_idem, sid]

theorem sessWipe_findSession (inv : TableInv ctx) (i : Slot)
    (live : (ctx.sess i).valid = true) : findSession (sessWipe ctx i) (ctx.sess i).sid = none := by
  rw [findSession_none_iff (inv.sessWipe i)]
  intro j live' same
  obtain ⟨before, kept⟩ := sessWipe_live ctx i j live'
  rw [kept] at same
  have here := inv.sid_inj j i before live same
  subst j
  rw [sessWipe_self, wiped_valid] at live'
  cases live'

theorem TableInv.reinstall (inv : TableInv ctx) (slot : Slot) (s : Session)
    (live : (ctx.sess slot).valid = true) (sid : s.sid = (ctx.sess slot).sid)
    (user : s.user = (ctx.sess slot).user) (live' : s.valid = true)
    (low : s.sid = (ip4U32 s.ip).toUInt16) (token : s.token ≠ 0) :
    TableInv (ctx.install slot s) := by
  rw [← install_sessWipe ctx slot s live sid]
  apply (inv.sessWipe slot).install slot s
  · rw [sessWipe_self, wiped_valid]
  · rw [sid]
    exact sessWipe_findSession inv slot live
  · exact live'
  · exact low
  · exact token
  · intro j alive names
    obtain ⟨before, kept⟩ := sessWipe_live ctx slot j alive
    rw [kept, user] at names
    have here := inv.owner j slot before live names
    subst j
    rw [sessWipe_self, wiped_valid] at alive
    cases alive

theorem TableInv.setNextIp (inv : TableInv ctx) (next : UInt32) :
    TableInv { ctx with nextIp := next } :=
  ⟨inv.exact, inv.entries, inv.lowSid, inv.token, inv.owner⟩

end Iwan
