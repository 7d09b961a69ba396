import Iwan.Lib.Pool
import Iwan.Lib.Trace

/- A relayed connection and the two direction threads, interleaved (relay_proxy.c). -/
namespace Iwan

open Pool
open Function (update update_eq_self update_idem update_of_ne update_self)

/-- A connection: the directions that have it, the snapshots that reference it, and how often it
was freed. -/
structure RpConn where
  dirs : Nat
  inUse : Nat
  retired : Bool
  freed : Nat
deriving DecidableEq, Repr

def RpConn.new : RpConn := ⟨2, 0, false, 0⟩

/-- Where a direction thread stands. -/
inductive RpDirStage where
  | top
  | holding
  | serviced
  | exiting
  | leaving
  | exited
deriving DecidableEq, Repr

/-- Where a connection thread stands. -/
inductive RpStage where
  | handshake
  | reserving (n : Int)
  | reserved
  | checked
  | answered
  | registering
  | refusing
  | rollback
  | gone (conn : Option Nat)
deriving DecidableEq, Repr

/-- Direction `true` is up; `fault` records that freed memory was dereferenced. -/
structure RelayWorld where
  maxEst : Nat
  estN : Int
  conns : List RpConn
  arr : Bool → List Nat
  snap : Bool → List Nat
  stage : Bool → RpDirStage
  dead : Bool → Bool
  stop : Bool
  threads : List RpStage
  fault : Bool

def RelayWorld.start (maxEst : Nat) : RelayWorld :=
  ⟨maxEst, 0, [], fun _ => [], fun _ => [], fun _ => .top, fun _ => false, false, [], false⟩

def RelayWorld.setArr (s : RelayWorld) (d : Bool) (ids : List Nat) : RelayWorld :=
  { s with arr := update s.arr d ids }

def RelayWorld.setSnap (s : RelayWorld) (d : Bool) (ids : List Nat) : RelayWorld :=
  { s with snap := update s.snap d ids }

def RelayWorld.setConn (s : RelayWorld) (id : Nat) (c : RpConn) : RelayWorld :=
  { s with conns := s.conns.set id c }

def rpTouch (s : RelayWorld) (id : Nat) : RelayWorld :=
  match s.conns[id]? with
  | none => { s with fault := true }
  | some c => if c.freed = 0 then s else { s with fault := true }

def rpReapMaybe (s : RelayWorld) (id : Nat) : RelayWorld :=
  match s.conns[id]? with
  | none => s
  | some c =>
    if c.retired && c.inUse == 0 then
      { s.setConn id { c with freed := c.freed + 1 } with estN := s.estN - 1 }
    else s

def rpRelease (s : RelayWorld) (id : Nat) : RelayWorld :=
  let s := rpTouch s id
  match s.conns[id]? with
  | none => s
  | some c =>
    if c.dirs = 1 then
      rpReapMaybe (s.setConn id { c with dirs := 0, retired := true }) id
    else s.setConn id { c with dirs := c.dirs - 1 }

def rpUnref (s : RelayWorld) (id : Nat) : RelayWorld :=
  let s := rpTouch s id
  match s.conns[id]? with
  | none => s
  | some c =>
    if c.inUse = 1 then
      rpReapMaybe (s.setConn id { c with inUse := 0 }) id
    else s.setConn id { c with inUse := c.inUse - 1 }

def rpHold (d : Bool) (s : RelayWorld) (id : Nat) : RelayWorld :=
  let s := rpTouch s id
  match s.conns[id]? with
  | none => s
  | some c =>
    (s.setConn id { c with inUse := c.inUse + 1 }).setSnap d (s.snap d ++ [id])

def rpSnapshot (s : RelayWorld) (d : Bool) : RelayWorld := (s.arr d).foldl (rpHold d) s

def rpDrop (d : Bool) (s : RelayWorld) (id : Nat) : RelayWorld :=
  rpUnref (s.setSnap d ((s.snap d).erase id)) id

def rpSnapUnrefAll (s : RelayWorld) (d : Bool) : RelayWorld := (s.snap d).foldl (rpDrop d) s

def rpRetireOne (d : Bool) (ended : Nat → Bool) (s : RelayWorld) (id : Nat) : RelayWorld :=
  if ended id then rpRelease (s.setArr d (swapRemove (s.arr d) id)) id else rpTouch s id

def rpRetireEnded (s : RelayWorld) (d : Bool) (ended : Nat → Bool) : RelayWorld :=
  (s.snap d).foldl (rpRetireOne d ended) s

def rpRetireLast (d : Bool) (s : RelayWorld) (id : Nat) : RelayWorld :=
  rpRelease (s.setArr d (s.arr d).dropLast) id

def rpDirRetireAll (s : RelayWorld) (d : Bool) : RelayWorld :=
  (s.arr d).reverse.foldl (rpRetireLast d) s

inductive RpPoll where
  | ready
  | interrupted
  | failed
deriving DecidableEq, Repr

/-- What a direction thread meets outside. -/
structure RpDirInput where
  allocSnap : Bool
  allocPoll : Bool
  poll : RpPoll
  ended : Nat → Bool

def RelayWorld.setStage (s : RelayWorld) (d : Bool) (stage : RpDirStage) : RelayWorld :=
  { s with stage := update s.stage d stage }

/-- A critical section of a direction thread. -/
def rpDirStep (s : RelayWorld) (d : Bool) (input : RpDirInput) : RelayWorld :=
  match s.stage d with
  | .top =>
    -- the snapshot buffer of an empty array is not grown
    if s.stop || !input.allocSnap && !(s.arr d).isEmpty then s.setStage d .exiting
    else (rpSnapshot s d).setStage d .holding
  | .holding =>
    if !input.allocPoll then s.setStage d .exiting
    else
      match input.poll with
      | .interrupted => (rpSnapUnrefAll s d).setStage d .top
      | .failed => s.setStage d .exiting
      | .ready => ((s.snap d).foldl rpTouch s).setStage d .serviced
  | .serviced => (rpSnapUnrefAll (rpRetireEnded s d input.ended) d).setStage d .top
  | .exiting =>
    let s := rpSnapUnrefAll (rpDirRetireAll s d) d
    { s.setStage d .leaving with dead := update s.dead d true }
  | .leaving => { s.setStage d .exited with stop := true }
  | .exited => s

/-- What a connection thread meets outside. -/
structure RpThreadInput where
  ok : Bool
  spurious : Bool
  alloc : Bool
  nonblock : Bool
  growUp : Bool
  growDn : Bool
deriving DecidableEq, Repr

def rpPlaneDead (s : RelayWorld) : Bool := s.dead true || s.dead false

def RelayWorld.setThread (s : RelayWorld) (k : Nat) (stage : RpStage) : RelayWorld :=
  { s with threads := s.threads.set k stage }

def rpRegister (s : RelayWorld) (k : Nat) (input : RpThreadInput) : RelayWorld :=
  if rpPlaneDead s || !input.growUp || !input.growDn then s.setThread k .refusing
  else
    { s.setThread k (.gone (some s.conns.length)) with
      conns := s.conns ++ [RpConn.new], arr := fun d => s.arr d ++ [s.conns.length] }

/-- A critical section of a connection thread. -/
def rpThreadStep (s : RelayWorld) (k : Nat) (stage : RpStage) (input : RpThreadInput) :
    RelayWorld :=
  match stage with
  | .handshake => s.setThread k (if input.ok then .reserving s.estN else .gone none)
  | .reserving n =>
    if n < s.maxEst then
      if s.estN = n ∧ input.spurious = false then
        { s.setThread k .reserved with estN := s.estN + 1 }
      else s.setThread k (.reserving s.estN)
    else s.setThread k (.gone none)
  | .reserved => s.setThread k (if rpPlaneDead s then .rollback else .checked)
  | .checked => s.setThread k (if input.ok then .answered else .rollback)
  | .answered =>
    s.setThread k (if !input.ok then .rollback
      else if input.alloc && input.nonblock then .registering else .refusing)
  | .registering => rpRegister s k input
  | .refusing => { s.setThread k (.gone none) with estN := s.estN - 1 }
  | .rollback => { s.setThread k (.gone none) with estN := s.estN - 1 }
  | .gone _ => s

inductive RelayEvent where
  | accept
  | thread (k : Nat) (input : RpThreadInput)
  | dir (d : Bool) (input : RpDirInput)
  | halt

def relayStep (s : RelayWorld) (e : RelayEvent) : RelayWorld :=
  match e with
  | .accept => { s with threads := s.threads ++ [.handshake] }
  | .thread k input =>
    match s.threads[k]? with
    | none => s
    | some stage => rpThreadStep s k stage input
  | .dir d input => rpDirStep s d input
  | .halt => { s with stop := true }

def relayTick (s : RelayWorld) (e : RelayEvent) : RelayWorld × List Empty := (relayStep s e, [])

def relayRun (maxEst : Nat) (events : List RelayEvent) : RelayWorld :=
  Trace.final relayTick (RelayWorld.start maxEst) events

def RpStage.holds : RpStage → Bool
  | .reserved => true
  | .checked => true
  | .answered => true
  | .registering => true
  | .refusing => true
  | .rollback => true
  | .handshake => false
  | .reserving _ => false
  | .gone _ => false

def RpConn.open (c : RpConn) : Bool := c.freed == 0

def RelayWorld.holders (s : RelayWorld) : Nat := s.threads.countP (·.holds)

def RelayWorld.opened (s : RelayWorld) : Nat := s.conns.countP (·.open)

def RelayWorld.registered (s : RelayWorld) (id : Nat) : Nat :=
  (s.arr true).count id + (s.arr false).count id

def RelayWorld.referenced (s : RelayWorld) (id : Nat) : Nat :=
  (s.snap true).count id + (s.snap false).count id

def RpConn.Tallied (c : RpConn) (registered referenced : Nat) : Prop :=
  (c.freed = 0 ∧ c.dirs = registered ∧ c.inUse = referenced ∧ (c.retired = true ↔ c.dirs = 0) ∧
      0 < registered + referenced) ∨
    (c.freed = 1 ∧ registered = 0 ∧ referenced = 0)

/-- The counters of the connections are what the arrays and snapshots hold. -/
structure RelayWorld.Refs (s : RelayWorld) : Prop where
  clean : s.fault = false
  known : ∀ id, 0 < s.registered id + s.referenced id → id < s.conns.length
  tallied : ∀ (id : Nat) (c : RpConn), s.conns[id]? = some c →
    c.Tallied (s.registered id) (s.referenced id)
  counted : s.estN = s.holders + s.opened

variable {d : Bool} {id : Nat}

theorem RelayWorld.registered_pos (s : RelayWorld) (member : id ∈ s.arr d) :
    0 < s.registered id := by
  have positive : 0 < (s.arr d).count id := List.count_pos_iff.mpr member
  unfold RelayWorld.registered
  cases d <;> omega

theorem RelayWorld.referenced_pos (s : RelayWorld) (member : id ∈ s.snap d) :
    0 < s.referenced id := by
  have positive : 0 < (s.snap d).count id := List.count_pos_iff.mpr member
  unfold RelayWorld.referenced
  cases d <;> omega

theorem RelayWorld.Refs.live {s : RelayWorld} (refs : s.Refs) (id : Nat)
    (held : 0 < s.registered id + s.referenced id) :
    ∃ c, s.conns[id]? = some c ∧ c.freed = 0 ∧ c.dirs = s.registered id ∧
      c.inUse = s.referenced id ∧ (c.retired = true ↔ c.dirs = 0) := by
  have inside := refs.known id held
  refine ⟨s.conns[id], List.getElem?_eq_getElem inside, ?_⟩
  rcases refs.tallied id _ (List.getElem?_eq_getElem inside) with live | freed
  · exact ⟨live.1, live.2.1, live.2.2.1, live.2.2.2.1⟩
  · omega

variable {s : RelayWorld} {c : RpConn}

theorem rpTouch_live (here : s.conns[id]? = some c) (live : c.freed = 0) : rpTouch s id = s := by
  rw [rpTouch, here]
  exact if_pos live

variable {t : RelayWorld}

theorem RelayWorld.Refs.put (refs : s.Refs)
    (c' : RpConn) (here : s.conns[id]? = some c) (live : c.freed = 0)
    (conns : t.conns = s.conns.set id c')
    (fault : t.fault = s.fault) (threads : t.threads = s.threads)
    (estN : t.estN = s.estN - c'.freed)
    (others : ∀ x, x ≠ id → t.registered x = s.registered x ∧ t.referenced x = s.referenced x)
    (tallied : c'.Tallied (t.registered id) (t.referenced id)) : t.Refs := by
  have inside : id < s.conns.length := (List.getElem?_eq_some_iff.mp here).1
  refine ⟨fault.trans refs.clean, fun x held => ?_, fun x cx found => ?_, ?_⟩
  · rw [conns, List.length_set]
    by_cases same : x = id
    · rw [same]
      exact inside
    · rw [(others x same).1, (others x same).2] at held
      exact refs.known x held
  · rw [conns, List.getElem?_set] at found
    by_cases same : id = x
    · rw [if_pos same, if_pos inside, Option.some.injEq] at found
      rw [← found, ← same]
      exact tallied
    · rw [if_neg same] at found
      rw [(others x (Ne.symm same)).1, (others x (Ne.symm same)).2]
      exact refs.tallied x cx found
  · have moved := countP_write (·.open) c' here
    have before := refs.counted
    have wasOpen : c.open = true := by rw [RpConn.open, live]; rfl
    rw [wasOpen, if_pos rfl] at moved
    unfold RelayWorld.holders RelayWorld.opened at *
    rw [estN, threads, conns, before]
    rcases tallied with ⟨free, -⟩ | ⟨freed, -⟩
    · have isOpen : c'.open = true := by rw [RpConn.open, free]; rfl
      rw [isOpen, if_pos rfl] at moved
      omega
    · have isShut : c'.open = false := by rw [RpConn.open, freed]; rfl
      rw [isShut, if_neg Bool.false_ne_true] at moved
      omega

theorem count_update (lists : Bool → List Nat) (d : Bool) (rest : List Nat) (x : Nat) :
    (update lists d rest true).count x + (update lists d rest false).count x +
        (lists d).count x =
      (lists true).count x + (lists false).count x + rest.count x := by
  cases d
  · rw [update_self, update_of_ne (by decide)]
    omega
  · rw [update_self, update_of_ne (by decide)]
    omega

theorem rpReapMaybe_of (here : s.conns[id]? = some c) : rpReapMaybe s id =
      if c.retired = true ∧ c.inUse = 0 then
        { s.setConn id { c with freed := c.freed + 1 } with estN := s.estN - 1 }
      else s := by
  rw [rpReapMaybe, here]
  simp only [Bool.and_eq_true, beq_iff_eq]

theorem rpRelease_of (here : s.conns[id]? = some c) (live : c.freed = 0) :
    rpRelease s id =
      if c.dirs = 1 then rpReapMaybe (s.setConn id { c with dirs := 0, retired := true }) id
      else s.setConn id { c with dirs := c.dirs - 1 } := by
  simp only [rpRelease, rpTouch_live here live, here]

theorem rpUnref_of (here : s.conns[id]? = some c) (live : c.freed = 0) :
    rpUnref s id =
      if c.inUse = 1 then rpReapMaybe (s.setConn id { c with inUse := 0 }) id
      else s.setConn id { c with inUse := c.inUse - 1 } := by
  simp only [rpUnref, rpTouch_live here live, here]

theorem rpHold_of (here : s.conns[id]? = some c) (live : c.freed = 0) :
    rpHold d s id =
      (s.setConn id { c with inUse := c.inUse + 1 }).setSnap d (s.snap d ++ [id]) := by
  simp only [rpHold, rpTouch_live here live, here]

theorem RelayWorld.registered_setArr (s : RelayWorld) (d : Bool) (ids : List Nat) (x : Nat) :
    (s.setArr d ids).registered x + (s.arr d).count x = s.registered x + ids.count x :=
  count_update s.arr d ids x

theorem RelayWorld.referenced_setSnap (s : RelayWorld) (d : Bool) (ids : List Nat) (x : Nat) :
    (s.setSnap d ids).referenced x + (s.snap d).count x = s.referenced x + ids.count x :=
  count_update s.snap d ids x

theorem RelayWorld.Refs.reap (refs : s.Refs)
    (c' : RpConn) (here : s.conns[id]? = some c) (live : c.freed = 0) (stays : c'.freed = 0)
    (conns : t.conns = s.conns.set id c') (fault : t.fault = s.fault)
    (threads : t.threads = s.threads) (estN : t.estN = s.estN)
    (others : ∀ x, x ≠ id → t.registered x = s.registered x ∧ t.referenced x = s.referenced x)
    (dirs : c'.dirs = t.registered id) (inUse : c'.inUse = t.referenced id)
    (retired : c'.retired = true ↔ c'.dirs = 0) : (rpReapMaybe t id).Refs := by
  have inside : id < s.conns.length := (List.getElem?_eq_some_iff.mp here).1
  have there : t.conns[id]? = some c' := by
    rw [conns, List.getElem?_set_self inside]
  rw [rpReapMaybe_of there]
  by_cases last : c'.retired = true ∧ c'.inUse = 0
  · rw [if_pos last]
    have unheld := retired.mp last.1
    refine refs.put { c' with freed := c'.freed + 1 } here live ?_ fault threads ?_
      others ?_
    · show t.conns.set id _ = _
      rw [conns, List.set_set]
    · show t.estN - 1 = _
      rw [estN, stays]
      rfl
    · refine .inr ⟨by rw [stays], ?_, ?_⟩
      · show t.registered id = 0
        omega
      · show t.referenced id = 0
        rw [← inUse]
        exact last.2
  · rw [if_neg last]
    refine refs.put c' here live conns fault threads ?_ others
      (.inl ⟨stays, dirs, inUse, retired, ?_⟩)
    · rw [estN, stays]
      simp
    · by_contra none
      exact last ⟨retired.mpr (by omega), by omega⟩

theorem rpRelease_refs (refs : s.Refs) (d : Bool) (id : Nat) (rest : List Nat)
    (member : id ∈ s.arr d) (removed : rest.Perm ((s.arr d).erase id)) :
    (rpRelease (s.setArr d rest) id).Refs := by
  have positive : 0 < (s.arr d).count id := List.count_pos_iff.mpr member
  have total := s.registered_setArr d rest id
  have gone : rest.count id + 1 = (s.arr d).count id := by
    rw [removed.count_eq, List.count_erase_self]
    omega
  have others : ∀ x, x ≠ id →
      (s.setArr d rest).registered x = s.registered x ∧
        (s.setArr d rest).referenced x = s.referenced x := by
    intro x other
    have same : rest.count x = (s.arr d).count x := by
      rw [removed.count_eq, List.count_erase_of_ne other]
    have each := s.registered_setArr d rest x
    exact ⟨by omega, rfl⟩
  obtain ⟨c, here, live, dirs, inUse, retired⟩ := refs.live id (by omega)
  rw [rpRelease_of (s := s.setArr d rest) here live]
  by_cases last : c.dirs = 1
  · rw [if_pos last]
    refine refs.reap { c with dirs := 0, retired := true } here live live rfl rfl rfl rfl
      others ?_ inUse (by simp)
    show 0 = (s.setArr d rest).registered id
    omega
  · rw [if_neg last]
    refine refs.put { c with dirs := c.dirs - 1 } here live rfl rfl rfl ?_ others
      (.inl ⟨live, ?_, inUse, ?_, ?_⟩)
    · show s.estN = s.estN - (c.freed : Int)
      rw [live]
      simp
    · show c.dirs - 1 = (s.setArr d rest).registered id
      omega
    · show c.retired = true ↔ c.dirs - 1 = 0
      rw [retired]
      omega
    · show 0 < (s.setArr d rest).registered id + _
      omega

theorem rpDrop_refs (refs : s.Refs) (d : Bool) (id : Nat)
    (member : id ∈ s.snap d) : (rpDrop d s id).Refs := by
  have positive : 0 < (s.snap d).count id := List.count_pos_iff.mpr member
  have total := s.referenced_setSnap d ((s.snap d).erase id) id
  have gone : ((s.snap d).erase id).count id + 1 = (s.snap d).count id := by
    rw [List.count_erase_self]
    omega
  have others : ∀ x, x ≠ id →
      (s.setSnap d ((s.snap d).erase id)).registered x = s.registered x ∧
        (s.setSnap d ((s.snap d).erase id)).referenced x = s.referenced x := by
    intro x other
    have same : ((s.snap d).erase id).count x = (s.snap d).count x := List.count_erase_of_ne other
    have each := s.referenced_setSnap d ((s.snap d).erase id) x
    exact ⟨rfl, by omega⟩
  obtain ⟨c, here, live, dirs, inUse, retired⟩ := refs.live id (by omega)
  rw [rpDrop, rpUnref_of (s := s.setSnap d ((s.snap d).erase id)) here live]
  by_cases last : c.inUse = 1
  · rw [if_pos last]
    refine refs.reap { c with inUse := 0 } here live live rfl rfl rfl rfl others dirs ?_
      retired
    show 0 = (s.setSnap d ((s.snap d).erase id)).referenced id
    omega
  · rw [if_neg last]
    refine refs.put { c with inUse := c.inUse - 1 } here live rfl rfl rfl ?_ others
      (.inl ⟨live, dirs, ?_, retired, ?_⟩)
    · show s.estN = s.estN - (c.freed : Int)
      rw [live]
      simp
    · show c.inUse - 1 = (s.setSnap d ((s.snap d).erase id)).referenced id
      omega
    · show 0 < _ + (s.setSnap d ((s.snap d).erase id)).referenced id
      omega

theorem rpHold_refs (refs : s.Refs) (d : Bool) (id : Nat)
    (member : id ∈ s.arr d) : (rpHold d s id).Refs := by
  have registered := s.registered_pos member
  obtain ⟨c, here, live, dirs, inUse, retired⟩ := refs.live id (by omega)
  rw [rpHold_of here live]
  refine refs.put { c with inUse := c.inUse + 1 } here live rfl rfl rfl ?_ ?_
    (.inl ⟨live, dirs, ?_, retired, ?_⟩)
  · show s.estN = s.estN - (c.freed : Int)
    rw [live]
    simp
  · intro x other
    refine ⟨rfl, ?_⟩
    have each := s.referenced_setSnap d (s.snap d ++ [id]) x
    rw [List.count_append, List.count_singleton, beq_eq_false_iff_ne.mpr (Ne.symm other)] at each
    show (s.setSnap d (s.snap d ++ [id])).referenced x = s.referenced x
    simpa using each
  · have total := s.referenced_setSnap d (s.snap d ++ [id]) id
    rw [List.count_append, List.count_singleton_self] at total
    show c.inUse + 1 = (s.setSnap d (s.snap d ++ [id])).referenced id
    omega
  · exact Nat.add_pos_left registered _

/-- What a release leaves alone. -/
structure RelayWorld.Kept (s t : RelayWorld) : Prop where
  maxEst : t.maxEst = s.maxEst
  stage : t.stage = s.stage
  dead : t.dead = s.dead
  stop : t.stop = s.stop
  threads : t.threads = s.threads
  estN : t.estN ≤ s.estN

theorem RelayWorld.Kept.refl (s : RelayWorld) : s.Kept s := ⟨rfl, rfl, rfl, rfl, rfl, le_refl _⟩

theorem RelayWorld.Kept.trans {u : RelayWorld} (first : s.Kept t) (second : t.Kept u) : s.Kept u :=
  ⟨second.maxEst.trans first.maxEst, second.stage.trans first.stage,
    second.dead.trans first.dead, second.stop.trans first.stop,
    second.threads.trans first.threads, second.estN.trans first.estN⟩

theorem rpReapMaybe_kept (s : RelayWorld) (id : Nat) :
    s.Kept (rpReapMaybe s id) ∧ (rpReapMaybe s id).arr = s.arr ∧
      (rpReapMaybe s id).snap = s.snap := by
  unfold rpReapMaybe
  split
  · exact ⟨.refl s, rfl, rfl⟩
  · split
    · exact ⟨⟨rfl, rfl, rfl, rfl, rfl, Int.sub_le_self _ (by decide)⟩, rfl, rfl⟩
    · exact ⟨.refl s, rfl, rfl⟩

theorem rpTouch_kept (s : RelayWorld) (id : Nat) :
    s.Kept (rpTouch s id) ∧ (rpTouch s id).arr = s.arr ∧ (rpTouch s id).snap = s.snap := by
  unfold rpTouch
  split
  · exact ⟨⟨rfl, rfl, rfl, rfl, rfl, le_refl _⟩, rfl, rfl⟩
  · split
    · exact ⟨.refl s, rfl, rfl⟩
    · exact ⟨⟨rfl, rfl, rfl, rfl, rfl, le_refl _⟩, rfl, rfl⟩

theorem RelayWorld.setConn_kept (s : RelayWorld) (id : Nat) (c : RpConn) :
    s.Kept (s.setConn id c) :=
  ⟨rfl, rfl, rfl, rfl, rfl, le_refl _⟩

theorem rpRelease_kept (s : RelayWorld) (id : Nat) :
    s.Kept (rpRelease s id) ∧ (rpRelease s id).arr = s.arr ∧ (rpRelease s id).snap = s.snap := by
  obtain ⟨touched, arr, snap⟩ := rpTouch_kept s id
  unfold rpRelease
  dsimp only
  split
  · exact ⟨touched, arr, snap⟩
  · next c _ =>
    split
    · obtain ⟨reaped, arr', snap'⟩ :=
        rpReapMaybe_kept ((rpTouch s id).setConn id { c with dirs := 0, retired := true }) id
      exact ⟨(touched.trans (RelayWorld.setConn_kept _ _ _)).trans reaped, arr'.trans arr,
        snap'.trans snap⟩
    · exact ⟨touched.trans (RelayWorld.setConn_kept _ _ _), arr, snap⟩

theorem rpUnref_kept (s : RelayWorld) (id : Nat) :
    s.Kept (rpUnref s id) ∧ (rpUnref s id).arr = s.arr ∧ (rpUnref s id).snap = s.snap := by
  obtain ⟨touched, arr, snap⟩ := rpTouch_kept s id
  unfold rpUnref
  dsimp only
  split
  · exact ⟨touched, arr, snap⟩
  · next c _ =>
    split
    · obtain ⟨reaped, arr', snap'⟩ :=
        rpReapMaybe_kept ((rpTouch s id).setConn id { c with inUse := 0 }) id
      exact ⟨(touched.trans (RelayWorld.setConn_kept _ _ _)).trans reaped, arr'.trans arr,
        snap'.trans snap⟩
    · exact ⟨touched.trans (RelayWorld.setConn_kept _ _ _), arr, snap⟩

theorem rpHolds_refs (d : Bool) (ids : List Nat) (s : RelayWorld) (refs : s.Refs)
    (members : ∀ id ∈ ids, id ∈ s.arr d) :
    (ids.foldl (rpHold d) s).Refs ∧ (ids.foldl (rpHold d) s).arr = s.arr ∧
      (ids.foldl (rpHold d) s).snap = update s.snap d (s.snap d ++ ids) ∧
      s.Kept (ids.foldl (rpHold d) s) := by
  induction ids generalizing s with
  | nil =>
    rw [List.append_nil, update_eq_self]
    exact ⟨refs, rfl, rfl, .refl s⟩
  | cons id rest ih =>
    have member := members id List.mem_cons_self
    have registered := s.registered_pos member
    obtain ⟨c, here, live, -⟩ := refs.live id (by omega)
    have held := rpHold_of (d := d) here live
    have arr : (rpHold d s id).arr = s.arr := by rw [held]; rfl
    have snap : (rpHold d s id).snap = update s.snap d (s.snap d ++ [id]) := by
      rw [held]
      rfl
    have kept : s.Kept (rpHold d s id) := by
      rw [held]
      exact ⟨rfl, rfl, rfl, rfl, rfl, le_refl _⟩
    obtain ⟨done, same, taken, rested⟩ := ih (rpHold d s id) (rpHold_refs refs d id member)
      (fun x found => by rw [arr]; exact members x (List.mem_cons_of_mem _ found))
    refine ⟨done, same.trans arr, ?_, kept.trans rested⟩
    rw [List.foldl_cons, taken, snap, update_self, update_idem,
      List.append_assoc, List.singleton_append]

theorem rpDrops_refs (d : Bool) (ids : List Nat) (s : RelayWorld) (refs : s.Refs)
    (held : s.snap d = ids) :
    (ids.foldl (rpDrop d) s).Refs ∧ (ids.foldl (rpDrop d) s).arr = s.arr ∧
      (ids.foldl (rpDrop d) s).snap = update s.snap d [] ∧
      s.Kept (ids.foldl (rpDrop d) s) := by
  induction ids generalizing s with
  | nil =>
    have same : update s.snap d [] = s.snap := by rw [← held, update_eq_self]
    exact ⟨refs, rfl, same.symm, .refl s⟩
  | cons id rest ih =>
    have member : id ∈ s.snap d := by rw [held]; exact List.mem_cons_self
    obtain ⟨kept, arr, snap⟩ := rpUnref_kept (s.setSnap d ((s.snap d).erase id)) id
    have left : (rpDrop d s id).snap = update s.snap d rest := by
      rw [rpDrop, snap, RelayWorld.setSnap, held, List.erase_cons_head]
    obtain ⟨done, same, taken, rested⟩ := ih (rpDrop d s id) (rpDrop_refs refs d id member)
      (by rw [left, update_self])
    refine ⟨done, same.trans arr, ?_, ?_⟩
    · rw [List.foldl_cons, taken, left, update_idem]
    · exact RelayWorld.Kept.trans ⟨kept.maxEst, kept.stage, kept.dead, kept.stop, kept.threads,
        kept.estN⟩ rested

theorem rpRetires_refs (d : Bool) (ended : Nat → Bool) (ids : List Nat) (s : RelayWorld)
    (refs : s.Refs) (distinct : (s.arr d).Nodup) (once : ids.Nodup)
    (members : ∀ id ∈ ids, id ∈ s.arr d) :
    (ids.foldl (rpRetireOne d ended) s).Refs ∧
      (ids.foldl (rpRetireOne d ended) s).snap = s.snap ∧
      (∀ e, e ≠ d → (ids.foldl (rpRetireOne d ended) s).arr e = s.arr e) ∧
      ((ids.foldl (rpRetireOne d ended) s).arr d).Nodup ∧
      s.Kept (ids.foldl (rpRetireOne d ended) s) := by
  induction ids generalizing s with
  | nil => exact ⟨refs, rfl, fun _ _ => rfl, distinct, .refl s⟩
  | cons id rest ih =>
    have member := members id List.mem_cons_self
    obtain ⟨fresh, others⟩ := List.nodup_cons.mp once
    rw [List.foldl_cons]
    by_cases ends : ended id = true
    · have removed := swapRemove_perm member
      obtain ⟨kept, arr, snap⟩ := rpRelease_kept (s.setArr d (swapRemove (s.arr d) id)) id
      have next : rpRetireOne d ended s id =
          rpRelease (s.setArr d (swapRemove (s.arr d) id)) id := by
        rw [rpRetireOne, if_pos ends]
      rw [← next] at kept arr snap
      have mine : (rpRetireOne d ended s id).arr d = swapRemove (s.arr d) id := by
        rw [arr]
        exact update_self d _ s.arr
      obtain ⟨done, same, apart, nodup, rested⟩ := ih (rpRetireOne d ended s id)
        (by rw [next]; exact rpRelease_refs refs d id _ member removed)
        (by rw [mine]; exact swapRemove_nodup member distinct) others
        (fun x found => by
          rw [mine, mem_swapRemove member distinct]
          exact ⟨fun same => fresh (same ▸ found), members x (List.mem_cons_of_mem _ found)⟩)
      refine ⟨done, same.trans snap, fun e other => ?_, nodup, ?_⟩
      · rw [apart e other, arr]
        exact update_of_ne other _ s.arr
      · exact RelayWorld.Kept.trans ⟨kept.maxEst, kept.stage, kept.dead, kept.stop,
          kept.threads, kept.estN⟩ rested
    · have positive : 0 < (s.arr d).count id := List.count_pos_iff.mpr member
      have registered : 0 < s.registered id := by
        unfold RelayWorld.registered
        cases d <;> omega
      obtain ⟨c, here, live, -⟩ := refs.live id (by omega)
      have next : rpRetireOne d ended s id = s := by
        rw [rpRetireOne, if_neg ends, rpTouch_live here live]
      rw [next]
      exact ih s refs distinct others fun x found => members x (List.mem_cons_of_mem _ found)

theorem rpRetireLasts_refs (d : Bool) (ids : List Nat) (s : RelayWorld) (refs : s.Refs)
    (held : s.arr d = ids.reverse) :
    (ids.foldl (rpRetireLast d) s).Refs ∧ (ids.foldl (rpRetireLast d) s).snap = s.snap ∧
      (ids.foldl (rpRetireLast d) s).arr = update s.arr d [] ∧
      s.Kept (ids.foldl (rpRetireLast d) s) := by
  induction ids generalizing s with
  | nil =>
    rw [List.reverse_nil] at held
    have same : update s.arr d [] = s.arr := by rw [← held, update_eq_self]
    exact ⟨refs, rfl, same.symm, .refl s⟩
  | cons id rest ih =>
    rw [List.reverse_cons] at held
    have member : id ∈ s.arr d := by rw [held]; simp
    have shorter : (s.arr d).dropLast = rest.reverse := by rw [held, List.dropLast_concat]
    have removed : rest.reverse.Perm ((s.arr d).erase id) := by
      rw [held]
      have moved := (List.perm_append_singleton id rest.reverse).erase id
      rw [List.erase_cons_head] at moved
      exact moved.symm
    obtain ⟨kept, arr, snap⟩ := rpRelease_kept (s.setArr d rest.reverse) id
    have next : rpRetireLast d s id = rpRelease (s.setArr d rest.reverse) id := by
      rw [rpRetireLast, shorter]
    rw [← next] at kept arr snap
    obtain ⟨done, same, emptied, rested⟩ := ih (rpRetireLast d s id)
      (by rw [next]; exact rpRelease_refs refs d id _ member removed)
      (by rw [arr]; exact update_self d _ s.arr)
    refine ⟨done, same.trans snap, ?_, ?_⟩
    · rw [List.foldl_cons, emptied, arr]
      exact update_idem _ _ _
    · exact RelayWorld.Kept.trans ⟨kept.maxEst, kept.stage, kept.dead, kept.stop, kept.threads,
        kept.estN⟩ rested

theorem rpTouches (d : Bool) (ids : List Nat) (s : RelayWorld) (refs : s.Refs)
    (members : ∀ id ∈ ids, id ∈ s.snap d) : ids.foldl rpTouch s = s := by
  induction ids with
  | nil => rfl
  | cons id rest ih =>
    have referenced := s.referenced_pos (members id List.mem_cons_self)
    obtain ⟨c, here, live, -⟩ := refs.live id (by omega)
    rw [List.foldl_cons, rpTouch_live here live]
    exact ih fun x found => members x (List.mem_cons_of_mem _ found)

/-- The references, and where they stand while a direction thread is in its loop. -/
structure RelayWorld.Sound (s : RelayWorld) (maxEst : Nat) : Prop where
  refs : s.Refs
  distinct : ∀ d, (s.arr d).Nodup
  within : ∀ d, s.stage d = .holding ∨ s.stage d = .serviced →
    (s.snap d).Nodup ∧ ∀ id ∈ s.snap d, id ∈ s.arr d
  idle : ∀ d, s.stage d = .top ∨ s.stage d = .leaving ∨ s.stage d = .exited → s.snap d = []
  died : ∀ d, s.dead d = true ↔ s.stage d = .leaving ∨ s.stage d = .exited
  cleared : ∀ d, s.dead d = true → s.arr d = []
  limit : s.maxEst = maxEst
  capped : s.estN ≤ maxEst

theorem RelayWorld.start_sound (maxEst : Nat) : (RelayWorld.start maxEst).Sound maxEst where
  refs := ⟨rfl, nofun, nofun, rfl⟩
  distinct := fun _ => List.nodup_nil
  within := fun _ => by rintro (stage | stage) <;> cases stage
  idle := fun _ _ => rfl
  died := fun _ => ⟨nofun, by rintro (stage | stage) <;> cases stage⟩
  cleared := fun _ _ => rfl
  limit := rfl
  capped := Int.natCast_nonneg maxEst

theorem RelayWorld.setStage_self (s : RelayWorld) (d : Bool) (stage : RpDirStage) :
    (s.setStage d stage).stage d = stage := by
  simp [RelayWorld.setStage]

theorem RelayWorld.setStage_other (s : RelayWorld) {e : Bool} (stage : RpDirStage)
    (apart : e ≠ d) : (s.setStage d stage).stage e = s.stage e := by
  simp [RelayWorld.setStage, apart]

def RelayWorld.Turned (s t : RelayWorld) (d : Bool) : Prop :=
  t.threads = s.threads ∧ (s.stage d ≠ .exiting → t.dead = s.dead)

variable {maxEst : Nat}

theorem RelayWorld.Sound.advance (sound : s.Sound maxEst) (d : Bool)
    (next : RpDirStage) (refs : t.Refs) (kept : s.Kept t)
    (arr : ∀ e, e ≠ d → t.arr e = s.arr e) (snap : ∀ e, e ≠ d → t.snap e = s.snap e)
    (alive : s.dead d = false) (distinct : (t.arr d).Nodup)
    (within : next = .holding ∨ next = .serviced →
      (t.snap d).Nodup ∧ ∀ id ∈ t.snap d, id ∈ t.arr d)
    (idle : next = .top → t.snap d = []) (stays : next ≠ .leaving ∧ next ≠ .exited) :
    (t.setStage d next).Sound maxEst ∧ s.Turned (t.setStage d next) d := by
  have mine := t.setStage_self d next
  have other : ∀ e, e ≠ d → (t.setStage d next).stage e = s.stage e := by
    intro e apart
    rw [t.setStage_other next apart, kept.stage]
  have dead : (t.setStage d next).dead = s.dead := kept.dead
  refine ⟨⟨⟨refs.clean, refs.known, refs.tallied, refs.counted⟩, fun e => ?_, fun e => ?_,
    fun e => ?_, fun e => ?_, fun e => ?_, kept.maxEst.trans sound.limit,
    kept.estN.trans sound.capped⟩, kept.threads, fun _ => dead⟩
  · by_cases apart : e = d
    · rw [apart]
      exact distinct
    · exact (arr e apart).symm ▸ sound.distinct e
  · by_cases apart : e = d
    · rw [apart, mine]
      exact within
    · rw [other e apart]
      intro stage
      show (t.snap e).Nodup ∧ ∀ id ∈ t.snap e, id ∈ t.arr e
      rw [snap e apart, arr e apart]
      exact sound.within e stage
  · by_cases apart : e = d
    · rw [apart, mine]
      rintro (top | leaving | exited)
      · exact idle top
      · exact absurd leaving stays.1
      · exact absurd exited stays.2
    · rw [other e apart]
      intro stage
      exact (snap e apart).trans (sound.idle e stage)
  · rw [dead]
    by_cases apart : e = d
    · rw [apart, mine, alive]
      exact ⟨nofun, fun gone => absurd gone (by rintro (l | x); exacts [stays.1 l, stays.2 x])⟩
    · rw [other e apart]
      exact sound.died e
  · rw [dead]
    intro gone
    have apart : e ≠ d := fun same => by rw [same, alive] at gone; cases gone
    exact (arr e apart).trans (sound.cleared e gone)

theorem RelayWorld.Sound.leave (sound : s.Sound maxEst)
    (d : Bool) (refs : t.Refs) (kept : s.Kept t) (arr : t.arr = update s.arr d [])
    (snap : t.snap = update s.snap d []) :
    RelayWorld.Sound { t.setStage d .leaving with dead := update t.dead d true }
      maxEst := by
  have mine := t.setStage_self d .leaving
  have other : ∀ e, e ≠ d → (t.setStage d .leaving).stage e = s.stage e := by
    intro e apart
    rw [t.setStage_other .leaving apart, kept.stage]
  refine ⟨⟨refs.clean, refs.known, refs.tallied, refs.counted⟩, fun e => ?_, fun e => ?_,
    fun e => ?_, fun e => ?_, fun e => ?_, kept.maxEst.trans sound.limit,
    kept.estN.trans sound.capped⟩
  · show (t.arr e).Nodup
    by_cases apart : e = d
    · rw [apart, arr, update_self]
      exact List.nodup_nil
    · rw [arr, update_of_ne apart]
      exact sound.distinct e
  · show (t.setStage d .leaving).stage e = _ ∨ (t.setStage d .leaving).stage e = _ →
      (t.snap e).Nodup ∧ ∀ id ∈ t.snap e, id ∈ t.arr e
    by_cases apart : e = d
    · rw [apart, mine]
      rintro (h | h) <;> cases h
    · rw [other e apart, snap, arr, update_of_ne apart, update_of_ne apart]
      exact sound.within e
  · show _ → t.snap e = []
    by_cases apart : e = d
    · rw [apart, snap]
      exact fun _ => update_self d [] s.snap
    · rw [snap, update_of_ne apart]
      intro stage
      exact sound.idle e ((other e apart) ▸ stage)
  · show update t.dead d true e = true ↔ (t.setStage d .leaving).stage e = _ ∨
      (t.setStage d .leaving).stage e = _
    by_cases apart : e = d
    · rw [apart, mine, update_self]
      exact ⟨fun _ => .inl rfl, fun _ => rfl⟩
    · rw [other e apart, update_of_ne apart, kept.dead]
      exact sound.died e
  · show update t.dead d true e = true → t.arr e = []
    by_cases apart : e = d
    · rw [apart, arr]
      exact fun _ => update_self d [] s.arr
    · rw [update_of_ne apart, arr, update_of_ne apart, kept.dead]
      exact sound.cleared e

theorem RelayWorld.Sound.exit (sound : s.Sound maxEst) (stage : s.stage d = .leaving) :
    RelayWorld.Sound { s.setStage d .exited with stop := true } maxEst := by
  refine ⟨⟨sound.refs.clean, sound.refs.known, sound.refs.tallied, sound.refs.counted⟩,
    sound.distinct, fun e => ?_, fun e => ?_, fun e => ?_, sound.cleared, sound.limit,
    sound.capped⟩
  · show (s.setStage d .exited).stage e = _ ∨ (s.setStage d .exited).stage e = _ → _
    by_cases apart : e = d
    · rw [apart, s.setStage_self]
      rintro (h | h) <;> cases h
    · rw [s.setStage_other _ apart]
      exact sound.within e
  · show _ → s.snap e = []
    by_cases apart : e = d
    · rw [apart]
      exact fun _ => sound.idle d (.inr (.inl stage))
    · intro here
      exact sound.idle e (s.setStage_other .exited apart ▸ here)
  · show s.dead e = true ↔ (s.setStage d .exited).stage e = _ ∨
      (s.setStage d .exited).stage e = _
    by_cases apart : e = d
    · rw [apart, s.setStage_self]
      exact ⟨fun _ => .inr rfl, fun _ => (sound.died d).mpr (.inl stage)⟩
    · rw [s.setStage_other _ apart]
      exact sound.died e

theorem RelayWorld.Sound.alive (sound : s.Sound maxEst)
    {stage : RpDirStage} (here : s.stage d = stage)
    (stays : stage ≠ .leaving ∧ stage ≠ .exited) :
    s.dead d = false := by
  cases dead : s.dead d with
  | false => rfl
  | true =>
    rcases (sound.died d).mp dead with leaving | exited
    · exact absurd (here.symm.trans leaving) stays.1
    · exact absurd (here.symm.trans exited) stays.2

theorem rpDirStep_sound (sound : s.Sound maxEst) (d : Bool) (input : RpDirInput) :
    (rpDirStep s d input).Sound maxEst ∧ s.Turned (rpDirStep s d input) d := by
  have cleanup : s.dead d = false →
      (s.setStage d .exiting).Sound maxEst ∧ s.Turned (s.setStage d .exiting) d := by
    intro alive
    exact sound.advance d _ sound.refs (.refl s) (fun _ _ => rfl) (fun _ _ => rfl) alive
      (sound.distinct d) (by rintro (h | h) <;> cases h) nofun ⟨nofun, nofun⟩
  unfold rpDirStep
  cases stage : s.stage d with
  | top =>
    have alive := sound.alive stage ⟨nofun, nofun⟩
    have empty := sound.idle d (.inl stage)
    dsimp only
    split
    · exact cleanup alive
    · obtain ⟨refs, arr, snap, kept⟩ :=
        rpHolds_refs d (s.arr d) s sound.refs fun _ member => member
      rw [empty, List.nil_append] at snap
      unfold rpSnapshot
      refine sound.advance d _ refs kept (fun e _ => congrFun arr e) (fun e apart => ?_) alive ?_
        (fun _ => ?_) nofun ⟨nofun, nofun⟩
      · rw [snap, update_of_ne apart]
      · rw [arr]
        exact sound.distinct d
      · rw [snap, update_self, arr]
        exact ⟨sound.distinct d, fun _ member => member⟩
  | holding =>
    have alive := sound.alive stage ⟨nofun, nofun⟩
    have within := sound.within d (.inl stage)
    dsimp only
    split
    · exact cleanup alive
    · cases input.poll with
      | interrupted =>
        obtain ⟨refs, arr, snap, kept⟩ := rpDrops_refs d (s.snap d) s sound.refs rfl
        unfold rpSnapUnrefAll
        refine sound.advance d _ refs kept (fun e _ => congrFun arr e) (fun e apart => ?_)
          alive ?_ (by rintro (h | h) <;> cases h) (fun _ => ?_) ⟨nofun, nofun⟩
        · rw [snap, update_of_ne apart]
        · rw [arr]
          exact sound.distinct d
        · rw [snap, update_self]
      | failed => exact cleanup alive
      | ready =>
        dsimp only
        rw [rpTouches d (s.snap d) s sound.refs fun _ member => member]
        exact sound.advance d _ sound.refs (.refl s) (fun _ _ => rfl) (fun _ _ => rfl) alive
          (sound.distinct d) (fun _ => within) nofun ⟨nofun, nofun⟩
  | serviced =>
    have alive := sound.alive stage ⟨nofun, nofun⟩
    obtain ⟨once, members⟩ := sound.within d (.inr stage)
    obtain ⟨refs, snap, apartArr, distinct, kept⟩ :=
      rpRetires_refs d input.ended (s.snap d) s sound.refs (sound.distinct d) once members
    obtain ⟨refs', arr', snap', kept'⟩ :=
      rpDrops_refs d ((rpRetireEnded s d input.ended).snap d) (rpRetireEnded s d input.ended)
        refs rfl
    unfold rpSnapUnrefAll
    refine sound.advance d _ refs' (kept.trans kept') (fun e apart => ?_) (fun e apart => ?_)
      alive ?_ (by rintro (h | h) <;> cases h) (fun _ => ?_) ⟨nofun, nofun⟩
    · exact (congrFun arr' e).trans (apartArr e apart)
    · rw [snap', update_of_ne apart]
      exact congrFun snap e
    · rw [arr']
      exact distinct
    · rw [snap', update_self]
  | exiting =>
    obtain ⟨refs, snap, arr, kept⟩ := rpRetireLasts_refs d (s.arr d).reverse s sound.refs
      (List.reverse_reverse _).symm
    obtain ⟨refs', arr', snap', kept'⟩ :=
      rpDrops_refs d ((rpDirRetireAll s d).snap d) (rpDirRetireAll s d) refs rfl
    have emptied : (rpSnapUnrefAll (rpDirRetireAll s d) d).snap = update s.snap d [] :=
      snap'.trans (by rw [show (rpDirRetireAll s d).snap = s.snap from snap])
    exact ⟨sound.leave d refs' (kept.trans kept') (arr'.trans arr) emptied,
      (kept.trans kept').threads, fun other => absurd stage other⟩
  | leaving => exact ⟨sound.exit stage, rfl, fun _ => rfl⟩
  | exited => exact ⟨sound, rfl, fun _ => rfl⟩

variable {k : Nat} {stage next : RpStage}

theorem RelayWorld.Sound.move (sound : s.Sound maxEst)
    (here : s.threads[k]? = some stage) (estN : Int)
    (counts : estN + (if stage.holds then 1 else 0) = s.estN + (if next.holds then 1 else 0))
    (capped : estN ≤ maxEst) :
    RelayWorld.Sound { s.setThread k next with estN := estN } maxEst := by
  have refs : RelayWorld.Refs { s.setThread k next with estN := estN } := by
    refine ⟨sound.refs.clean, sound.refs.known, sound.refs.tallied, ?_⟩
    have written := countP_write RpStage.holds next here
    have counted := sound.refs.counted
    show estN = ((s.threads.set k next).countP RpStage.holds : Int) + (s.opened : Int)
    have holders : (s.holders : Int) = (s.threads.countP RpStage.holds : Int) := rfl
    split_ifs at written counts <;> omega
  exact ⟨refs, sound.distinct, sound.within, sound.idle, sound.died, sound.cleared, sound.limit,
    capped⟩

theorem RelayWorld.Sound.stay (sound : s.Sound maxEst)
    (here : s.threads[k]? = some stage) (same : stage.holds = next.holds) :
    (s.setThread k next).Sound maxEst :=
  sound.move here s.estN (by rw [same]) sound.capped

theorem RelayWorld.Sound.giveBack (sound : s.Sound maxEst)
    (here : s.threads[k]? = some stage) (held : stage.holds = true) :
    RelayWorld.Sound { s.setThread k (.gone none) with estN := s.estN - 1 } maxEst := by
  refine sound.move here _ ?_ ?_
  · rw [held, if_pos rfl]
    show s.estN - 1 + 1 = s.estN + 0
    omega
  · have capped := sound.capped
    omega

def RelayWorld.enter (s : RelayWorld) (k : Nat) : RelayWorld :=
  { s.setThread k (.gone (some s.conns.length)) with
    conns := s.conns ++ [RpConn.new], arr := fun d => s.arr d ++ [s.conns.length] }

theorem RelayWorld.Refs.fresh (refs : s.Refs) :
    s.registered s.conns.length = 0 ∧ s.referenced s.conns.length = 0 := by
  by_contra used
  have inside := refs.known s.conns.length (by omega)
  omega

theorem RelayWorld.registered_enter (s : RelayWorld) (k id : Nat) :
    (s.enter k).registered id =
      s.registered id + (if s.conns.length = id then 2 else 0) := by
  show (s.arr true ++ [s.conns.length]).count id + (s.arr false ++ [s.conns.length]).count id = _
  rw [List.count_append, List.count_append, List.count_singleton, RelayWorld.registered]
  by_cases same : s.conns.length = id
  · simp only [same, beq_self_eq_true, ↓reduceIte]
    omega
  · simp only [beq_eq_false_iff_ne.mpr same, same, ↓reduceIte, Bool.false_eq_true]
    omega

theorem RelayWorld.Refs.enter (refs : s.Refs)
    (here : s.threads[k]? = some .registering) : (s.enter k).Refs := by
  obtain ⟨unregistered, unreferenced⟩ := refs.fresh
  refine ⟨refs.clean, fun id held => ?_, fun id c found => ?_, ?_⟩
  · rw [s.registered_enter k id] at held
    show id < (s.conns ++ [RpConn.new]).length
    rw [List.length_append, List.length_singleton]
    by_cases same : s.conns.length = id
    · omega
    · rw [if_neg same] at held
      exact Nat.lt_succ_of_lt (refs.known id held)
  · rw [s.registered_enter k id]
    show c.Tallied _ (s.referenced id)
    have found' : (s.conns ++ [RpConn.new])[id]? = some c := found
    by_cases same : s.conns.length = id
    · rw [← same, List.getElem?_concat_length, Option.some.injEq] at found'
      rw [← same, if_pos rfl, unregistered, unreferenced, ← found']
      exact .inl ⟨rfl, rfl, rfl, by simp [RpConn.new], by decide⟩
    · have inside : id < s.conns.length := by
        have bound := (List.getElem?_eq_some_iff.mp found').1
        rw [List.length_append, List.length_singleton] at bound
        omega
      rw [List.getElem?_append_left inside] at found'
      rw [if_neg same]
      exact refs.tallied id c found'
  · have written := countP_write RpStage.holds (.gone (some s.conns.length)) here
    have counted := refs.counted
    have holders : s.holders = s.threads.countP RpStage.holds := rfl
    have opened : (s.enter k).opened = s.opened + 1 := List.countP_append
    show s.estN = (((s.threads.set k (.gone (some s.conns.length))).countP RpStage.holds : Nat) :
      Int) + ((s.enter k).opened : Int)
    simp only [RpStage.holds, ↓reduceIte, Bool.false_eq_true, Nat.add_zero] at written
    omega

theorem rpRegister_sound (sound : s.Sound maxEst)
    (here : s.threads[k]? = some .registering) (input : RpThreadInput) :
    (rpRegister s k input).Sound maxEst := by
  unfold rpRegister
  split
  · exact sound.stay here rfl
  · next refused =>
    simp only [Bool.or_eq_true, Bool.not_eq_true', not_or, Bool.not_eq_false, rpPlaneDead,
      Bool.not_eq_true] at refused
    obtain ⟨⟨⟨up, dn⟩, -⟩, -⟩ := refused
    have unknown : ∀ d, s.conns.length ∉ s.arr d := by
      intro d member
      have positive := s.registered_pos member
      have unregistered := sound.refs.fresh.1
      omega
    refine ⟨sound.refs.enter here, fun d => ?_, fun d stage => ?_, sound.idle, sound.died,
      fun d dead => ?_, sound.limit, sound.capped⟩
    · show (s.arr d ++ [s.conns.length]).Nodup
      exact List.nodup_append_comm.mp (List.nodup_cons.mpr ⟨unknown d, sound.distinct d⟩)
    · obtain ⟨once, members⟩ := sound.within d stage
      exact ⟨once, fun id member => List.mem_append_left _ (members id member)⟩
    · have alive : s.dead d = false := by
        cases d
        · exact dn
        · exact up
      exact absurd (alive.symm.trans dead) (by decide)

theorem rpThreadStep_sound (sound : s.Sound maxEst)
    (here : s.threads[k]? = some stage) (input : RpThreadInput) :
    (rpThreadStep s k stage input).Sound maxEst := by
  cases stage with
  | reserving n =>
    unfold rpThreadStep
    dsimp only
    split
    · next room =>
      split
      · next exchanged =>
        refine sound.move here _ (by simp [RpStage.holds]) ?_
        rw [exchanged.1]
        have limit := sound.limit
        omega
      · exact sound.stay here rfl
    · exact sound.stay here rfl
  | reserved =>
    refine sound.stay here ?_
    cases rpPlaneDead s <;> rfl
  | answered =>
    refine sound.stay here ?_
    cases input.ok <;> cases (input.alloc && input.nonblock) <;> rfl
  | registering => exact rpRegister_sound sound here input
  | refusing => exact sound.giveBack here rfl
  | rollback => exact sound.giveBack here rfl
  | gone conn => exact sound
  | _ =>
    refine sound.stay here ?_
    cases input.ok <;> rfl

theorem relayStep_sound (sound : s.Sound maxEst)
    (e : RelayEvent) : (relayStep s e).Sound maxEst := by
  cases e with
  | accept =>
    refine ⟨⟨sound.refs.clean, sound.refs.known, sound.refs.tallied, ?_⟩, sound.distinct,
      sound.within, sound.idle, sound.died, sound.cleared, sound.limit, sound.capped⟩
    show s.estN = ((s.threads ++ [RpStage.handshake]).countP RpStage.holds : Int) +
      (s.opened : Int)
    rw [List.countP_append]
    exact sound.refs.counted
  | thread k input =>
    unfold relayStep
    dsimp only
    split
    · exact sound
    · next stage here => exact rpThreadStep_sound sound here input
  | dir d input => exact (rpDirStep_sound sound d input).1
  | halt =>
    exact ⟨⟨sound.refs.clean, sound.refs.known, sound.refs.tallied, sound.refs.counted⟩,
      sound.distinct, sound.within, sound.idle, sound.died, sound.cleared, sound.limit,
      sound.capped⟩

theorem relayRun_sound (maxEst : Nat) (events : List RelayEvent) :
    (relayRun maxEst events).Sound maxEst :=
  Trace.final_invariant relayTick (·.Sound maxEst) (fun _ e sound => relayStep_sound sound e) _
    events (RelayWorld.start_sound maxEst)

theorem RelayWorld.unheld_iff (s : RelayWorld) (id : Nat) :
    (s.registered id = 0 ∧ s.referenced id = 0) ↔ ∀ d, id ∉ s.arr d ∧ id ∉ s.snap d := by
  rw [RelayWorld.registered, RelayWorld.referenced, Nat.add_eq_zero_iff, Nat.add_eq_zero_iff,
    List.count_eq_zero, List.count_eq_zero, List.count_eq_zero, List.count_eq_zero]
  constructor
  · rintro ⟨⟨arrUp, arrDn⟩, snapUp, snapDn⟩ d
    cases d
    · exact ⟨arrDn, snapDn⟩
    · exact ⟨arrUp, snapUp⟩
  · intro unheld
    exact ⟨⟨(unheld true).1, (unheld false).1⟩, (unheld true).2, (unheld false).2⟩

/-- In every interleaving the table count is the reservations and the connections not freed. -/
theorem relayRun_lifecycle (maxEst : Nat) (events : List RelayEvent) :
    let s := relayRun maxEst events
    0 ≤ s.estN ∧ s.estN ≤ maxEst ∧ s.estN = s.holders + s.opened ∧ s.fault = false ∧
      (∀ (id : Nat) (c : RpConn), s.conns[id]? = some c → c.freed ≤ 1 ∧
        (c.freed = 1 ↔ ∀ d, id ∉ s.arr d ∧ id ∉ s.snap d)) ∧
      (∀ d, s.dead d = true ∨ s.stage d = .exited → s.arr d = []) ∧
      ((∀ d, s.stage d = .exited) → ∀ c ∈ s.conns, c.freed = 1) := by
  intro s
  have sound : s.Sound maxEst := relayRun_sound maxEst events
  have counted := sound.refs.counted
  have freed : ∀ (id : Nat) (c : RpConn), s.conns[id]? = some c → c.freed ≤ 1 ∧
      (c.freed = 1 ↔ ∀ d, id ∉ s.arr d ∧ id ∉ s.snap d) := by
    intro id c found
    rw [← s.unheld_iff id]
    rcases sound.refs.tallied id c found with ⟨live, -, -, -, held⟩ | ⟨once, none, unread⟩
    · exact ⟨by omega, by omega, by omega⟩
    · exact ⟨by omega, fun _ => ⟨none, unread⟩, fun _ => once⟩
  have exited : ∀ d, s.stage d = .exited → s.arr d = [] := fun d stage =>
    sound.cleared d ((sound.died d).mpr (.inr stage))
  refine ⟨by omega, sound.capped, counted, sound.refs.clean, freed, ?_, fun both c member => ?_⟩
  · rintro d (dead | stage)
    · exact sound.cleared d dead
    · exact exited d stage
  · obtain ⟨id, found⟩ := List.mem_iff_getElem?.mp member
    refine (freed id c found).2.mpr fun d => ?_
    rw [exited d (both d), sound.idle d (.inr (.inr (both d)))]
    exact ⟨List.not_mem_nil, List.not_mem_nil⟩

/-- Between the check of the data plane and the registration. -/
def RpStage.committed : RpStage → Bool
  | .checked => true
  | .answered => true
  | .registering => true
  | _ => false

/-- No cleanup while a thread is committed. -/
def RelayEvent.Quiet (s : RelayWorld) (e : RelayEvent) : Prop :=
  match e with
  | .dir d _ => s.stage d = .exiting → ∀ stage ∈ s.threads, stage.committed = false
  | _ => True

instance (s : RelayWorld) (e : RelayEvent) : Decidable (e.Quiet s) := by
  cases e <;> unfold RelayEvent.Quiet <;> infer_instance

def RelayWorld.Serves (s : RelayWorld) : Prop :=
  ∀ stage ∈ s.threads, stage.committed = true → rpPlaneDead s = false

theorem RelayWorld.Serves.move (serves : s.Serves)
    (threads : t.threads = s.threads.set k next) (dead : t.dead = s.dead)
    (alive : next.committed = true → rpPlaneDead s = false) : t.Serves := by
  intro stage member committed
  have plane : rpPlaneDead t = rpPlaneDead s := by rw [rpPlaneDead, rpPlaneDead, dead]
  rw [plane]
  rw [threads] at member
  rcases List.mem_or_eq_of_mem_set member with old | new
  · exact serves stage old committed
  · rw [new] at committed
    exact alive committed

theorem rpThreadStep_serves (serves : s.Serves)
    (here : s.threads[k]? = some stage) (input : RpThreadInput) :
    (rpThreadStep s k stage input).Serves := by
  have alive := serves stage (List.mem_of_getElem? here)
  cases stage with
  | handshake =>
    refine serves.move rfl rfl ?_
    cases input.ok <;> exact nofun
  | reserving n =>
    unfold rpThreadStep
    dsimp only
    split
    · split
      · exact serves.move rfl rfl nofun
      · exact serves.move rfl rfl nofun
    · exact serves.move rfl rfl nofun
  | reserved =>
    refine serves.move rfl rfl ?_
    cases plane : rpPlaneDead s with
    | false => exact fun _ => rfl
    | true => exact nofun
  | registering =>
    show (rpRegister s k input).Serves
    unfold rpRegister
    split
    · exact serves.move rfl rfl nofun
    · exact serves.move rfl rfl nofun
  | refusing => exact serves.move rfl rfl nofun
  | rollback => exact serves.move rfl rfl nofun
  | gone conn => exact serves
  | _ => exact serves.move rfl rfl fun _ => alive rfl

theorem relayStep_serves (sound : s.Sound maxEst)
    (serves : s.Serves) (e : RelayEvent) (quiet : e.Quiet s) : (relayStep s e).Serves := by
  cases e with
  | accept =>
    intro stage member committed
    rcases List.mem_append.mp member with old | new
    · exact serves stage old committed
    · rw [List.mem_singleton.mp new] at committed
      cases committed
  | thread k input =>
    unfold relayStep
    dsimp only
    split
    · exact serves
    · next stage here => exact rpThreadStep_serves serves here input
  | dir d input =>
    obtain ⟨threads, dead⟩ := (rpDirStep_sound sound d input).2
    intro stage member committed
    have old : stage ∈ s.threads := threads ▸ member
    by_cases exiting : s.stage d = .exiting
    · rw [quiet exiting stage old] at committed
      cases committed
    · show rpPlaneDead (rpDirStep s d input) = false
      rw [rpPlaneDead, dead exiting]
      exact serves stage old committed
  | halt => exact serves

theorem relayRun_serves (maxEst : Nat) (events : List RelayEvent)
    (quiet : Trace.Along relayTick (fun s e => e.Quiet s) (RelayWorld.start maxEst) events) :
    (relayRun maxEst events).Serves := by
  have both := Trace.final_along_invariant relayTick (fun s e => e.Quiet s)
    (fun s => s.Sound maxEst ∧ s.Serves)
    (fun s e quiet held => ⟨relayStep_sound held.1 e, relayStep_serves held.1 held.2 e quiet⟩)
    (RelayWorld.start maxEst) events quiet ⟨RelayWorld.start_sound maxEst, nofun⟩
  exact both.2

def RelayWorld.Registered (s : RelayWorld) (k : Nat) : Prop :=
  ∃ id, s.threads[k]? = some (.gone (some id)) ∧ ∀ d, id ∈ s.arr d

theorem rpRegister_registered (here : s.threads[k]? = some .registering) {input : RpThreadInput}
    (growUp : input.growUp = true) (growDn : input.growDn = true) :
    (rpRegister s k input).Registered k ↔ rpPlaneDead s = false := by
  have inside : k < s.threads.length := (List.getElem?_eq_some_iff.mp here).1
  unfold rpRegister
  rw [growUp, growDn, Bool.not_true, Bool.or_false, Bool.or_false]
  cases plane : rpPlaneDead s with
  | false =>
    refine ⟨fun _ => rfl, fun _ => ⟨s.conns.length, ?_, fun d => ?_⟩⟩
    · exact List.getElem?_set_self inside
    · exact List.mem_append_right _ List.mem_cons_self
  | true =>
    refine ⟨?_, nofun⟩
    rintro ⟨id, found, -⟩
    have refused : (s.threads.set k .refusing)[k]? = some (.gone (some id)) := found
    rw [List.getElem?_set_self inside] at refused
    cases refused

/-- A thread whose success reply is out is never refused for want of a slot: the pair enters both
arrays unless a direction thread has published its exit meanwhile. -/
theorem relayRun_registers (maxEst : Nat) (events : List RelayEvent) (k : Nat)
    (input : RpThreadInput) (alloc : input.alloc = true) (nonblock : input.nonblock = true)
    (growUp : input.growUp = true) (growDn : input.growDn = true) (ok : input.ok = true) :
    let s := relayRun maxEst events
    let t := relayStep s (.thread k input)
    (s.threads[k]? = some .answered → t.threads[k]? = some .registering) ∧
      (s.threads[k]? = some .registering →
        (t.Registered k ↔ rpPlaneDead s = false) ∧
        (Trace.Along relayTick (fun s e => e.Quiet s) (RelayWorld.start maxEst) events →
          t.Registered k)) := by
  intro s t
  refine ⟨fun here => ?_, fun here => ?_⟩
  · have inside : k < s.threads.length := (List.getElem?_eq_some_iff.mp here).1
    have step : t = s.setThread k .registering := by
      show relayStep s (.thread k input) = _
      simp only [relayStep, here, rpThreadStep, ok, alloc, nonblock, Bool.not_true,
        Bool.false_eq_true, ↓reduceIte, Bool.and_self]
    rw [step]
    exact List.getElem?_set_self inside
  · have step : t = rpRegister s k input := by
      show relayStep s (.thread k input) = _
      simp only [relayStep, here, rpThreadStep]
    rw [step, rpRegister_registered here growUp growDn]
    refine ⟨Iff.rfl, fun quiet => ?_⟩
    exact relayRun_serves maxEst events quiet _ (List.mem_of_getElem? here) rfl

def RpThreadInput.smooth : RpThreadInput := ⟨true, false, true, true, true, true⟩

def RpDirInput.polled (poll : RpPoll) : RpDirInput := ⟨true, true, poll, fun _ => false⟩

/-- A first client is registered and relayed by both direction threads; the up thread's poll fails
while a second one is between its reply and rp_add. -/
def smoothEvents : List RelayEvent :=
  .accept :: List.replicate 6 (.thread 0 .smooth) ++
    List.replicate 3 (.dir true (.polled .ready)) ++
    List.replicate 3 (.dir false (.polled .ready)) ++
    .accept :: List.replicate 5 (.thread 1 .smooth) ++
    List.replicate 2 (.dir true (.polled .failed))

theorem relayRun_registers_smooth :
    (relayRun 4 smoothEvents).threads[1]? = some .registering ∧
      (relayRun 4 smoothEvents).stage true = .exiting ∧
      Trace.Along relayTick (fun s e => e.Quiet s) (RelayWorld.start 4) smoothEvents ∧
      (relayStep (relayRun 4 smoothEvents) (.thread 1 .smooth)).Registered 1 := by
  have here : (relayRun 4 smoothEvents).threads[1]? = some .registering := by decide +kernel
  have failing : (relayRun 4 smoothEvents).stage true = .exiting := by decide +kernel
  have quiet : Trace.Along relayTick (fun s e => e.Quiet s) (RelayWorld.start 4) smoothEvents := by
    decide +kernel
  exact ⟨here, failing, quiet,
    ((relayRun_registers 4 smoothEvents 1 .smooth rfl rfl rfl rfl rfl).2 here).2 quiet⟩

/-- The up thread's poll fails and it cleans up after the reply: an answered client is refused. -/
theorem relayRun_answered_refused :
    let died : RelayEvent := .dir true (.polled .failed)
    let events := .accept :: List.replicate 4 (.thread 0 .smooth) ++ [died, died, died]
    (relayRun 4 events).threads[0]? = some .answered ∧
      (relayRun 4 (events ++ [.thread 0 .smooth, .thread 0 .smooth])).threads[0]? =
        some .refusing := by
  decide +kernel

end Iwan
