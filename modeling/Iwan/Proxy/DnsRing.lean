import Iwan.Lib.Ring
import Iwan.Proxy.DnsWorkers
import Iwan.Proxy.Verdict

/- The way of a DNS verdict through the result ring (socks_dns.c). -/
namespace Iwan

open Circular

def dnsResultQLen : Nat := 513

def dnsDrainMax : Nat := 64

def dnsPushG (r : Belt DnsResult) (x : DnsResult) : Belt DnsResult :=
  let r := r.push dnsResultQLen x
  -- the tail has reached the head: the oldest is dropped
  if r.count = dnsResultQLen then r.pop dnsResultQLen else r

def dnsDrainLoop (cur : UInt32) : Nat → Nat → Belt DnsResult → Belt DnsResult × List DnsResult
  | 0, _, r => (r, [])
  | left + 1, room, r =>
    if r.count = 0 ∨ room = 0 then (r, [])
    else
      let x := r.cell (r.pos dnsResultQLen 0)
      if x.gen = cur then
        let next := dnsDrainLoop cur left (room - 1) (r.pop dnsResultQLen)
        (next.1, x :: next.2)
      else dnsDrainLoop cur left room (r.pop dnsResultQLen)

def dnsDrain (cur : UInt32) (r : Belt DnsResult) : Belt DnsResult × List DnsResult :=
  dnsDrainLoop cur r.count dnsDrainMax r

def Flow.dnsId (f : Flow) : Int := f.id.toNat

def Flow.awaits (f : Flow) (id : Int) : Bool :=
  f.active && f.state == .resolving && f.dnsId == id

/-- The flows, the result ring and the lookups. `queries` are those that spawn_dns has still to
start, `queue` holds what a drain took; `asked` and `handled` are kept for the proofs. -/
structure DnsPlane where
  flows : Nat → Flow
  nextId : Nat
  ring : Belt DnsResult
  world : DnsWorld
  queries : List DnsJob
  nq : Nat
  queue : List DnsResult
  asked : Int → Nat
  handled : List DnsResult

def DnsPlane.start (session : DnsSession) : DnsPlane where
  flows := fun _ => { Flow.accepted 0 0 0 with active := false }
  nextId := 1
  ring := ⟨fun _ => ⟨0, 0, none, 0⟩, 0, 0⟩
  world := DnsWorld.start session
  queries := []
  nq := 0
  queue := []
  asked := fun _ => 0
  handled := []

def DnsPlane.Idle (s : DnsPlane) : Prop :=
  s.queries = [] ∧ s.queue = [] ∧ s.world.reply = none

instance (s : DnsPlane) : Decidable s.Idle := by
  unfold DnsPlane.Idle
  infer_instance

def DnsPlane.find (s : DnsPlane) (test : Flow → Bool) : Option Nat :=
  (List.range maxFlows).find? fun i => test (s.flows i)

def DnsPlane.setFlow (s : DnsPlane) (slot : Nat) (f : Flow) : DnsPlane :=
  { s with flows := Function.update s.flows slot f }

def DnsPlane.dns (s : DnsPlane) (e : DnsEvent) : DnsPlane :=
  let out := dnsStep s.world e
  { s with world := out.1, ring := out.2.foldl dnsPushG s.ring }

def dnsQtypes (s : DnsSession) (v6 : Bool) : List UInt8 :=
  if v6 then (if s.serverIp4 ≠ 0 then [28, 1] else [28]) else [1]

def spawnDns (s : DnsPlane) (flowId : Int) (domain : List UInt8) (port : UInt16) (v6 : Bool) :
    DnsPlane :=
  let qtypes := dnsQtypes s.world.session v6
  let s := match s.find fun f => f.active && f.dnsId == flowId with
    | none => s
    | some i => s.setFlow i { s.flows i with dnsPending := qtypes.length }
  { s with
    queries := qtypes.map fun qtype => ⟨flowId, port, domain, s.world.session.gen, qtype⟩
    nq := qtypes.length
    asked := Function.update s.asked flowId qtypes.length }

def spawnQuery (s : DnsPlane) (memory created : Bool) : DnsPlane :=
  match s.queries with
  | [] => s
  | job :: rest =>
    let s := { s with queries := rest }
    if memory = false ∨ dnsWaitMax - s.nq < s.world.table.waitN ∨ created = false then
      { s with ring := dnsPushG s.ring job.failure }
    else s.dns (.spawn job)

def dnsOpened (cfg : SocksCfg) (now : UInt64) (opened : Option (Nat × UInt16)) (f : Flow)
    (addr : TargetAddr) (port : UInt16) : Flow :=
  match flowOpenGated cfg now f addr port with
  | (f, none) => f
  | (f, some _) =>
    match opened with
    | none => queueSocksError now f 1
    | some (idx, lport) =>
      let f := { f with nsIdx := some idx, lport := lport, tgtPort := port }
      match addr with
      | .v4 rip => setFlowState now { f with tgtAf := .v4, tgtIp4 := rip } .connecting
      | .v6 rip6 => setFlowState now { f with tgtAf := .v6, tgtIp6 := rip6 } .connecting

def dnsVerdict (cfg : SocksCfg) (now : UInt64) (opened : Option (Nat × UInt16)) (x : DnsResult)
    (f : Flow) : Flow :=
  match x.answer with
  | some (.v6 ip6) => dnsOpened cfg now opened { f with targetAf := .v6 } (.v6 ip6) x.port
  | some (.v4 rip) => dnsOpened cfg now opened f (.v4 rip) x.port
  | none =>
    let f := { f with dnsPending := f.dnsPending - 1 }
    if f.dnsPending = 0 then queueSocksError now f 4 else f

def dnsFails (x : DnsResult) (f : Flow) : Bool := x.answer == none && f.dnsPending - 1 == 0

def handleDnsResult (cfg : SocksCfg) (s : DnsPlane) (now : UInt64)
    (opened : Option (Nat × UInt16)) : DnsPlane × List Nat :=
  match s.queue with
  | [] => (s, [])
  | x :: rest =>
    let s := { s with queue := rest, handled := s.handled ++ [x] }
    match s.find fun f => f.awaits x.flowId with
    | none => (s, [])
    | some i =>
      (s.setFlow i (dnsVerdict cfg now opened x (s.flows i)),
        if dnsFails x (s.flows i) then [i] else [])

/-- What the event loop may do to a flow: it begins or resumes no handshake or lookup. -/
def Flow.Moved (f g : Flow) : Prop :=
  f.active = true ∧ g.id = f.id ∧
    (g.state = .resolving → f.state = .resolving ∧ g.dnsPending = f.dnsPending) ∧
    (g.state = .greeting ∨ g.state = .request → f.state = .greeting ∨ f.state = .request)

instance (f g : Flow) : Decidable (f.Moved g) := by
  unfold Flow.Moved
  infer_instance

inductive DnsPlaneEvent where
  | accept (slot : Nat) (peerIp : UInt32) (now : UInt64)
  | move (slot : Nat) (g : Flow)
  | start (slot : Nat) (now : UInt64) (domain : List UInt8) (port : UInt16) (v6 : Bool)
  | query (memory created : Bool)
  | worker (k : Nat) (input : DnsInput)
  | packet (pkt : List UInt8)
  | consume
  | drain
  | handle (now : UInt64) (opened : Option (Nat × UInt16))

def dnsPlaneStep (cfg : SocksCfg) (s : DnsPlane) (e : DnsPlaneEvent) : DnsPlane × List Nat :=
  match e with
  | .accept slot peerIp now =>
    if s.Idle ∧ slot < maxFlows ∧ (s.flows slot).active = false ∧ s.nextId < 2 ^ 31 then
      ({ s.setFlow slot (Flow.accepted (UInt64.ofNat s.nextId) peerIp now) with
          nextId := s.nextId + 1 }, [])
    else (s, [])
  | .move slot g =>
    if s.Idle ∧ slot < maxFlows ∧ (s.flows slot).Moved g then (s.setFlow slot g, [])
    else (s, [])
  | .start slot now domain port v6 =>
    let f := s.flows slot
    if s.Idle ∧ slot < maxFlows ∧ f.active = true ∧
        (f.state = .greeting ∨ f.state = .request) then
      (spawnDns (s.setFlow slot (setFlowState now { f with targetAf := .domain } .resolving))
        f.dnsId domain port v6, [])
    else (s, [])
  | .query memory created =>
    if s.world.reply = none then (spawnQuery s memory created, []) else (s, [])
  | .worker k input => (s.dns (.work k input), [])
  | .packet pkt => if s.Idle then (s.dns (.packet pkt), []) else (s, [])
  | .consume => (s.dns .consume, [])
  | .drain =>
    if s.Idle then
      let out := dnsDrain s.world.session.gen s.ring
      ({ s with ring := out.1, queue := out.2 }, [])
    else (s, [])
  | .handle now opened =>
    if s.world.reply = none then handleDnsResult cfg s now opened else (s, [])

def DnsPlane.results (s : DnsPlane) : List DnsResult := s.ring.view dnsResultQLen

/-- The pushes still to come from the workers that have not finished and from a reply that has been
matched. -/
def DnsWorld.outstanding (w : DnsWorld) : Nat :=
  w.workers.countP (fun v => v.pc != .done) + w.reply.toList.length

/-- The results in the ring and those still to be pushed. -/
def DnsPlane.backlog (s : DnsPlane) : Nat :=
  s.ring.count + s.world.outstanding + s.queries.length

theorem dnsPushG_view (r : Belt DnsResult) (x : DnsResult) (room : r.count < dnsResultQLen) :
    (dnsPushG r x).count < dnsResultQLen ∧
      (dnsPushG r x).view dnsResultQLen =
        (r.view dnsResultQLen).drop (if r.count + 1 = dnsResultQLen then 1 else 0) ++ [x] := by
  have pushed := view_push r x room
  unfold dnsPushG
  dsimp only
  have count : (r.push dnsResultQLen x).count = r.count + 1 := rfl
  rw [count]
  by_cases full : r.count + 1 = dnsResultQLen
  · rw [if_pos full, if_pos full]
    have popped : (r.push dnsResultQLen x).view dnsResultQLen = _ := view_pop _ (by omega)
    have some : r.view dnsResultQLen ≠ [] := by
      intro empty
      have none : (r.view dnsResultQLen).length = r.count := view_length r
      rw [empty, List.length_nil] at none
      rw [← none] at full
      exact absurd full (by decide)
    refine ⟨?_, ?_⟩
    · show r.count + 1 - 1 < dnsResultQLen
      omega
    · rw [pushed] at popped
      obtain ⟨y, rest, shape⟩ := List.exists_cons_of_ne_nil some
      rw [shape] at popped ⊢
      exact (List.cons.inj popped).2.symm
  · rw [if_neg full, if_neg full]
    refine ⟨?_, pushed⟩
    rw [count]
    omega

theorem dnsDrainLoop_view (cur : UInt32) (left room : Nat) (r : Belt DnsResult)
    (fresh : ∀ x ∈ r.view dnsResultQLen, x.gen = cur) :
    (dnsDrainLoop cur left room r).1.count ≤ r.count ∧
      ∃ k, (dnsDrainLoop cur left room r).2 = (r.view dnsResultQLen).take k ∧
        (dnsDrainLoop cur left room r).1.view dnsResultQLen = (r.view dnsResultQLen).drop k := by
  induction left generalizing room r with
  | zero => exact ⟨Nat.le_refl _, 0, List.take_zero.symm, List.drop_zero.symm⟩
  | succ left ih =>
    unfold dnsDrainLoop
    by_cases stops : r.count = 0 ∨ room = 0
    · rw [if_pos stops]
      exact ⟨Nat.le_refl _, 0, List.take_zero.symm, List.drop_zero.symm⟩
    · rw [if_neg stops]
      have popped : r.view dnsResultQLen = _ := view_pop r (by omega)
      have gen : (r.cell (r.pos dnsResultQLen 0)).gen = cur :=
        fresh _ (popped ▸ List.mem_cons_self)
      have tail : ∀ x ∈ (r.pop dnsResultQLen).view dnsResultQLen, x.gen = cur :=
        fun x found => fresh x (popped ▸ List.mem_cons_of_mem _ found)
      obtain ⟨fewer, k, taken, kept⟩ := ih (room - 1) (r.pop dnsResultQLen) tail
      dsimp only
      rw [if_pos gen]
      refine ⟨Nat.le_trans fewer (Nat.sub_le _ _), k + 1, ?_, ?_⟩
      · rw [popped, List.take_succ_cons, ← taken]
      · rw [popped, List.drop_succ_cons, ← kept]

section

variable (known : Int → Prop)

def DnsTable.Names (t : DnsTable) : Prop := ∀ w ∈ t.waits, w.inUse = true → known w.flowId

/-- Everything in the world of the workers belongs to a known lookup of this generation. -/
structure DnsWorld.Names (w : DnsWorld) : Prop where
  table : w.table.Names known
  workers : ∀ v ∈ w.workers, known v.job.flowId ∧ v.job.gen = w.session.gen
  reply : ∀ found ∈ w.reply, known found.2.1.flowId

variable {known}

variable {t : DnsTable}

theorem DnsTable.Names.set (names : t.Names known) (slot n : Nat) (v : DnsWait)
    (mine : v.inUse = true → known v.flowId) : DnsTable.Names known ⟨t.waits.set slot v, n⟩ := by
  intro w member used
  rcases List.mem_or_eq_of_mem_set member with old | rfl
  · exact names w old used
  · exact mine used

theorem DnsTable.Names.retire {t : DnsTable} (names : t.Names known) (slot : Nat) :
    (t.retire slot).Names known := by
  unfold DnsTable.retire
  cases t.waits[slot]? with
  | none => exact names
  | some w => exact names.set slot _ _ fun used => absurd used Bool.false_ne_true

theorem DnsTable.Names.retireSlot (names : t.Names known) (slot : Nat)
    (sport id : UInt16) : (dnsRetireSlot t slot sport id).Names known := by
  unfold dnsRetireSlot
  split
  · exact names.retire slot
  · exact names

/-- A step of a worker pushes only for its own job, and with that it is done. -/
structure DnsMove.Fits (known : Int → Prop) (w : DnsWorker) (m : DnsMove) : Prop where
  table : m.table.Names known
  pushed : ∀ x ∈ m.pushed, x.flowId = w.job.flowId ∧ x.gen = w.job.gen
  spent : m.pushed ≠ none → w.pc ≠ .done ∧ m.pc = .done
  done : w.pc = .done → m.pc = .done

theorem DnsMove.Fits.quiet {w : DnsWorker} (names : t.Names known) (ipId : UInt16)
    (pc : DnsPc) (busy : w.pc ≠ .done) : DnsMove.Fits known w ⟨t, ipId, pc, none⟩ :=
  ⟨names, fun _ none => (by cases none), fun some => absurd rfl some, fun done => absurd done busy⟩

theorem DnsMove.Fits.last {w : DnsWorker} (names : t.Names known) (ipId : UInt16)
    {x : DnsResult} (mine : x.flowId = w.job.flowId ∧ x.gen = w.job.gen) (busy : w.pc ≠ .done) :
    DnsMove.Fits known w ⟨t, ipId, .done, some x⟩ := by
  refine ⟨names, ?_, fun _ => ⟨busy, rfl⟩, fun _ => rfl⟩
  intro y found
  rw [← Option.some.inj found]
  exact mine

theorem dnsPoll_fits (names : t.Names known) (ipId : UInt16) (w : DnsWorker)
    (slot : Nat) (id sport : UInt16) (lastSend : UInt64) (input : DnsInput)
    (busy : w.pc ≠ .done) :
    (dnsPoll t ipId w.job slot id sport lastSend input).Fits known w := by
  unfold dnsPoll
  cases here : t.waits[slot]? with
  | none => exact .quiet names ipId _ busy
  | some v =>
    dsimp only
    have kept : v.inUse = true → known v.flowId := names v (List.mem_of_getElem? here)
    split_ifs
    · exact .quiet names ipId _ busy
    · exact .last (names.retire slot) ipId ⟨rfl, rfl⟩ busy
    · exact .quiet (names.set slot _ { v with resends := v.resends - 1 } kept) ipId _ busy
    · exact .quiet (names.set slot _ { v with resends := v.resends - 1 } kept) ipId _ busy
    · exact .quiet names ipId _ busy

theorem dnsWorkerStep_fits (s : DnsSession) (names : t.Names known)
    (ipId : UInt16) (w : DnsWorker) (input : DnsInput) (mine : known w.job.flowId) :
    (dnsWorkerStep s t ipId w input).Fits known w := by
  by_cases busy : w.pc = .done
  · rw [dnsWorkerStep, busy]
    exact ⟨names, fun _ none => (by cases none), fun some => absurd rfl some, fun _ => rfl⟩
  unfold dnsWorkerStep
  cases pc : w.pc with
  | resolving =>
    dsimp only
    split_ifs
    · exact .quiet names ipId _ busy
    · exact .last names ipId ⟨rfl, rfl⟩ busy
  | seating id sport =>
    dsimp only
    unfold dnsSeat
    split
    · exact .quiet names ipId _ busy
    · exact .quiet (names.set _ _ (w.job.wait id sport ipId input.now) fun _ => mine) _ _ busy
  | seated slot id sport =>
    dsimp only
    split_ifs
    · exact .quiet names ipId _ busy
    · exact .quiet (names.retireSlot slot sport id) ipId _ busy
    · exact .quiet names ipId _ busy
  | sending slot id sport =>
    dsimp only
    split_ifs
    · exact .quiet (names.retireSlot slot sport id) ipId _ busy
    · exact .quiet names ipId _ busy
    · exact .quiet names ipId _ busy
  | polling slot id sport lastSend =>
    dsimp only
    split_ifs
    · exact .quiet (names.retireSlot slot sport id) ipId _ busy
    · exact dnsPoll_fits names ipId w slot id sport lastSend input busy
  | failing held =>
    cases held with
    | none => exact .last names ipId ⟨rfl, rfl⟩ busy
    | some held => exact .quiet (names.retireSlot held.1 held.2.2 held.2.1) ipId _ busy
  | done => exact absurd pc busy
  | _ =>
    dsimp only
    split_ifs <;> exact .quiet names ipId _ busy

theorem dnsReadReply_names {s : DnsSession} (names : t.Names known)
    {pkt : List UInt8} {found : Nat × DnsWait × TargetAddr}
    (read : dnsReadReply s t pkt = some found) : known found.2.1.flowId := by
  unfold dnsReadReply at read
  split at read
  · cases read
  · split at read
    · cases read
    · cases lookup : dnsLookup t (dnsDport pkt) with
      | none => rw [lookup] at read; cases read
      | some slot =>
        rw [lookup] at read
        obtain ⟨w, here, used, -⟩ := dnsLookup_some lookup
        dsimp only at read
        rw [here] at read
        obtain ⟨addr, -, rfl⟩ := Option.map_eq_some_iff.mp read
        exact names w (List.mem_of_getElem? here) used

def DnsWorld.busy (w : DnsWorld) (id : Int) : Nat :=
  w.workers.countP fun v => v.job.flowId == id && v.pc != .done

def failures (results : List DnsResult) (id : Int) : Nat :=
  results.countP fun x => x.flowId == id && x.answer == none

/-- What a step of the world may do: push at most one result, of a known lookup, that was owed. -/
structure DnsStepFits (known : Int → Prop) (w : DnsWorld) (extra : Int → Nat)
    (out : DnsWorld × List DnsResult) : Prop where
  names : out.1.Names known
  session : out.1.session = w.session
  pushed : ∀ x ∈ out.2, known x.flowId ∧ x.gen = w.session.gen
  single : out.2.length ≤ 1
  owed : out.2 ≠ [] → 0 < w.outstanding
  load : ∀ id, out.1.busy id + failures out.2 id ≤ w.busy id + extra id

variable {w : DnsWorld}

theorem DnsStepFits.quiet {v : DnsWorld} (names : v.Names known) (session : v.session = w.session)
    (same : v.workers = w.workers) : DnsStepFits known w (fun _ => 0) (v, []) := by
  refine ⟨names, session, fun _ none => (by cases none), Nat.zero_le _, fun some => absurd rfl some,
    fun id => ?_⟩
  unfold DnsWorld.busy
  rw [same]
  exact Nat.le_refl _

theorem DnsMove.Fits.load {v : DnsWorker} {m : DnsMove} (fits : m.Fits known v)
    {workers : List DnsWorker} {k : Nat} (here : workers[k]? = some v) (id : Int) :
    (workers.set k ⟨v.job, m.pc⟩).countP (fun v => v.job.flowId == id && v.pc != .done) +
        failures m.pushed.toList id ≤
      workers.countP fun v => v.job.flowId == id && v.pc != .done := by
  have count := Pool.countP_write (fun v : DnsWorker => v.job.flowId == id && v.pc != .done)
    ⟨v.job, m.pc⟩ here
  dsimp only at count
  by_cases own : v.job.flowId = id
  · rw [beq_iff_eq.mpr own, Bool.true_and, Bool.true_and] at count
    cases pushed : m.pushed with
    | none =>
      have none : failures (Option.toList none) id = 0 := rfl
      rw [none]
      by_cases done : v.pc = .done
      · rw [done, fits.done done] at count
        rw [fits.done done]
        omega
      · rw [if_pos (bne_iff_ne.mpr done)] at count
        split at count <;> omega
    | some x =>
      obtain ⟨busy, after⟩ := fits.spent (by rw [pushed]; exact Option.some_ne_none x)
      have bound : failures [x] id ≤ 1 := List.countP_le_length
      rw [if_pos (bne_iff_ne.mpr busy), after] at count
      have idle : ¬ (DnsPc.done != DnsPc.done) = true := by decide
      rw [if_neg idle] at count
      show _ + failures [x] id ≤ _
      rw [after]
      omega
  · rw [beq_false_of_ne own, Bool.false_and, Bool.false_and] at count
    have nothing : failures m.pushed.toList id = 0 := by
      refine List.countP_eq_zero.mpr fun x found => ?_
      rw [(fits.pushed x (Option.mem_toList.mp found)).1, beq_false_of_ne own, Bool.false_and]
      exact Bool.false_ne_true
    rw [nothing]
    exact Nat.le_of_eq count

theorem dnsStep_work_fits (names : w.Names known) (k : Nat) (input : DnsInput) :
    DnsStepFits known w (fun _ => 0) (dnsStep w (.work k input)) := by
  simp only [dnsStep]
  cases here : w.workers[k]? with
  | none => exact .quiet names rfl rfl
  | some v =>
    obtain ⟨mine, gen⟩ := names.workers v (List.mem_of_getElem? here)
    have fits := dnsWorkerStep_fits w.session names.table w.ipId v input mine
    dsimp only
    generalize dnsWorkerStep w.session w.table w.ipId v input = m at fits ⊢
    refine ⟨⟨fits.table, ?_, names.reply⟩, rfl, ?_, ?_, fun pushed => ?_, fits.load here⟩
    · intro u member
      rcases List.mem_or_eq_of_mem_set member with old | rfl
      · exact names.workers u old
      · exact ⟨mine, gen⟩
    · intro x found
      obtain ⟨flow, own⟩ := fits.pushed x (Option.mem_toList.mp found)
      exact ⟨flow ▸ mine, own.trans gen⟩
    · cases m.pushed with
      | none => exact Nat.zero_le _
      | some x => exact Nat.le_refl _
    · have busy := (fits.spent fun none => pushed (by rw [none]; rfl)).1
      have counted := (List.countP_pos_iff (p := fun v : DnsWorker => v.pc != .done)).mpr
        ⟨v, List.mem_of_getElem? here, bne_iff_ne.mpr busy⟩
      exact Nat.lt_of_lt_of_le counted (Nat.le_add_right _ _)

theorem dnsStep_spawn_fits (names : w.Names known) (job : DnsJob)
    (mine : known job.flowId ∧ job.gen = w.session.gen) :
    DnsStepFits known w (fun id => if job.flowId = id then 1 else 0) (dnsStep w (.spawn job)) := by
  simp only [dnsStep]
  split
  · refine ⟨⟨names.table, ?_, names.reply⟩, rfl, fun _ none => (by cases none), Nat.zero_le _,
      fun some => absurd rfl some, fun id => ?_⟩
    · intro v member
      rcases List.mem_append.mp member with old | new
      · exact names.workers v old
      · rw [List.mem_singleton.mp new]
        exact mine
    · dsimp only [DnsWorld.busy]
      rw [List.countP_append, List.countP_singleton]
      by_cases own : job.flowId = id
      · rw [if_pos own]
        show List.countP _ _ + (if _ then 1 else 0) + 0 ≤ _
        split <;> omega
      · rw [beq_false_of_ne own, Bool.false_and]
        exact Nat.le_add_right _ _
  · refine ⟨names, rfl, fun _ none => (by cases none), Nat.zero_le _, fun some => absurd rfl some,
      fun id => ?_⟩
    exact Nat.le_add_right _ _

theorem dnsStep_packet_fits (names : w.Names known) (pkt : List UInt8) :
    DnsStepFits known w (fun _ => 0) (dnsStep w (.packet pkt)) := by
  simp only [dnsStep]
  split
  · refine .quiet ⟨names.table, names.workers, ?_⟩ rfl rfl
    intro found read
    exact dnsReadReply_names names.table read
  · exact .quiet names rfl rfl

theorem dnsStep_consume_fits (names : w.Names known) :
    DnsStepFits known w (fun _ => 0) (dnsStep w .consume) := by
  simp only [dnsStep]
  cases reply : w.reply with
  | none => exact .quiet names rfl rfl
  | some found =>
    obtain ⟨slot, v, addr⟩ := found
    have mine : known v.flowId := names.reply (slot, v, addr) reply
    dsimp only
    unfold dnsConsumeAnswer
    split
    · refine ⟨⟨names.table.retire slot, names.workers, fun _ none => (by cases none)⟩, rfl, ?_,
        Nat.le_refl _, fun _ => ?_, fun id => ?_⟩
      · intro x member
        rw [List.mem_singleton.mp member]
        exact ⟨mine, rfl⟩
      · rw [DnsWorld.outstanding, reply]
        exact Nat.succ_pos _
      · have answered : failures [(⟨w.session.gen, v.flowId, some addr, v.port⟩ : DnsResult)] id =
            0 := by
          unfold failures
          have answer : ((some addr : Option TargetAddr) == none) = false := rfl
          rw [List.countP_singleton, answer, Bool.and_false]
          rfl
        exact Nat.le_of_eq (congrArg (w.busy id + ·) answered)
    · exact .quiet ⟨names.table, names.workers, fun _ none => (by cases none)⟩ rfl rfl

end

end Iwan
