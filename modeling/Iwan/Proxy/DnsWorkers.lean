import Iwan.Lib.Pool
import Iwan.Lib.Trace
import Iwan.Proxy.Dns

/- The DNS workers and the event loop, interleaved (socks_dns.c). -/
namespace Iwan

/-- What a worker is started with. -/
structure DnsJob where
  flowId : Int
  port : UInt16
  domain : List UInt8
  gen : UInt32
  qtype : UInt8
deriving DecidableEq, Repr

/-- Every step from one of these is one critical section, or a read of the generation. -/
inductive DnsPc where
  | start
  | resolving
  | probing (id : UInt16) (first : UInt32) (tries : Nat)
  | registering (id sport : UInt16)
  | seating (id sport : UInt16)
  | seated (slot : Nat) (id sport : UInt16)
  | sending (slot : Nat) (id sport : UInt16)
  | polling (slot : Nat) (id sport : UInt16) (lastSend : UInt64)
  | failing (held : Option (Nat × UInt16 × UInt16))
  | done
deriving DecidableEq, Repr

/-- A worker and where it stands. -/
structure DnsWorker where
  job : DnsJob
  pc : DnsPc
deriving DecidableEq, Repr

/-- What a step of a worker takes from outside. -/
structure DnsInput where
  randId : UInt16
  randPort : UInt32
  now : UInt64
  sockOpen : Bool
  sent : Bool
  localAnswer : Option TargetAddr
deriving DecidableEq, Repr

/-- The wait table, the workers and the reply handler. -/
structure DnsWorld where
  table : DnsTable
  session : DnsSession
  ipId : UInt16
  workers : List DnsWorker
  -- the reply handler between its two critical sections: the entry it matched and the address
  reply : Option (Nat × DnsWait × TargetAddr)
deriving DecidableEq, Repr

def DnsWait.idle : DnsWait := ⟨false, 0, 0, 0, 0, 0, [], 0, 0, 0⟩

def DnsWorld.start (session : DnsSession) : DnsWorld :=
  ⟨⟨List.replicate dnsWaitMax .idle, 0⟩, session, 0, [], none⟩

def dnsPollMs : UInt64 := 250

def dnsPortBase : Nat := 49152

def dnsPortTop : Nat := 65535

def dnsPort (first : UInt32) (tries : Nat) : UInt16 :=
  UInt16.ofNat (dnsPortBase +
    (first.toNat % (dnsPortTop - dnsPortBase) + tries) % (dnsPortTop - dnsPortBase + 1))

def dnsStale (s : DnsSession) (j : DnsJob) : Bool := s.gen != j.gen

def dnsSportInUse (t : DnsTable) (p : UInt16) : Bool :=
  t.waits.any fun w => w.inUse && w.sport == p

def DnsJob.wait (j : DnsJob) (id sport ipid : UInt16) (now : UInt64) : DnsWait :=
  ⟨true, id, sport, ipid, now + dnsTimeoutMs, dnsMaxResend, j.domain.take 255, j.flowId, j.port,
    j.qtype⟩

def dnsRetireSlot (t : DnsTable) (slot : Nat) (sport id : UInt16) : DnsTable :=
  if dnsStillWaits t slot sport id then t.retire slot else t

def DnsJob.failure (j : DnsJob) : DnsResult := ⟨j.gen, j.flowId, none, j.port⟩

/-- The table, the packet counter, the worker's place, and what it pushes. -/
structure DnsMove where
  table : DnsTable
  ipId : UInt16
  pc : DnsPc
  pushed : Option DnsResult

def dnsPoll (t : DnsTable) (ipId : UInt16) (j : DnsJob) (slot : Nat) (id sport : UInt16)
    (lastSend : UInt64) (input : DnsInput) : DnsMove :=
  match t.waits[slot]? with
  | none => ⟨t, ipId, .done, none⟩
  | some w =>
    if !dnsStillWaits t slot sport id then ⟨t, ipId, .done, none⟩
    else if w.deadline ≤ input.now then ⟨t.retire slot, ipId, .done, some j.failure⟩
    else if dnsPollMs ≤ input.now - lastSend ∧ 0 < w.resends then
      ⟨⟨t.waits.set slot { w with resends := w.resends - 1 }, t.waitN⟩, ipId,
        .polling slot id sport (if input.sent then input.now else lastSend), none⟩
    else ⟨t, ipId, .polling slot id sport lastSend, none⟩

def dnsSeat (t : DnsTable) (ipId : UInt16) (j : DnsJob) (id sport : UInt16)
    (input : DnsInput) : DnsMove :=
  match t.waits.findIdx? fun w => !w.inUse with
  | none => ⟨t, ipId, .failing none, none⟩
  | some slot =>
    ⟨⟨t.waits.set slot (j.wait id sport ipId input.now), t.waitN + 1⟩, ipId + 1,
      .seated slot id sport, none⟩

def dnsWorkerStep (s : DnsSession) (t : DnsTable) (ipId : UInt16) (w : DnsWorker)
    (input : DnsInput) : DnsMove :=
  match w.pc with
  | .start =>
    if dnsStale s w.job then ⟨t, ipId, .done, none⟩
    else if s.serverIp4 = 0 ∨ w.job.qtype = 0 then ⟨t, ipId, .resolving, none⟩
    else if !input.sockOpen then ⟨t, ipId, .failing none, none⟩
    else if dnsBuildQuery input.randId w.job.domain w.job.qtype 512 = none then
      ⟨t, ipId, .failing none, none⟩
    else ⟨t, ipId, .probing input.randId input.randPort 0, none⟩
  | .resolving =>
    if dnsStale s w.job then ⟨t, ipId, .done, none⟩
    else ⟨t, ipId, .done, some ⟨w.job.gen, w.job.flowId, input.localAnswer, w.job.port⟩⟩
  | .probing id first tries =>
    if !dnsSportInUse t (dnsPort first tries) then
      ⟨t, ipId, .registering id (dnsPort first tries), none⟩
    else if tries + 1 < 2048 then ⟨t, ipId, .probing id first (tries + 1), none⟩
    else ⟨t, ipId, .failing none, none⟩
  | .registering id sport =>
    if dnsStale s w.job then ⟨t, ipId, .failing none, none⟩
    else ⟨t, ipId, .seating id sport, none⟩
  | .seating id sport => dnsSeat t ipId w.job id sport input
  | .seated slot id sport =>
    if !dnsStillWaits t slot sport id then ⟨t, ipId, .done, none⟩
    else if dnsStale s w.job then ⟨dnsRetireSlot t slot sport id, ipId, .done, none⟩
    else ⟨t, ipId, .sending slot id sport, none⟩
  | .sending slot id sport =>
    if dnsStale s w.job then ⟨dnsRetireSlot t slot sport id, ipId, .done, none⟩
    else if !input.sent then ⟨t, ipId, .failing (some (slot, id, sport)), none⟩
    else ⟨t, ipId, .polling slot id sport input.now, none⟩
  | .polling slot id sport lastSend =>
    if dnsStale s w.job then ⟨dnsRetireSlot t slot sport id, ipId, .done, none⟩
    else dnsPoll t ipId w.job slot id sport lastSend input
  | .failing (some (slot, id, sport)) =>
    ⟨dnsRetireSlot t slot sport id, ipId, .failing none, none⟩
  | .failing none => ⟨t, ipId, .done, some w.job.failure⟩
  | .done => ⟨t, ipId, .done, none⟩

inductive DnsEvent where
  | spawn (job : DnsJob)
  | work (worker : Nat) (input : DnsInput)
  | packet (pkt : List UInt8)
  | consume
  | stop
  | reset
  | renew (serverIp4 ip : UInt32)
deriving DecidableEq, Repr

def dnsReadReply (s : DnsSession) (t : DnsTable) (pkt : List UInt8) :
    Option (Nat × DnsWait × TargetAddr) :=
  if !dnsUdpOk pkt then none
  else if t.waitN = 0 then none
  else
    match dnsLookup t (dnsDport pkt) with
    | none => none
    | some slot =>
      match t.waits[slot]? with
      | none => none
      | some w => (dnsMatch s w pkt).map fun addr => (slot, w, addr)

def dnsStep (s : DnsWorld) (e : DnsEvent) : DnsWorld × List DnsResult :=
  match e with
  | .work k input =>
    match s.workers[k]? with
    | none => (s, [])
    | some w =>
      let move := dnsWorkerStep s.session s.table s.ipId w input
      ({ s with table := move.table, ipId := move.ipId,
                workers := s.workers.set k ⟨w.job, move.pc⟩ }, move.pushed.toList)
  | .consume =>
    match s.reply with
    | none => (s, [])
    | some (slot, w, addr) =>
      let outcome := dnsConsumeAnswer s.session s.table slot w addr
      ({ s with table := outcome.table, reply := none }, outcome.pushed.toList)
  -- the remaining events are the event loop's own: it has left the reply handler
  | .spawn job =>
    if s.reply = none then ({ s with workers := s.workers ++ [⟨job, .start⟩] }, []) else (s, [])
  | .packet pkt =>
    if s.reply = none then ({ s with reply := dnsReadReply s.session s.table pkt }, [])
    else (s, [])
  | .stop =>
    if s.reply = none then
      ({ s with session := { s.session with gen := s.session.gen + 1 } }, [])
    else (s, [])
  | .reset =>
    if s.reply = none then
      ({ s with table := ⟨s.table.waits.map fun w => { w with inUse := false }, 0⟩,
                session := { s.session with gen := s.session.gen + 1 } }, [])
    else (s, [])
  | .renew serverIp4 ip =>
    if s.reply = none then ({ s with session := ⟨serverIp4, ip, s.session.gen⟩ }, []) else (s, [])

def dnsRun (session : DnsSession) (events : List DnsEvent) : DnsWorld :=
  Trace.final dnsStep (DnsWorld.start session) events

/-- What a step can do to the wait table. -/
inductive DnsWrite (t : DnsTable) (port : Option UInt16) : DnsTable → Prop where
  | same : DnsWrite t port t
  | retire {slot : Nat} {w : DnsWait} (here : t.waits[slot]? = some w) (used : w.inUse = true) :
      DnsWrite t port (t.retire slot)
  | keep {slot : Nat} {w v : DnsWait} (here : t.waits[slot]? = some w) (use : v.inUse = w.inUse)
      (kept : v.sport = w.sport) : DnsWrite t port ⟨t.waits.set slot v, t.waitN⟩
  | seat {slot : Nat} {w v : DnsWait} (here : t.waits[slot]? = some w) (spare : w.inUse = false)
      (used : v.inUse = true) (brings : port = some v.sport) :
      DnsWrite t port ⟨t.waits.set slot v, t.waitN + 1⟩
  | clear : DnsWrite t port ⟨t.waits.map fun w => { w with inUse := false }, 0⟩

theorem DnsTable.Counted.write {t t' : DnsTable} {port : Option UInt16} (counted : t.Counted)
    (write : DnsWrite t port t') : t'.Counted := by
  unfold DnsTable.Counted DnsTable.pending at *
  cases write with
  | same => exact counted
  | @retire slot w here used =>
    have count := Pool.countP_write (fun w : DnsWait => w.inUse) { w with inUse := false } here
    simp only [used, ↓reduceIte, Bool.false_eq_true, Nat.add_zero] at count
    simp only [DnsTable.retire, here]
    omega
  | @keep slot w v here use kept =>
    have count := Pool.countP_write (fun w : DnsWait => w.inUse) v here
    rw [use] at count
    dsimp only
    omega
  | @seat slot w v here spare used brings =>
    have count := Pool.countP_write (fun w : DnsWait => w.inUse) v here
    simp only [spare, used, ↓reduceIte, Bool.false_eq_true, Nat.add_zero] at count
    dsimp only
    omega
  | clear =>
    have none : ∀ w ∈ t.waits.map fun w => { w with inUse := false }, ¬ w.inUse = true := by
      intro w member
      obtain ⟨v, -, rfl⟩ := List.mem_map.mp member
      exact Bool.false_ne_true
    exact (List.countP_eq_zero.mpr none).symm

variable {t : DnsTable}

theorem DnsTable.Distinct.set (distinct : t.Distinct) {slot n : Nat} {v : DnsWait}
    (fresh : v.inUse = true → ∀ (j : Nat) (u : DnsWait), t.waits[j]? = some u → u.inUse = true →
      u.sport = v.sport → j = slot) : DnsTable.Distinct ⟨t.waits.set slot v, n⟩ := by
  intro i j w u first second used inUse same
  rw [List.getElem?_set] at first second
  by_cases here : slot = i
  · by_cases there : slot = j
    · exact here.symm.trans there
    · rw [if_neg there] at second
      rw [if_pos here] at first
      split_ifs at first
      rw [Option.some.injEq] at first
      subst first
      exact here.symm.trans (fresh used j u second inUse same.symm).symm
  · rw [if_neg here] at first
    by_cases there : slot = j
    · rw [if_pos there] at second
      split_ifs at second
      rw [Option.some.injEq] at second
      subst second
      exact (fresh inUse i w first used same).trans there
    · rw [if_neg there] at second
      exact distinct i j w u first second used inUse same

theorem dnsSportInUse_iff {sport : UInt16} :
    dnsSportInUse t sport = true ↔ ∃ w ∈ t.waits, w.inUse = true ∧ w.sport = sport := by
  rw [dnsSportInUse, List.any_eq_true]
  refine exists_congr fun w => and_congr_right fun _ => ?_
  rw [Bool.and_eq_true, beq_iff_eq]

theorem dnsSportInUse_set {slot n : Nat} {v : DnsWait} {sport : UInt16}
    (used : dnsSportInUse ⟨t.waits.set slot v, n⟩ sport = true) :
    dnsSportInUse t sport = true ∨ v.inUse = true ∧ v.sport = sport := by
  obtain ⟨w, member, inUse, same⟩ := dnsSportInUse_iff.mp used
  rcases List.mem_or_eq_of_mem_set member with before | rfl
  · exact .inl (dnsSportInUse_iff.mpr ⟨w, before, inUse, same⟩)
  · exact .inr ⟨inUse, same⟩

/-- The only port that comes into use is the one that the step brings. -/
theorem DnsWrite.inUse {t t' : DnsTable} {port : Option UInt16} (write : DnsWrite t port t')
    {sport : UInt16} (used : dnsSportInUse t' sport = true) :
    dnsSportInUse t sport = true ∨ port = some sport := by
  cases write with
  | same => exact .inl used
  | @retire slot w here inUse =>
    simp only [DnsTable.retire, here] at used
    refine (dnsSportInUse_set used).imp_right fun here => ?_
    cases here.1
  | @keep slot w v here use kept =>
    refine (dnsSportInUse_set used).elim .inl fun changed => .inl ?_
    exact dnsSportInUse_iff.mpr
      ⟨w, List.mem_of_getElem? here, use.symm.trans changed.1, kept.symm.trans changed.2⟩
  | @seat slot w v here spare inUse brings =>
    refine (dnsSportInUse_set used).imp_right fun seated => ?_
    rw [brings, seated.2]
  | clear =>
    obtain ⟨w, member, inUse, _⟩ := dnsSportInUse_iff.mp used
    obtain ⟨v, -, rfl⟩ := List.mem_map.mp member
    cases inUse

theorem DnsTable.Distinct.write {t t' : DnsTable} {port : Option UInt16} (distinct : t.Distinct)
    (write : DnsWrite t port t')
    (fresh : ∀ sport, port = some sport → dnsSportInUse t sport = false) : t'.Distinct := by
  cases write with
  | same => exact distinct
  | @retire slot w here used =>
    simp only [DnsTable.retire, here]
    exact distinct.set nofun
  | @keep slot w v here use kept =>
    refine distinct.set fun used j u there inUse same => ?_
    exact distinct j slot u w there here inUse (use.symm.trans used) (same.trans kept)
  | @seat slot w v here spare used brings =>
    refine distinct.set fun _ j u there inUse same => ?_
    have used := dnsSportInUse_iff.mpr ⟨u, List.mem_of_getElem? there, inUse, same⟩
    rw [fresh v.sport brings] at used
    cases used
  | clear =>
    intro i j w u first second used
    rw [List.getElem?_map, Option.map_eq_some_iff] at first
    obtain ⟨v, -, rfl⟩ := first
    cases used

theorem dnsStillWaits_iff {slot : Nat} {sport id : UInt16}
    (waits : dnsStillWaits t slot sport id = true) :
    ∃ w, t.waits[slot]? = some w ∧ w.inUse = true := by
  unfold dnsStillWaits at waits
  cases here : t.waits[slot]? with
  | none => rw [here] at waits; cases waits
  | some w =>
    rw [here, Bool.and_eq_true, Bool.and_eq_true] at waits
    exact ⟨w, rfl, waits.1.1⟩

theorem dnsRetireSlot_write (t : DnsTable) (slot : Nat) (sport id : UInt16)
    (port : Option UInt16) : DnsWrite t port (dnsRetireSlot t slot sport id) := by
  unfold dnsRetireSlot
  by_cases waits : dnsStillWaits t slot sport id = true
  · rw [if_pos waits]
    obtain ⟨w, here, used⟩ := dnsStillWaits_iff waits
    exact .retire here used
  · rw [if_neg waits]
    exact .same

theorem dnsPoll_write (t : DnsTable) (ipId : UInt16) (j : DnsJob) (slot : Nat) (id sport : UInt16)
    (lastSend : UInt64) (input : DnsInput) (port : Option UInt16) :
    DnsWrite t port (dnsPoll t ipId j slot id sport lastSend input).table := by
  unfold dnsPoll
  cases here : t.waits[slot]? with
  | none => exact .same
  | some w =>
    dsimp only
    cases waits : dnsStillWaits t slot sport id with
    | false => exact .same
    | true =>
      obtain ⟨v, there, used⟩ := dnsStillWaits_iff waits
      rw [here, Option.some.injEq] at there
      subst there
      simp only [Bool.not_true, Bool.false_eq_true, ↓reduceIte]
      split_ifs
      · exact .retire here used
      · exact .keep here rfl rfl
      · exact .keep here rfl rfl
      · exact .same

def DnsPc.seats : DnsPc → Option UInt16
  | .seating _ sport => some sport
  | _ => none

theorem dnsSeat_write (t : DnsTable) (ipId : UInt16) (j : DnsJob) (id sport : UInt16)
    (input : DnsInput) : DnsWrite t (some sport) (dnsSeat t ipId j id sport input).table := by
  unfold dnsSeat
  cases free : t.waits.findIdx? fun w => !w.inUse with
  | none => exact .same
  | some slot =>
    obtain ⟨inside, spare, -⟩ := List.findIdx?_eq_some_iff_getElem.mp free
    exact .seat (List.getElem?_eq_getElem inside) (by simpa using spare) rfl rfl

theorem dnsWorkerStep_write (s : DnsSession) (t : DnsTable) (ipId : UInt16) (w : DnsWorker)
    (input : DnsInput) : DnsWrite t w.pc.seats (dnsWorkerStep s t ipId w input).table := by
  unfold dnsWorkerStep
  cases w.pc with
  | seating id sport => exact dnsSeat_write t ipId w.job id sport input
  | seated slot id sport =>
    dsimp only
    split_ifs
    · exact .same
    · exact dnsRetireSlot_write t slot sport id none
    · exact .same
  | sending slot id sport =>
    dsimp only
    split_ifs
    · exact dnsRetireSlot_write t slot sport id none
    · exact .same
    · exact .same
  | polling slot id sport lastSend =>
    dsimp only
    split_ifs
    · exact dnsRetireSlot_write t slot sport id none
    · exact dnsPoll_write t ipId w.job slot id sport lastSend input none
  | failing held =>
    cases held with
    | none => exact .same
    | some held => exact dnsRetireSlot_write t held.1 held.2.2 held.2.1 none
  | done => exact .same
  | _ => dsimp only; split_ifs <;> exact .same

def DnsEvent.seats (s : DnsWorld) : DnsEvent → Option UInt16
  | .work k _ => (s.workers[k]?).bind fun w => w.pc.seats
  | _ => none

/-- The port of a worker that has found it unused and has not yet taken its entry. -/
def DnsPc.chosen : DnsPc → Option UInt16
  | .registering _ sport => some sport
  | .seating _ sport => some sport
  | _ => none

/-- A worker that takes its entry is the only one with its port between the search and the take. -/
def DnsEvent.Alone (s : DnsWorld) (e : DnsEvent) : Prop :=
  ∀ sport ∈ e.seats s, s.workers.countP (fun w => w.pc.chosen = some sport) ≤ 1

instance (s : DnsWorld) (e : DnsEvent) : Decidable (e.Alone s) :=
  decidable_of_iff ((e.seats s).all (fun sport =>
      s.workers.countP (fun w => w.pc.chosen = some sport) ≤ 1) = true) <| by
    rw [Option.all_eq_true]
    exact forall_congr' fun sport => imp_congr Option.mem_def.symm decide_eq_true_iff

theorem dnsStep_write (s : DnsWorld) (e : DnsEvent) :
    DnsWrite s.table (e.seats s) (dnsStep s e).1.table := by
  cases e with
  | work k input =>
    simp only [dnsStep, DnsEvent.seats]
    cases s.workers[k]? with
    | none => exact .same
    | some w => exact dnsWorkerStep_write s.session s.table s.ipId w input
  | consume =>
    simp only [dnsStep]
    cases s.reply with
    | none => exact .same
    | some found =>
      simp only [dnsConsumeAnswer]
      split_ifs with waits
      · obtain ⟨w, here, used⟩ := dnsStillWaits_iff waits
        exact .retire here used
      · exact .same
  | reset =>
    simp only [dnsStep]
    split_ifs
    · exact .clear
    · exact .same
  | _ => simp only [dnsStep]; split_ifs <;> exact .same

theorem DnsWorld.start_counted (session : DnsSession) : (DnsWorld.start session).table.Counted := by
  have none : ∀ w ∈ List.replicate dnsWaitMax DnsWait.idle, ¬ w.inUse = true := by
    intro w member
    rw [(List.mem_replicate.mp member).2]
    exact Bool.false_ne_true
  exact (List.countP_eq_zero.mpr none).symm

theorem DnsWorld.start_distinct (session : DnsSession) :
    (DnsWorld.start session).table.Distinct := by
  intro i j w v first _ used
  have idle := (List.mem_replicate.mp (List.mem_of_getElem? first)).2
  rw [idle] at used
  cases used

theorem dnsRun_counted (session : DnsSession) (events : List DnsEvent) :
    (dnsRun session events).table.Counted :=
  Trace.final_invariant dnsStep (fun s => s.table.Counted)
    (fun s e counted => counted.write (dnsStep_write s e)) (DnsWorld.start session) events
    (DnsWorld.start_counted session)

theorem dnsPoll_chosen (t : DnsTable) (ipId : UInt16) (j : DnsJob) (slot : Nat)
    (id sport : UInt16) (lastSend : UInt64) (input : DnsInput) :
    (dnsPoll t ipId j slot id sport lastSend input).pc.chosen = none := by
  unfold dnsPoll
  cases t.waits[slot]? with
  | none => rfl
  | some w =>
    dsimp only
    split
    · rfl
    · split
      · rfl
      · split <;> rfl

theorem dnsSeat_chosen (t : DnsTable) (ipId : UInt16) (j : DnsJob) (id sport : UInt16)
    (input : DnsInput) : (dnsSeat t ipId j id sport input).pc.chosen = none := by
  unfold dnsSeat
  split <;> rfl

theorem dnsWorkerStep_chosen (s : DnsSession) (t : DnsTable) (ipId : UInt16) (w : DnsWorker)
    (input : DnsInput) {sport : UInt16}
    (chosen : (dnsWorkerStep s t ipId w input).pc.chosen = some sport) :
    (dnsWorkerStep s t ipId w input).table = t ∧ w.pc.seats = none ∧
      (w.pc.chosen = some sport ∨ dnsSportInUse t sport = false) := by
  revert chosen
  unfold dnsWorkerStep
  cases w.pc with
  | probing id first tries =>
    dsimp only
    split_ifs with unused <;> intro chosen <;> cases chosen
    exact ⟨rfl, rfl, .inr (by simpa using unused)⟩
  | registering id port =>
    dsimp only
    split_ifs <;> intro chosen
    · cases chosen
    · exact ⟨rfl, rfl, .inl chosen⟩
  | seating id port =>
    dsimp only
    rw [dnsSeat_chosen]
    intro chosen
    cases chosen
  | polling slot id port lastSend =>
    dsimp only
    split_ifs
    · intro chosen
      cases chosen
    · rw [dnsPoll_chosen]
      intro chosen
      cases chosen
  | failing held => cases held <;> intro chosen <;> cases chosen
  | done => intro chosen; cases chosen
  | _ => dsimp only; split_ifs <;> intro chosen <;> cases chosen

/-- The ports in use differ from each other and from those of the workers that have chosen one and
not yet taken an entry. -/
structure DnsWorld.Apart (s : DnsWorld) : Prop where
  distinct : s.table.Distinct
  unused : ∀ w ∈ s.workers, ∀ sport, w.pc.chosen = some sport → dnsSportInUse s.table sport = false

theorem DnsPc.chosen_of_seats {pc : DnsPc} {sport : UInt16} (seats : pc.seats = some sport) :
    pc.chosen = some sport := by
  cases pc with
  | seating id port => exact seats
  | _ => cases seats

theorem DnsEvent.seats_worker {s : DnsWorld} {e : DnsEvent} {sport : UInt16}
    (seats : e.seats s = some sport) :
    ∃ k input w, e = .work k input ∧ s.workers[k]? = some w ∧ w.pc.seats = some sport := by
  cases e with
  | work k input =>
    obtain ⟨w, here, pc⟩ := Option.bind_eq_some_iff.mp seats
    exact ⟨k, input, w, rfl, here, pc⟩
  | _ => cases seats

variable {s : DnsWorld} {e : DnsEvent}

theorem DnsWorld.Apart.fresh (apart : s.Apart) {sport : UInt16}
    (seats : e.seats s = some sport) : dnsSportInUse s.table sport = false := by
  obtain ⟨k, input, w, -, here, pc⟩ := DnsEvent.seats_worker seats
  exact apart.unused w (List.mem_of_getElem? here) sport (DnsPc.chosen_of_seats pc)

/-- A worker after the step that stands with a port did so before, or has just found it unused. -/
theorem dnsStep_chosen {v : DnsWorker} (member : v ∈ (dnsStep s e).1.workers) {sport : UInt16}
    (chosen : v.pc.chosen = some sport) :
    v ∈ s.workers ∨ (dnsStep s e).1.table = s.table ∧
      ((∃ w ∈ s.workers, w.pc.chosen = some sport) ∨ dnsSportInUse s.table sport = false) := by
  cases e with
  | work k input =>
    simp only [dnsStep] at member ⊢
    cases here : s.workers[k]? with
    | none =>
      rw [here] at member
      exact .inl member
    | some w =>
      rw [here] at member
      dsimp only at member ⊢
      rcases List.mem_or_eq_of_mem_set member with before | rfl
      · exact .inl before
      · obtain ⟨same, -, held⟩ := dnsWorkerStep_chosen s.session s.table s.ipId w input chosen
        exact .inr ⟨same, held.imp_left fun held => ⟨w, List.mem_of_getElem? here, held⟩⟩
  | spawn job =>
    simp only [dnsStep] at member ⊢
    split_ifs at member
    · rcases List.mem_append.mp member with before | last
      · exact .inl before
      · rw [List.mem_singleton.mp last] at chosen
        cases chosen
    · exact .inl member
  | consume =>
    simp only [dnsStep] at member
    cases found : s.reply with
    | none =>
      rw [found] at member
      exact .inl member
    | some reply =>
      rw [found] at member
      exact .inl member
  | _ =>
    simp only [dnsStep] at member
    split_ifs at member <;> exact .inl member

/-- Once a worker has taken its entry, no other stands with the same port. -/
theorem DnsEvent.Alone.none_left (alone : e.Alone s) {sport : UInt16}
    (seats : e.seats s = some sport) {v : DnsWorker} (member : v ∈ (dnsStep s e).1.workers) :
    v.pc.chosen ≠ some sport := by
  have few := alone sport seats
  obtain ⟨k, input, w, rfl, here, pc⟩ := DnsEvent.seats_worker seats
  have left : (dnsWorkerStep s.session s.table s.ipId w input).pc.chosen ≠ some sport := by
    intro chosen
    obtain ⟨-, none, -⟩ := dnsWorkerStep_chosen s.session s.table s.ipId w input chosen
    rw [none] at pc
    cases pc
  have count := Pool.countP_write (fun w : DnsWorker => decide (w.pc.chosen = some sport))
    ⟨w.job, (dnsWorkerStep s.session s.table s.ipId w input).pc⟩ here
  simp only [DnsPc.chosen_of_seats pc, left, decide_true, decide_false, ↓reduceIte,
    Bool.false_eq_true] at count
  simp only [dnsStep, here] at member
  intro chosen
  have held : decide (v.pc.chosen = some sport) = true := decide_eq_true chosen
  have positive := (List.countP_pos_iff
    (p := fun w : DnsWorker => decide (w.pc.chosen = some sport))).mpr ⟨v, member, held⟩
  omega

theorem DnsWorld.Apart.step (alone : e.Alone s) (apart : s.Apart) : (dnsStep s e).1.Apart := by
  refine ⟨apart.distinct.write (dnsStep_write s e) fun _ => apart.fresh, ?_⟩
  intro v member sport chosen
  rw [← Bool.not_eq_true]
  intro used
  have before : dnsSportInUse s.table sport = true := by
    rcases (dnsStep_write s e).inUse used with before | seats
    · exact before
    · exact absurd chosen (alone.none_left seats member)
  rcases dnsStep_chosen member chosen with same | ⟨_, ⟨w, inside, held⟩ | unused⟩
  · rw [apart.unused v same sport chosen] at before
    cases before
  · rw [apart.unused w inside sport held] at before
    cases before
  · rw [unused] at before
    cases before

theorem DnsWorld.start_apart (session : DnsSession) : (DnsWorld.start session).Apart :=
  ⟨DnsWorld.start_distinct session, fun _ member => by cases member⟩

/-- In every run the counter is the number of entries in use. If no worker takes its entry while
another one stands with the same port between its search and its take, the pending queries have
different ports, and a reply to one of them finds its own entry. -/
theorem dnsRun_distinguishes (session : DnsSession) (events : List DnsEvent) :
    (dnsRun session events).table.Counted ∧
      (Trace.Along dnsStep (fun s e => e.Alone s) (DnsWorld.start session) events →
        (dnsRun session events).table.Distinct ∧
        ∀ (slot : Nat) (w : DnsWait), (dnsRun session events).table.waits[slot]? = some w →
          w.inUse = true → dnsLookup (dnsRun session events).table w.sport = some slot) := by
  refine ⟨dnsRun_counted session events, fun along => ?_⟩
  have apart : (dnsRun session events).Apart :=
    Trace.final_along_invariant dnsStep (fun s e => e.Alone s) DnsWorld.Apart
      (fun s e alone apart => apart.step alone) (DnsWorld.start session) events along
      (DnsWorld.start_apart session)
  exact ⟨apart.distinct, fun slot w here used => apart.distinct.lookup here used⟩

theorem dnsRun_distinguishes_sample :
    let job (flow : Int) : DnsJob := ⟨flow, 443, [0x61], 1, 1⟩
    let input (id : UInt16) : DnsInput := ⟨id, 0, 0, true, true, none⟩
    let events : List DnsEvent :=
      [.spawn (job 1), .spawn (job 2), .work 0 (input 1), .work 1 (input 2), .work 0 (input 1),
        .work 0 (input 1), .work 0 (input 1), .work 1 (input 2), .work 1 (input 2),
        .work 1 (input 2), .work 1 (input 2)]
    Trace.Along dnsStep (fun s e => e.Alone s) (DnsWorld.start sampleDnsSession) events ∧
      (dnsRun sampleDnsSession events).table.pending = 2 ∧
      (dnsRun sampleDnsSession events).table.Distinct := by
  refine ⟨by decide +kernel, by decide +kernel, ?_⟩
  exact ((dnsRun_distinguishes sampleDnsSession _).2 (by decide +kernel)).1

/-- Two workers that look for a port before either takes its entry take the same one. -/
theorem dnsRun_shared_port :
    let job (flow : Int) : DnsJob := ⟨flow, 443, [0x61], 1, 1⟩
    let input (id : UInt16) : DnsInput := ⟨id, 0, 0, true, true, none⟩
    let events : List DnsEvent :=
      [.spawn (job 1), .spawn (job 2), .work 0 (input 1), .work 1 (input 2), .work 0 (input 1),
        .work 1 (input 2), .work 0 (input 1), .work 1 (input 2), .work 0 (input 1),
        .work 1 (input 2)]
    ∃ w v, (dnsRun sampleDnsSession events).table.waits[0]? = some w ∧
      (dnsRun sampleDnsSession events).table.waits[1]? = some v ∧ w.inUse = true ∧
      v.inUse = true ∧ w.dnsId = 1 ∧ v.dnsId = 2 ∧ w.sport = v.sport := by
  refine ⟨_, _, rfl, rfl, by decide +kernel⟩

end Iwan
