import Iwan.Proxy.DnsRing

/- No verdict is lost while the ring has room, and a run in which it has none. -/
namespace Iwan

open Circular
open Function (update update_idem update_of_ne update_self)

/-- Each query of a flow has failed or is still to come. -/
structure Flow.Waits (asked : Int → Nat) (handled : List DnsResult) (f : Flow) : Prop where
  pending : 0 < f.dnsPending
  count : handled.countP (fun x => x.flowId == f.dnsId) + f.dnsPending = asked f.dnsId
  failed : ∀ x ∈ handled, x.flowId = f.dnsId → x.answer = none

/-- A flow with a valid id, asking at most while it resolves. -/
structure Flow.Listed (nextId : Nat) (asked : Int → Nat) (handled : List DnsResult) (f : Flow) :
    Prop where
  old : f.id.toNat < nextId
  early : f.state = .greeting ∨ f.state = .request → asked f.dnsId = 0
  waits : f.state = .resolving → f.Waits asked handled

/-- The flow table. -/
structure FlowsSound (flows : Nat → Flow) (nextId : Nat) (asked : Int → Nat)
    (handled : List DnsResult) : Prop where
  listed : ∀ i, i < maxFlows → (flows i).active = true → (flows i).Listed nextId asked handled
  unique : ∀ i j, i < maxFlows → j < maxFlows → (flows i).active = true →
    (flows j).active = true → (flows i).id = (flows j).id → i = j
  bound : nextId ≤ 2 ^ 31
  begun : ∀ id, asked id ≠ 0 → id < nextId

variable {flows : Nat → Flow} {nextId : Nat} {asked : Int → Nat} {handled : List DnsResult}

variable {f : Flow}

theorem Flow.dnsId_inj {g : Flow} (same : f.dnsId = g.dnsId) : f.id = g.id :=
  UInt64.toNat_inj.mp (Int.ofNat.inj same)

variable {slot : Nat}

theorem FlowsSound.update_unique (sound : FlowsSound flows nextId asked handled)
    (g : Flow) (same : g.active = true → (flows slot).active = true ∧ g.id = (flows slot).id)
    (i j : Nat) (small : i < maxFlows) (small' : j < maxFlows)
    (active : (update flows slot g i).active = true)
    (active' : (update flows slot g j).active = true)
    (equal : (update flows slot g i).id = (update flows slot g j).id) :
    i = j := by
  have seen : ∀ k, (update flows slot g k).active = true →
      (flows k).active = true ∧ (update flows slot g k).id = (flows k).id := by
    intro k active
    by_cases here : k = slot
    · subst here
      rw [update_self] at active ⊢
      exact same active
    · rw [update_of_ne here] at active ⊢
      exact ⟨active, rfl⟩
  obtain ⟨was, id⟩ := seen i active
  obtain ⟨was', id'⟩ := seen j active'
  exact sound.unique i j small small' was was' (by rw [← id, ← id', equal])

theorem FlowsSound.put (sound : FlowsSound flows nextId asked handled) (g : Flow)
    (same : g.active = true → (flows slot).active = true ∧ g.id = (flows slot).id)
    (listed : g.active = true → (flows slot).Listed nextId asked handled →
      g.Listed nextId asked handled) :
    FlowsSound (update flows slot g) nextId asked handled := by
  refine ⟨fun i small active => ?_, sound.update_unique g same, sound.bound, sound.begun⟩
  by_cases here : i = slot
  · subst here
    rw [update_self] at active ⊢
    exact listed active (sound.listed i small (same active).1)
  · rw [update_of_ne here] at active ⊢
    exact sound.listed i small active

theorem Flow.Listed.later (listed : f.Listed nextId asked handled) :
    f.Listed (nextId + 1) asked handled :=
  ⟨Nat.lt_succ_of_lt listed.old, listed.early, listed.waits⟩

theorem FlowsSound.accept (sound : FlowsSound flows nextId asked handled)
    (room : nextId < 2 ^ 31) (peerIp : UInt32) (now : UInt64) :
    FlowsSound (update flows slot (Flow.accepted (UInt64.ofNat nextId) peerIp now))
      (nextId + 1) asked handled := by
  have fresh : (UInt64.ofNat nextId).toNat = nextId :=
    UInt64.toNat_ofNat_of_lt' (Nat.lt_trans room (by decide))
  have unasked : asked nextId = 0 := by
    by_contra some
    exact absurd (sound.begun nextId some) (Int.lt_irrefl _)
  have apart : ∀ i, i < maxFlows → (flows i).active = true →
      (flows i).id ≠ UInt64.ofNat nextId := by
    intro i small active same
    have old := (sound.listed i small active).old
    rw [same, fresh] at old
    exact absurd old (Nat.lt_irrefl _)
  refine ⟨?_, ?_, room, fun id some => Int.lt_trans (sound.begun id some) (by omega)⟩
  · intro i small active
    by_cases here : i = slot
    · subst here
      rw [update_self]
      refine ⟨?_, fun _ => ?_, FlowState.noConfusion⟩
      · show (UInt64.ofNat nextId).toNat < nextId + 1
        rw [fresh]
        exact Nat.lt_succ_self _
      · show asked ((UInt64.ofNat nextId).toNat : Int) = 0
        rw [fresh]
        exact unasked
    · rw [update_of_ne here] at active ⊢
      exact (sound.listed i small active).later
  · intro i j small small' active active' equal
    by_cases here : i = slot
    · by_cases there : j = slot
      · rw [here, there]
      · rw [here, update_self, update_of_ne there] at equal
        rw [update_of_ne there] at active'
        exact absurd equal.symm (apart j small' active')
    · rw [update_of_ne here] at active equal
      by_cases there : j = slot
      · rw [there, update_self] at equal
        exact absurd equal (apart i small active)
      · rw [update_of_ne there] at active' equal
        exact sound.unique i j small small' active active' equal

theorem Flow.awaits_iff {id : Int} :
    f.awaits id = true ↔ f.active = true ∧ f.state = .resolving ∧ f.dnsId = id := by
  unfold Flow.awaits
  rw [Bool.and_eq_true, Bool.and_eq_true, beq_iff_eq, beq_iff_eq, and_assoc]

theorem Flow.Listed.aside (listed : f.Listed nextId asked handled) (x : DnsResult)
    (other : f.state = .resolving → x.flowId ≠ f.dnsId) :
    f.Listed nextId asked (handled ++ [x]) := by
  refine ⟨listed.old, listed.early, fun resolving => ?_⟩
  obtain ⟨pending, count, failed⟩ := listed.waits resolving
  refine ⟨pending, ?_, ?_⟩
  · rw [List.countP_append, List.countP_singleton, beq_false_of_ne (other resolving)]
    exact count
  · intro y member flow
    rcases List.mem_append.mp member with before | last
    · exact failed y before flow
    · rw [List.mem_singleton.mp last] at flow
      exact absurd flow (other resolving)

theorem FlowsSound.unheard (sound : FlowsSound flows nextId asked handled) (x : DnsResult)
    (nobody : ∀ i, i < maxFlows → ¬ (flows i).awaits x.flowId = true) :
    FlowsSound flows nextId asked (handled ++ [x]) := by
  refine ⟨fun i small active => ?_, sound.unique, sound.bound, sound.begun⟩
  refine (sound.listed i small active).aside x fun resolving same => ?_
  exact nobody i small (Flow.awaits_iff.mpr ⟨active, resolving, same.symm⟩)

theorem FlowsSound.judge (sound : FlowsSound flows nextId asked handled) (x : DnsResult)
    (inside : slot < maxFlows) (awaits : (flows slot).awaits x.flowId = true)
    (g : Flow) (id : g.id = (flows slot).id)
    (past : g.state ≠ .greeting ∧ g.state ≠ .request)
    (again : g.state = .resolving → x.answer = none ∧ 0 < g.dnsPending ∧
      g.dnsPending + 1 = (flows slot).dnsPending) :
    FlowsSound (update flows slot g) nextId asked (handled ++ [x]) := by
  obtain ⟨active, resolving, own⟩ := Flow.awaits_iff.mp awaits
  obtain ⟨old, -, waits⟩ := sound.listed slot inside active
  obtain ⟨pending, count, failed⟩ := waits resolving
  have same : g.dnsId = (flows slot).dnsId := by
    unfold Flow.dnsId
    rw [id]
  refine ⟨fun i small live => ?_, sound.update_unique g fun _ => ⟨active, id⟩, sound.bound,
    sound.begun⟩
  by_cases here : i = slot
  · subst here
    rw [update_self]
    refine ⟨id ▸ old, fun state => absurd state (not_or.mpr past), fun state => ?_⟩
    obtain ⟨answer, left, one⟩ := again state
    refine ⟨left, ?_, ?_⟩
    · rw [List.countP_append, List.countP_singleton, same, own, beq_self_eq_true, if_pos rfl]
      rw [own] at count
      omega
    · intro y member flow
      rcases List.mem_append.mp member with before | last
      · exact failed y before (flow.trans same)
      · rw [List.mem_singleton.mp last]
        exact answer
  · rw [update_of_ne here] at live ⊢
    refine (sound.listed i small live).aside x fun _ flow => here ?_
    exact sound.unique i slot small inside live active
      (Flow.dnsId_inj (flow.symm.trans own.symm))

theorem FlowsSound.begin (sound : FlowsSound flows nextId asked handled) {nq : Nat}
    (inside : slot < maxFlows) (active : (flows slot).active = true)
    (quiet : ∀ x ∈ handled, x.flowId ≠ (flows slot).dnsId) (some : 0 < nq)
    (g : Flow) (id : g.id = (flows slot).id) (state : g.state = .resolving)
    (pending : g.dnsPending = nq) :
    FlowsSound (update flows slot g) nextId
      (update asked (flows slot).dnsId nq) handled := by
  have old := (sound.listed slot inside active).old
  have same : g.dnsId = (flows slot).dnsId := by
    unfold Flow.dnsId
    rw [id]
  have kept : ∀ i, i < maxFlows → (flows i).active = true → i ≠ slot →
      update asked (flows slot).dnsId nq (flows i).dnsId = asked (flows i).dnsId := by
    intro i small live apart
    refine update_of_ne (fun equal => apart ?_) _ _
    exact sound.unique i slot small inside live active (Flow.dnsId_inj equal)
  refine ⟨fun i small live => ?_, sound.update_unique g fun _ => ⟨active, id⟩, sound.bound, ?_⟩
  · by_cases here : i = slot
    · subst here
      rw [update_self]
      refine ⟨id ▸ old, ?_, fun _ => ⟨pending ▸ some, ?_, ?_⟩⟩
      · rw [state]
        rintro (greeting | request) <;> exact FlowState.noConfusion ‹_›
      · rw [same, update_self, pending]
        have none : handled.countP (fun x => x.flowId == (flows i).dnsId) = 0 := by
          refine List.countP_eq_zero.mpr fun x member => ?_
          rw [beq_false_of_ne (quiet x member)]
          exact Bool.false_ne_true
        rw [none, Nat.zero_add]
      · intro x member flow
        exact absurd (flow.trans same) (quiet x member)
    · rw [update_of_ne here] at live ⊢
      obtain ⟨older, early, waits⟩ := sound.listed i small live
      have asks := kept i small live here
      refine ⟨older, fun state => asks.trans (early state), fun resolving => ?_⟩
      obtain ⟨left, count, failed⟩ := waits resolving
      exact ⟨left, count.trans asks.symm, failed⟩
  · intro key begun
    by_cases here : key = (flows slot).dnsId
    · rw [here]
      exact Int.ofNat_lt.mpr old
    · rw [update_of_ne here] at begun
      exact sound.begun key begun

def DnsPlane.load (s : DnsPlane) (id : Int) : Nat :=
  failures s.handled id + failures s.queue id + failures s.results id + s.world.busy id +
    s.queries.countP fun j => j.flowId == id

def DnsPlane.Known (s : DnsPlane) (id : Int) : Prop := s.asked id ≠ 0

/-- Every part of the plane names flows that were accepted. -/
structure DnsPlane.Based (s : DnsPlane) : Prop where
  flows : FlowsSound s.flows s.nextId s.asked s.handled
  world : s.world.Names s.Known
  queries : ∀ j ∈ s.queries, s.Known j.flowId ∧ j.gen = s.world.session.gen
  room : s.ring.count < dnsResultQLen
  results : ∀ x ∈ s.results, s.Known x.flowId ∧ x.gen = s.world.session.gen
  queue : ∀ x ∈ s.queue, s.Known x.flowId
  handled : ∀ x ∈ s.handled, s.Known x.flowId

/-- No flow has more verdicts on the way than it has queries. -/
structure DnsPlane.Sound (s : DnsPlane) : Prop extends s.Based where
  load : ∀ id, s.load id ≤ s.asked id

theorem failures_append (front back : List DnsResult) (id : Int) :
    failures (front ++ back) id = failures front id + failures back id := List.countP_append

theorem dnsPushes_spec (l : List DnsResult) (r : Belt DnsResult)
    (room : r.count < dnsResultQLen) :
    (l.foldl dnsPushG r).count < dnsResultQLen ∧
      (∀ x ∈ (l.foldl dnsPushG r).view dnsResultQLen, x ∈ r.view dnsResultQLen ∨ x ∈ l) ∧
      ∀ id, failures ((l.foldl dnsPushG r).view dnsResultQLen) id ≤
        failures (r.view dnsResultQLen) id + failures l id := by
  induction l generalizing r with
  | nil => exact ⟨room, fun _ member => Or.inl member, fun _ => Nat.le_refl _⟩
  | cons x rest ih =>
    obtain ⟨room', view⟩ := dnsPushG_view r x room
    obtain ⟨count, sub, few⟩ := ih (dnsPushG r x) room'
    refine ⟨count, fun y member => ?_, fun id => ?_⟩
    · rcases sub y member with old | new
      · rw [view] at old
        rcases List.mem_append.mp old with before | last
        · exact .inl (List.mem_of_mem_drop before)
        · exact .inr (List.mem_cons.mpr (Or.inl (List.mem_singleton.mp last)))
      · exact .inr (List.mem_cons_of_mem _ new)
    · have whole := few id
      rw [view, failures_append] at whole
      have fewer : failures ((r.view dnsResultQLen).drop
          (if r.count + 1 = dnsResultQLen then 1 else 0)) id ≤
          failures (r.view dnsResultQLen) id := (List.drop_sublist _ _).countP_le
      have cons : failures (x :: rest) id = failures [x] id + failures rest id :=
        failures_append [x] rest id
      show failures ((rest.foldl dnsPushG (dnsPushG r x)).view dnsResultQLen) id ≤ _
      omega

theorem dnsPushes_single (l : List DnsResult) (r : Belt DnsResult)
    (room : r.count < dnsResultQLen) (single : l.length ≤ 1) :
    ∃ k, (l.foldl dnsPushG r).view dnsResultQLen = (r.view dnsResultQLen).drop k ++ l ∧
      (k = 0 ∨ l ≠ [] ∧ r.count + 1 = dnsResultQLen) := by
  match l, single with
  | [], _ => exact ⟨0, (List.append_nil _).symm, .inl rfl⟩
  | [x], _ =>
    refine ⟨_, (dnsPushG_view r x room).2, ?_⟩
    split
    · next full => exact .inr ⟨List.cons_ne_nil _ _, full⟩
    · exact .inl rfl

variable {s : DnsPlane} {e : DnsEvent}

theorem DnsPlane.Based.dns (based : s.Based) {extra : Int → Nat}
    (fits : DnsStepFits s.Known s.world extra (dnsStep s.world e)) :
    (s.dns e).Based ∧ ∀ id, (s.dns e).load id ≤ s.load id + extra id := by
  obtain ⟨room, sub, few⟩ := dnsPushes_spec (dnsStep s.world e).2 s.ring based.room
  have session : (s.dns e).world.session = s.world.session := fits.session
  refine ⟨⟨based.flows, fits.names, ?_, room, ?_, based.queue, based.handled⟩, fun id => ?_⟩
  · intro j member
    rw [session]
    exact based.queries j member
  · intro x member
    rw [session]
    rcases sub x member with old | new
    · exact based.results x old
    · exact fits.pushed x new
  · have results := few id
    have busy := fits.load id
    show failures s.handled id + failures s.queue id + failures (s.dns e).results id +
      (dnsStep s.world e).1.busy id + _ ≤ failures s.handled id + failures s.queue id +
      failures s.results id + s.world.busy id + _ + extra id
    have results' : failures (s.dns e).results id ≤
      failures s.results id + failures (dnsStep s.world e).2 id := results
    have rest : ((s.dns e).queries.countP fun j => j.flowId == id) =
      s.queries.countP fun j => j.flowId == id := rfl
    omega

theorem DnsPlane.Sound.dns (sound : s.Sound)
    (fits : DnsStepFits s.Known s.world (fun _ => 0) (dnsStep s.world e)) : (s.dns e).Sound := by
  obtain ⟨based, load⟩ := sound.toBased.dns fits
  exact ⟨based, fun id => Nat.le_trans (load id) (sound.load id)⟩

theorem DnsWorld.Names.mono {known known' : Int → Prop} {w : DnsWorld} (names : w.Names known)
    (more : ∀ id, known id → known' id) : w.Names known' where
  table := fun v member used => more _ (names.table v member used)
  workers := fun v member => ⟨more _ (names.workers v member).1, (names.workers v member).2⟩
  reply := fun found read => more _ (names.reply found read)

variable {test : Flow → Bool}

theorem DnsPlane.find_some
    (found : s.find test = some slot) : slot < maxFlows ∧ test (s.flows slot) = true := by
  unfold DnsPlane.find at found
  have passes := List.find?_some found
  exact ⟨List.mem_range.mp (List.mem_of_find?_eq_some found), passes⟩

theorem DnsPlane.find_none (found : s.find test = none)
    (i : Nat) (small : i < maxFlows) : ¬ test (s.flows i) = true :=
  List.find?_eq_none.mp found i (List.mem_range.mpr small)

theorem DnsPlane.find_only (inside : slot < maxFlows) (here : test (s.flows slot) = true)
    (only : ∀ i, i < maxFlows → test (s.flows i) = true → i = slot) :
    s.find test = some slot := by
  cases found : s.find test with
  | none => exact absurd here (DnsPlane.find_none found slot inside)
  | some i =>
    obtain ⟨small, passes⟩ := DnsPlane.find_some found
    rw [only i small passes]

theorem dnsQtypes_pos (s : DnsSession) (v6 : Bool) : 0 < (dnsQtypes s v6).length := by
  unfold dnsQtypes
  split
  · split <;> decide
  · decide

theorem DnsPlane.Sound.find_own (sound : s.Sound) (inside : slot < maxFlows)
    (active : (s.flows slot).active = true) {f : Flow} (id : f.id = (s.flows slot).id)
    (live : f.active = true) :
    (s.setFlow slot f).find (fun g => g.active && g.dnsId == (s.flows slot).dnsId) =
      some slot := by
  have own : f.dnsId = (s.flows slot).dnsId := congrArg (fun n : UInt64 => (n.toNat : Int)) id
  have here : (s.setFlow slot f).flows slot = f := update_self _ _ _
  refine DnsPlane.find_only inside ?_ fun i small passes => ?_
  · rw [here, live, own]
    exact beq_self_eq_true _
  · rw [Bool.and_eq_true, beq_iff_eq] at passes
    refine sound.flows.update_unique f (fun _ => ⟨active, id⟩) i slot small inside passes.1 ?_ ?_
    · rw [update_self]
      exact live
    · rw [update_self]
      exact Flow.dnsId_inj (passes.2.trans own.symm)

theorem start_sound (sound : s.Sound) (idle : s.Idle)
    (inside : slot < maxFlows) (active : (s.flows slot).active = true)
    (early : (s.flows slot).state = .greeting ∨ (s.flows slot).state = .request) (now : UInt64)
    (domain : List UInt8) (port : UInt16) (v6 : Bool) :
    (spawnDns (s.setFlow slot
      (setFlowState now { s.flows slot with targetAf := .domain } .resolving))
      (s.flows slot).dnsId domain port v6).Sound := by
  generalize entered : setFlowState now { s.flows slot with targetAf := .domain } .resolving = f
  have id : f.id = (s.flows slot).id := by rw [← entered]; rfl
  have live : f.active = true := by rw [← entered]; exact active
  have state : f.state = .resolving := by rw [← entered]; rfl
  have unasked := (sound.flows.listed slot inside active).early early
  unfold spawnDns
  dsimp only
  rw [sound.find_own inside active id live]
  have session : (s.setFlow slot f).world.session = s.world.session := rfl
  rw [session]
  generalize types : dnsQtypes s.world.session v6 = qtypes
  have some : 0 < qtypes.length := types ▸ dnsQtypes_pos s.world.session v6
  have more : ∀ key, s.Known key →
      update s.asked (s.flows slot).dnsId qtypes.length key ≠ 0 := by
    intro key known
    by_cases here : key = (s.flows slot).dnsId
    · rw [here]
      exact fun _ => known (here ▸ unasked)
    · rw [update_of_ne here]
      exact known
  have self : update s.asked (s.flows slot).dnsId qtypes.length (s.flows slot).dnsId =
      qtypes.length := update_self _ _ _
  have flows : update (update s.flows slot f) slot
      { f with dnsPending := qtypes.length } =
      update s.flows slot { f with dnsPending := qtypes.length } :=
    update_idem _ _ _
  have current : (s.setFlow slot f).flows slot = f := update_self _ _ _
  dsimp only
  rw [current]
  refine ⟨⟨?_, sound.world.mono more, ?_, sound.room, ?_, ?_, ?_⟩, fun key => ?_⟩
  · show FlowsSound (update (update s.flows slot f) slot _) _ _ _
    rw [flows]
    refine sound.flows.begin inside active (fun x member same => ?_) some _ id state rfl
    exact sound.handled x member (same ▸ unasked)
  · intro j member
    obtain ⟨qtype, -, rfl⟩ := List.mem_map.mp member
    refine ⟨?_, rfl⟩
    show update s.asked (s.flows slot).dnsId qtypes.length (s.flows slot).dnsId ≠ 0
    rw [self]
    exact Nat.ne_of_gt some
  · exact fun x member => ⟨more _ (sound.results x member).1, (sound.results x member).2⟩
  · exact fun x member => more _ (sound.queue x member)
  · exact fun x member => more _ (sound.handled x member)
  · have before := sound.load key
    unfold DnsPlane.load at before
    rw [idle.1, List.countP_nil, Nat.add_zero] at before
    show failures s.handled key + failures s.queue key + failures s.results key +
        s.world.busy key + (qtypes.map _).countP _ ≤
      update s.asked (s.flows slot).dnsId qtypes.length key
    rw [List.countP_map]
    by_cases here : key = (s.flows slot).dnsId
    · rw [here, self]
      rw [here, unasked] at before
      refine Nat.le_trans (Nat.add_le_add_right before _) ?_
      rw [Nat.zero_add]
      exact List.countP_le_length
    · rw [update_of_ne here]
      have none : qtypes.countP ((fun j : DnsJob => j.flowId == key) ∘ fun qtype =>
          (⟨(s.flows slot).dnsId, port, domain, s.world.session.gen, qtype⟩ : DnsJob)) = 0 := by
        refine List.countP_eq_zero.mpr fun qtype _ => ?_
        show ¬ ((s.flows slot).dnsId == key) = true
        rw [beq_false_of_ne (Ne.symm here)]
        exact Bool.false_ne_true
      exact (congrArg (_ + ·) none).trans_le before

theorem query_sound (sound : s.Sound) (memory created : Bool) :
    (spawnQuery s memory created).Sound := by
  unfold spawnQuery
  cases queries : s.queries with
  | nil => exact sound
  | cons job rest =>
    dsimp only
    have mine := sound.queries job (queries ▸ List.mem_cons_self)
    have based : DnsPlane.Based { s with queries := rest } :=
      ⟨sound.flows, sound.world, fun j member =>
        sound.queries j (queries ▸ List.mem_cons_of_mem _ member), sound.room, sound.results,
        sound.queue, sound.handled⟩
    have load : ∀ id, DnsPlane.load { s with queries := rest } id +
        (if job.flowId = id then 1 else 0) ≤ s.asked id := by
      intro id
      have before := sound.load id
      unfold DnsPlane.load at before ⊢
      rw [queries, List.countP_cons] at before
      simp only [beq_iff_eq] at before
      exact Nat.le_trans (Nat.le_of_eq (Nat.add_assoc _ _ _)) before
    split
    · obtain ⟨room, sub, few⟩ := dnsPushes_spec [job.failure] s.ring sound.room
      refine ⟨⟨sound.flows, sound.world, based.queries, room, ?_, sound.queue, sound.handled⟩,
        fun id => ?_⟩
      · intro x member
        rcases sub x member with old | new
        · exact sound.results x old
        · rw [List.mem_singleton.mp new]
          exact mine
      · have pushed := few id
        have failure : failures [job.failure] id = if job.flowId = id then 1 else 0 := by
          unfold failures
          rw [List.countP_singleton]
          show (if (job.flowId == id && true) = true then 1 else 0) = _
          simp only [Bool.and_true, beq_iff_eq]
        rw [failure] at pushed
        refine Nat.le_trans ?_ (load id)
        show failures s.handled id + failures s.queue id +
            failures ((dnsPushG s.ring job.failure).view dnsResultQLen) id + s.world.busy id +
            (rest.countP fun j => j.flowId == id) ≤
          failures s.handled id + failures s.queue id +
            failures (s.ring.view dnsResultQLen) id + s.world.busy id +
            (rest.countP fun j => j.flowId == id) + _
        have pushed' : failures ((dnsPushG s.ring job.failure).view dnsResultQLen) id ≤
          failures (s.ring.view dnsResultQLen) id + if job.flowId = id then 1 else 0 := pushed
        omega
    · have spawned := based.dns (dnsStep_spawn_fits sound.world job mine)
      exact ⟨spawned.1, fun id => Nat.le_trans (spawned.2 id) (load id)⟩

theorem drain_view (sound : s.Sound) :
    (dnsDrain s.world.session.gen s.ring).1.count ≤ s.ring.count ∧
      ∃ k, (dnsDrain s.world.session.gen s.ring).2 = s.results.take k ∧
        (dnsDrain s.world.session.gen s.ring).1.view dnsResultQLen = s.results.drop k :=
  dnsDrainLoop_view s.world.session.gen s.ring.count dnsDrainMax s.ring
    fun x member => (sound.results x member).2

theorem drain_sound (sound : s.Sound) (idle : s.Idle) : DnsPlane.Sound { s with
      ring := (dnsDrain s.world.session.gen s.ring).1
      queue := (dnsDrain s.world.session.gen s.ring).2 } := by
  obtain ⟨fewer, k, taken, kept⟩ := drain_view sound
  refine ⟨⟨sound.flows, sound.world, sound.queries, Nat.lt_of_le_of_lt fewer sound.room, ?_, ?_,
    sound.handled⟩, fun id => ?_⟩
  · intro x member
    have inside : x ∈ s.results.drop k := kept ▸ member
    exact sound.results x (List.mem_of_mem_drop inside)
  · intro x member
    have inside : x ∈ s.results.take k := taken ▸ member
    exact (sound.results x (List.mem_of_mem_take inside)).1
  · have before := sound.load id
    unfold DnsPlane.load at before
    rw [idle.2.1] at before
    show failures s.handled id + failures (dnsDrain s.world.session.gen s.ring).2 id +
      failures ((dnsDrain s.world.session.gen s.ring).1.view dnsResultQLen) id +
      s.world.busy id + (s.queries.countP fun j => j.flowId == id) ≤ s.asked id
    have split := failures_append (s.results.take k) (s.results.drop k) id
    rw [List.take_append_drop] at split
    have none : failures [] id = 0 := rfl
    rw [taken, kept]
    omega

theorem queueSocksError_id (now : UInt64) (f : Flow) (rep : UInt8) :
    (queueSocksError now f rep).id = f.id := by
  unfold queueSocksError
  split <;> rfl

variable (cfg : SocksCfg)

theorem dnsOpened_spec (now : UInt64) (opened : Option (Nat × UInt16)) (f : Flow)
    (addr : TargetAddr) (port : UInt16) :
    (dnsOpened cfg now opened f addr port).id = f.id ∧
      ((dnsOpened cfg now opened f addr port).state = .closing ∨
        (dnsOpened cfg now opened f addr port).state = .connecting) := by
  unfold dnsOpened flowOpenGated
  split_ifs
  · exact ⟨queueSocksError_id now f 2, .inl (queueSocksError_state now f 2)⟩
  · dsimp only
    cases opened with
    | none => exact ⟨queueSocksError_id now f 1, .inl (queueSocksError_state now f 1)⟩
    | some got =>
      cases addr with
      | v4 rip => exact ⟨rfl, .inr rfl⟩
      | v6 rip6 => exact ⟨rfl, .inr rfl⟩

theorem dnsVerdict_spec (now : UInt64) (opened : Option (Nat × UInt16))
    (x : DnsResult) (state : f.state = .resolving) (pending : 0 < f.dnsPending) :
    (dnsVerdict cfg now opened x f).id = f.id ∧
      ((dnsVerdict cfg now opened x f).state ≠ .greeting ∧
        (dnsVerdict cfg now opened x f).state ≠ .request) ∧
      ((dnsVerdict cfg now opened x f).state = .resolving → x.answer = none ∧
        0 < (dnsVerdict cfg now opened x f).dnsPending ∧
        (dnsVerdict cfg now opened x f).dnsPending + 1 = f.dnsPending) := by
  have moved : ∀ g : Flow, g.id = f.id → (g.state = .closing ∨ g.state = .connecting) →
      g.id = f.id ∧ (g.state ≠ .greeting ∧ g.state ≠ .request) ∧
        (g.state = .resolving → x.answer = none ∧ 0 < g.dnsPending ∧
          g.dnsPending + 1 = f.dnsPending) := by
    intro g id left
    refine ⟨id, ?_, ?_⟩
    · rcases left with left | left <;> rw [left] <;>
        exact ⟨FlowState.noConfusion, FlowState.noConfusion⟩
    · rcases left with left | left <;> rw [left] <;> exact FlowState.noConfusion
  unfold dnsVerdict
  cases answer : x.answer with
  | none =>
    dsimp only
    split
    · rw [answer] at moved
      exact moved _ (queueSocksError_id now _ 4) (Or.inl (queueSocksError_state now _ 4))
    · next left =>
      refine ⟨rfl, ?_, fun _ => ⟨rfl, Nat.pos_of_ne_zero left, ?_⟩⟩
      · show f.state ≠ .greeting ∧ f.state ≠ .request
        rw [state]
        exact ⟨FlowState.noConfusion, FlowState.noConfusion⟩
      · show f.dnsPending - 1 + 1 = f.dnsPending
        omega
  | some addr =>
    rw [answer] at moved
    cases addr with
    | v4 rip =>
      obtain ⟨id, left⟩ := dnsOpened_spec cfg now opened f (.v4 rip) x.port
      exact moved _ id left
    | v6 ip6 =>
      obtain ⟨id, left⟩ :=
        dnsOpened_spec cfg now opened { f with targetAf := .v6 } (.v6 ip6) x.port
      exact moved _ id left

theorem handle_sound (sound : s.Sound) (now : UInt64)
    (opened : Option (Nat × UInt16)) : (handleDnsResult cfg s now opened).1.Sound := by
  unfold handleDnsResult
  cases queue : s.queue with
  | nil => exact sound
  | cons x rest =>
    dsimp only
    have known := sound.queue x (queue ▸ List.mem_cons_self)
    have later : ∀ y ∈ rest, s.Known y.flowId :=
      fun y member => sound.queue y (queue ▸ List.mem_cons_of_mem _ member)
    have handled : ∀ y ∈ s.handled ++ [x], s.Known y.flowId := by
      intro y member
      rcases List.mem_append.mp member with before | last
      · exact sound.handled y before
      · rw [List.mem_singleton.mp last]
        exact known
    have load : ∀ id, failures (s.handled ++ [x]) id + failures rest id +
        failures s.results id + s.world.busy id +
        (s.queries.countP fun j => j.flowId == id) ≤ s.asked id := by
      intro id
      have before := sound.load id
      unfold DnsPlane.load at before
      have cons : failures (x :: rest) id = failures [x] id + failures rest id :=
        failures_append [x] rest id
      rw [queue, cons] at before
      rw [failures_append]
      omega
    split
    · next nobody =>
      refine ⟨⟨sound.flows.unheard x (DnsPlane.find_none nobody), sound.world, sound.queries,
        sound.room, sound.results, later, handled⟩, load⟩
    · next slot found =>
      obtain ⟨inside, awaits⟩ := DnsPlane.find_some found
      obtain ⟨active, resolving, -⟩ := Flow.awaits_iff.mp awaits
      have waits := (sound.flows.listed slot inside active).waits resolving
      obtain ⟨id, past, again⟩ := dnsVerdict_spec cfg now opened x resolving waits.pending
      exact ⟨⟨sound.flows.judge x inside awaits _ id past again, sound.world, sound.queries,
        sound.room, sound.results, later, handled⟩, load⟩

theorem dnsPlaneStep_sound (s : DnsPlane) (e : DnsPlaneEvent)
    (sound : s.Sound) : (dnsPlaneStep cfg s e).1.Sound := by
  unfold dnsPlaneStep
  cases e with
  | accept slot peerIp now =>
    dsimp only
    split
    · next may =>
      exact ⟨⟨sound.flows.accept may.2.2.2 peerIp now, sound.world, sound.queries, sound.room,
        sound.results, sound.queue, sound.handled⟩, sound.load⟩
    · exact sound
  | move slot g =>
    dsimp only
    split
    · next may =>
      obtain ⟨active, id, lookup, handshake⟩ := may.2.2
      have own : g.dnsId = (s.flows slot).dnsId := by
        unfold Flow.dnsId
        rw [id]
      refine ⟨⟨?_, sound.world, sound.queries, sound.room, sound.results, sound.queue,
        sound.handled⟩, sound.load⟩
      refine sound.flows.put g (fun _ => ⟨active, id⟩) fun _ listed => ?_
      refine ⟨id ▸ listed.old, fun early => own ▸ listed.early (handshake early), ?_⟩
      intro resolving
      obtain ⟨was, pending⟩ := lookup resolving
      obtain ⟨left, count, failed⟩ := listed.waits was
      exact ⟨pending ▸ left, by rw [own, pending]; exact count, own ▸ failed⟩
    · exact sound
  | start slot now domain port v6 =>
    dsimp only
    split
    · next may => exact start_sound sound may.1 may.2.1 may.2.2.1 may.2.2.2 now domain port v6
    · exact sound
  | query memory created =>
    dsimp only
    split
    · exact query_sound sound memory created
    · exact sound
  | worker k input => exact sound.dns (dnsStep_work_fits sound.world k input)
  | packet pkt =>
    dsimp only
    split
    · exact sound.dns (dnsStep_packet_fits sound.world pkt)
    · exact sound
  | consume => exact sound.dns (dnsStep_consume_fits sound.world)
  | drain =>
    dsimp only
    split
    · next idle => exact drain_sound sound idle
    · exact sound
  | handle now opened =>
    dsimp only
    split
    · exact handle_sound cfg sound now opened
    · exact sound

theorem DnsPlane.start_sound (session : DnsSession) : (DnsPlane.start session).Sound := by
  have idle : ∀ w ∈ List.replicate dnsWaitMax DnsWait.idle, w.inUse = false :=
    fun w member => by rw [(List.mem_replicate.mp member).2]; rfl
  have first : 1 ≤ 2 ^ 31 := by decide
  have room : 0 < dnsResultQLen := by decide
  refine ⟨⟨⟨?_, ?_, first, fun id some => absurd rfl some⟩, ⟨?_, nofun, nofun⟩, nofun,
    room, nofun, nofun, nofun⟩, fun id => Nat.le_refl _⟩
  · exact fun i _ active => absurd active Bool.false_ne_true
  · exact fun i j _ _ active => absurd active Bool.false_ne_true
  · exact fun w member used => absurd ((idle w member).symm.trans used) Bool.false_ne_true

theorem dnsPlaneRun_sound (session : DnsSession) (events : List DnsPlaneEvent) :
    (Trace.final (dnsPlaneStep cfg) (DnsPlane.start session) events).Sound :=
  Trace.final_invariant (dnsPlaneStep cfg) DnsPlane.Sound (dnsPlaneStep_sound cfg)
    (DnsPlane.start session) events (DnsPlane.start_sound session)

/-- The step drops a result only when there are more than the ring can hold. -/
structure DnsPlane.Pushes (s t : DnsPlane) : Prop where
  ring : ∃ k new, t.results = s.results.drop k ++ new ∧ (s.backlog < dnsResultQLen → k = 0)

theorem DnsPlane.Pushes.same {t : DnsPlane} (ring : t.ring = s.ring) : s.Pushes t := by
  refine ⟨0, [], ?_, fun _ => rfl⟩
  unfold DnsPlane.results
  rw [ring, List.append_nil, List.drop_zero]

/-- A push that was owed has room below the bound. -/
theorem DnsPlane.Pushes.of_owed {t : DnsPlane} {l : List DnsResult}
    (ring : t.ring = l.foldl dnsPushG s.ring) (room : s.ring.count < dnsResultQLen)
    (single : l.length ≤ 1) (owed : l ≠ [] → s.ring.count < s.backlog) : s.Pushes t := by
  obtain ⟨k, view, oldest⟩ := dnsPushes_single l s.ring room single
  refine ⟨k, l, by rw [DnsPlane.results, ring]; exact view, fun bound => ?_⟩
  rcases oldest with none | ⟨some, full⟩
  · exact none
  · have behind := owed some
    omega

theorem DnsPlane.Sound.pushes (sound : s.Sound) {extra : Int → Nat}
    (fits : DnsStepFits s.Known s.world extra (dnsStep s.world e)) : s.Pushes (s.dns e) := by
  refine .of_owed rfl sound.room fits.single fun some => ?_
  have owed := fits.owed some
  unfold DnsPlane.backlog
  omega

theorem spawnQuery_pushes (sound : s.Sound) (memory created : Bool) :
    s.Pushes (spawnQuery s memory created) := by
  unfold spawnQuery
  cases queries : s.queries with
  | nil => exact .same rfl
  | cons job rest =>
    dsimp only
    have behind : s.ring.count < s.backlog := by
      rw [DnsPlane.backlog, queries, List.length_cons]
      omega
    split
    · exact .of_owed (l := [job.failure]) rfl sound.room (Nat.le_refl _) fun _ => behind
    · have mine := sound.queries job (queries ▸ List.mem_cons_self)
      have fits := dnsStep_spawn_fits sound.world job mine
      exact .of_owed rfl sound.room fits.single fun _ => behind

theorem spawnDns_ring (s : DnsPlane) (flowId : Int) (domain : List UInt8) (port : UInt16)
    (v6 : Bool) : (spawnDns s flowId domain port v6).ring = s.ring := by
  unfold spawnDns
  dsimp only
  split <;> rfl

theorem handleDnsResult_ring (s : DnsPlane) (now : UInt64)
    (opened : Option (Nat × UInt16)) : (handleDnsResult cfg s now opened).1.ring = s.ring := by
  unfold handleDnsResult
  split
  · rfl
  · dsimp only
    split <;> rfl

theorem dnsPlaneStep_ring (sound : s.Sound) (e : DnsPlaneEvent) :
    (e = .drain ∧ ∃ k, (dnsPlaneStep cfg s e).1.results = s.results.drop k ∧
        (dnsPlaneStep cfg s e).1.queue = s.results.take k) ∨
      s.Pushes (dnsPlaneStep cfg s e).1 := by
  unfold dnsPlaneStep
  cases e with
  | start slot now domain port v6 =>
    dsimp only
    split
    · exact .inr (.same (spawnDns_ring _ _ domain port v6))
    · exact .inr (.same rfl)
  | query memory created =>
    dsimp only
    split
    · exact .inr (spawnQuery_pushes sound memory created)
    · exact .inr (.same rfl)
  | worker k input => exact .inr (sound.pushes (dnsStep_work_fits sound.world k input))
  | packet pkt =>
    dsimp only
    split
    · exact .inr (sound.pushes (dnsStep_packet_fits sound.world pkt))
    · exact .inr (.same rfl)
  | consume => exact .inr (sound.pushes (dnsStep_consume_fits sound.world))
  | drain =>
    dsimp only
    split
    · obtain ⟨-, k, taken, kept⟩ := drain_view sound
      exact .inl ⟨rfl, k, kept, taken⟩
    · exact .inr (.same rfl)
  | handle now opened =>
    dsimp only
    split
    · exact .inr (.same (handleDnsResult_ring cfg s now opened))
    · exact .inr (.same rfl)
  | _ =>
    dsimp only
    split <;> exact .inr (.same rfl)

theorem handle_fails (sound : s.Sound) (now : UInt64) (opened : Option (Nat × UInt16)) {i : Nat}
    (failed : i ∈ (handleDnsResult cfg s now opened).2) :
    let t := (handleDnsResult cfg s now opened).1
    let id := (s.flows i).dnsId
    (s.flows i).awaits id = true ∧ t.handled.countP (fun x => x.flowId == id) = s.asked id ∧
      ∀ x ∈ t.handled, x.flowId = id → x.answer = none := by
  intro t id
  cases queue : s.queue with
  | nil =>
    unfold handleDnsResult at failed
    rw [queue] at failed
    cases failed
  | cons x rest =>
    have state : t.handled = s.handled ++ [x] := by
      show (handleDnsResult cfg s now opened).1.handled = _
      unfold handleDnsResult
      rw [queue]
      dsimp only
      split <;> rfl
    unfold handleDnsResult at failed
    rw [queue] at failed
    dsimp only at failed
    split at failed
    · cases failed
    · next slot found =>
      split at failed
      · next fails =>
        have here : i = slot := List.mem_singleton.mp failed
        subst here
        obtain ⟨inside, awaits⟩ := DnsPlane.find_some found
        obtain ⟨active, resolving, own⟩ := Flow.awaits_iff.mp awaits
        have waits := (sound.flows.listed i inside active).waits resolving
        unfold dnsFails at fails
        rw [Bool.and_eq_true, beq_iff_eq, beq_iff_eq] at fails
        have left := waits.pending
        have count := waits.count
        have last : (s.flows i).dnsPending - 1 = 0 := fails.2
        refine ⟨Flow.awaits_iff.mpr ⟨active, resolving, rfl⟩, ?_, ?_⟩
        · rw [state, List.countP_append, List.countP_singleton]
          have mine : (x.flowId == id) = true := beq_iff_eq.mpr own.symm
          rw [mine, if_pos rfl]
          show s.handled.countP (fun x => x.flowId == (s.flows i).dnsId) + 1 =
            s.asked (s.flows i).dnsId
          omega
        · intro y member flow
          rw [state] at member
          rcases List.mem_append.mp member with before | new
          · exact waits.failed y before flow
          · rw [List.mem_singleton.mp new]
            exact fails.1
      · cases failed

theorem DnsPlane.Sound.concluded {t : DnsPlane} (sound : t.Sound) {id : Int}
    (all : t.handled.countP (fun x => x.flowId == id) = t.asked id)
    (failed : ∀ x ∈ t.handled, x.flowId = id → x.answer = none) :
    t.world.busy id = 0 ∧ (t.queries.countP fun j => j.flowId == id) = 0 := by
  have count : failures t.handled id = t.handled.countP fun x => x.flowId == id := by
    refine List.countP_congr fun x member => ?_
    rw [Bool.and_eq_true, beq_iff_eq, beq_iff_eq]
    exact ⟨fun both => both.1, fun flow => ⟨flow, failed x member flow⟩⟩
  have load := sound.load id
  unfold DnsPlane.load at load
  omega

theorem handle_asked (s : DnsPlane) (now : UInt64)
    (opened : Option (Nat × UInt16)) : (handleDnsResult cfg s now opened).1.asked = s.asked := by
  unfold handleDnsResult
  split
  · rfl
  · dsimp only
    split <;> rfl

def plainCfg : SocksCfg := ⟨none, false, false⟩

def badName : List UInt8 := [0x2e]

def freed (n : Nat) : Flow :=
  { Flow.accepted (UInt64.ofNat (n + 1)) 0 0 with active := false, state := .closing }

def deserted (n : Nat) : List DnsPlaneEvent :=
  [.accept 1 0 0, .start 1 0 badName 443 true, .query true true, .query true true, .drain,
    .move 1 (freed n)]

def DnsPlane.withWorker (s : DnsPlane) (rest : List DnsJob) (job : DnsJob) : DnsPlane :=
  { s with
    queries := rest
    world := { s.world with workers := s.world.workers ++ [⟨job, .start⟩] } }

def DnsPlane.withFailure (s : DnsPlane) (rest : List DnsJob) (job : DnsJob) : DnsPlane :=
  { s with queries := rest, ring := dnsPushG s.ring job.failure }

/-- A worker that has not begun, on a name that cannot be asked for. -/
structure Stuck (n : Nat) (w : DnsWorker) : Prop where
  pc : w.pc = .start
  domain : w.job.domain = badName
  gen : w.job.gen = 1
  qtype : w.job.qtype = 28 ∨ w.job.qtype = 1
  flow : w.job.flowId ≤ n

/-- The clients have left and their workers have not. -/
structure Deserted (n : Nat) (s : DnsPlane) : Prop where
  gone : ∀ i, (s.flows i).active = false
  next : s.nextId = n + 1
  ring : s.ring.count = 0
  idle : s.Idle
  session : s.world.session = sampleDnsSession
  table : s.world.table.waitN = 0
  workers : s.world.workers.length = 2 * n
  stuck : ∀ w ∈ s.world.workers, Stuck n w

/-- A query was queued for a flow. -/
structure Spawned (s : DnsPlane) (flowId : Int) (t : DnsPlane) : Prop where
  flows : ∀ i, (t.flows i).active = (s.flows i).active ∧ (t.flows i).id = (s.flows i).id ∧
    (t.flows i).state = (s.flows i).state
  world : t.world = s.world
  ring : t.ring = s.ring
  queue : t.queue = s.queue
  next : t.nextId = s.nextId
  nq : t.nq = 2
  queries : t.queries = [⟨flowId, 443, badName, 1, 28⟩, ⟨flowId, 443, badName, 1, 1⟩]

theorem spawnDns_spawned (session : s.world.session = sampleDnsSession)
    (flowId : Int) : Spawned s flowId (spawnDns s flowId badName 443 true) := by
  have types : dnsQtypes s.world.session true = [28, 1] := by
    rw [session]
    decide
  have gen : s.world.session.gen = 1 := by rw [session]; rfl
  unfold spawnDns
  dsimp only
  rw [types]
  split
  · exact ⟨fun i => ⟨rfl, rfl, rfl⟩, rfl, rfl, rfl, rfl, rfl, by rw [gen]; rfl⟩
  · next slot found =>
    refine ⟨fun i => ?_, rfl, rfl, rfl, rfl, rfl, ?_⟩
    · by_cases here : i = slot
      · subst here
        show (update s.flows i _ i).active = _ ∧ (update s.flows i _ i).id = _ ∧
          (update s.flows i _ i).state = _
        rw [update_self]
        exact ⟨rfl, rfl, rfl⟩
      · show (update s.flows slot _ i).active = _ ∧
          (update s.flows slot _ i).id = _ ∧
          (update s.flows slot _ i).state = _
        rw [update_of_ne here]
        exact ⟨rfl, rfl, rfl⟩
    · show List.map _ [28, 1] = _
      rw [show (s.setFlow slot _).world.session.gen = 1 from gen]
      rfl

theorem spawnQuery_worker {job : DnsJob} {rest : List DnsJob}
    (queries : s.queries = job :: rest) (nq : s.nq = 2) (table : s.world.table.waitN = 0)
    (reply : s.world.reply = none) :
    spawnQuery s true true = s.withWorker rest job := by
  have open' : ¬ (true = false ∨ dnsWaitMax - s.nq < s.world.table.waitN ∨ true = false) := by
    rw [nq, table]
    decide
  unfold spawnQuery
  rw [queries]
  dsimp only
  rw [if_neg open']
  unfold DnsPlane.dns dnsStep
  dsimp only
  rw [if_pos reply]
  rfl

theorem spawnQuery_failed {job : DnsJob} {rest : List DnsJob} (queries : s.queries = job :: rest) :
    spawnQuery s false true = s.withFailure rest job := by
  unfold spawnQuery
  rw [queries]
  exact if_pos (Or.inl rfl)

theorem accept_eq (idle : s.Idle)
    (inside : slot < maxFlows) (free : (s.flows slot).active = false) (room : s.nextId < 2 ^ 31) :
    (dnsPlaneStep cfg s (.accept slot 0 0)).1 =
      { s.setFlow slot (Flow.accepted (UInt64.ofNat s.nextId) 0 0) with
        nextId := s.nextId + 1 } :=
  congrArg Prod.fst (if_pos ⟨idle, inside, free, room⟩)

theorem start_eq (idle : s.Idle) (inside : slot < maxFlows) (active : (s.flows slot).active = true)
    (state : (s.flows slot).state = .greeting) :
    (dnsPlaneStep cfg s (.start slot 0 badName 443 true)).1 =
      spawnDns (s.setFlow slot (setFlowState 0 { s.flows slot with targetAf := .domain }
        .resolving)) (s.flows slot).dnsId badName 443 true :=
  congrArg Prod.fst (if_pos ⟨idle, inside, active, Or.inl state⟩)

theorem query_eq (reply : s.world.reply = none) (memory : Bool) :
    (dnsPlaneStep cfg s (.query memory true)).1 = spawnQuery s memory true :=
  congrArg Prod.fst (if_pos reply)

/-- A new client waits for its name. -/
structure Entered (n slot : Nat) (s t : DnsPlane) : Prop where
  mine : (t.flows slot).awaits (n + 1 : Nat) = true
  id : (t.flows slot).id = UInt64.ofNat (n + 1)
  others : ∀ i, i ≠ slot → (t.flows i).active = false
  world : t.world = s.world
  ring : t.ring = s.ring
  queue : t.queue = []
  next : t.nextId = n + 2
  nq : t.nq = 2
  queries : t.queries =
    [⟨(n + 1 : Nat), 443, badName, 1, 28⟩, ⟨(n + 1 : Nat), 443, badName, 1, 1⟩]

variable {n : Nat}

theorem deserted_enter (small : n + 1 < 2 ^ 31) (inside : slot < maxFlows) (start : Deserted n s) :
    Entered n slot s
      (Trace.final (dnsPlaneStep cfg) s [.accept slot 0 0, .start slot 0 badName 443 true]) := by
  have room : s.nextId < 2 ^ 31 := start.next ▸ small
  rw [Trace.final_cons, Trace.final_cons, Trace.final_nil,
    accept_eq cfg start.idle inside (start.gone slot) room]
  generalize entered : ({ s.setFlow slot (Flow.accepted (UInt64.ofNat s.nextId) 0 0) with
    nextId := s.nextId + 1 } : DnsPlane) = u
  have flow : u.flows slot = Flow.accepted (UInt64.ofNat (n + 1)) 0 0 := by
    rw [← entered, ← start.next]
    exact update_self _ _ _
  have others : ∀ i, i ≠ slot → (u.flows i).active = false := by
    intro i apart
    rw [← entered]
    show (update s.flows slot _ i).active = false
    rw [update_of_ne apart]
    exact start.gone i
  have idle : u.Idle := by rw [← entered]; exact start.idle
  have world : u.world = s.world := by rw [← entered]; rfl
  have ring : u.ring = s.ring := by rw [← entered]; rfl
  have next : u.nextId = n + 2 := by rw [← entered]; exact congrArg (· + 1) start.next
  have id : (u.flows slot).dnsId = ((n + 1 : Nat) : Int) := by
    rw [flow]
    show ((UInt64.ofNat (n + 1)).toNat : Int) = _
    rw [UInt64.toNat_ofNat_of_lt' (Nat.lt_trans small (by decide))]
  rw [start_eq cfg idle inside (by rw [flow]; rfl) (by rw [flow]; rfl)]
  generalize made : setFlowState 0 { u.flows slot with targetAf := .domain } .resolving = f
  have session : (u.setFlow slot f).world.session = sampleDnsSession := by
    show u.world.session = _
    rw [world]
    exact start.session
  have spawned := spawnDns_spawned session (u.flows slot).dnsId
  generalize spawnDns (u.setFlow slot f) (u.flows slot).dnsId badName 443 true = t at spawned ⊢
  have here : (u.setFlow slot f).flows slot = f := update_self _ _ _
  obtain ⟨active, own, state⟩ := spawned.flows slot
  rw [here] at active own state
  have number : (t.flows slot).id = UInt64.ofNat (n + 1) := by
    rw [own, ← made]
    show (u.flows slot).id = _
    rw [flow]
    rfl
  refine ⟨Flow.awaits_iff.mpr ⟨?_, ?_, ?_⟩, number, fun i apart => ?_, spawned.world.trans world,
    spawned.ring.trans ring, spawned.queue.trans idle.2.1, spawned.next.trans next, spawned.nq, ?_⟩
  · rw [active, ← made]
    show (u.flows slot).active = true
    rw [flow]
    rfl
  · rw [state, ← made]
    rfl
  · unfold Flow.dnsId
    rw [number, UInt64.toNat_ofNat_of_lt' (Nat.lt_trans small (by decide))]
  · rw [(spawned.flows i).1]
    show (update u.flows slot f i).active = false
    rw [update_of_ne apart]
    exact others i apart
  · rw [← id]
    exact spawned.queries

theorem Stuck.later {w : DnsWorker} (stuck : Stuck n w) : Stuck (n + 1) w :=
  ⟨stuck.pc, stuck.domain, stuck.gen, stuck.qtype,
    Int.le_trans stuck.flow (Int.ofNat_le.mpr (Nat.le_succ n))⟩

theorem drain_empty (idle : s.Idle) (empty : s.ring.count = 0) :
    (dnsPlaneStep cfg s .drain).1 = s := by
  have drained : dnsDrain s.world.session.gen s.ring = (s.ring, []) := by
    unfold dnsDrain
    rw [empty]
    rfl
  refine (congrArg Prod.fst (if_pos idle)).trans ?_
  dsimp only
  rw [drained]
  exact congrArg (fun q => ({ s with queue := q } : DnsPlane)) idle.2.1.symm

theorem deserted_step (small : n + 1 < 2 ^ 31) (start : Deserted n s) :
    Deserted (n + 1) (Trace.final (dnsPlaneStep cfg) s (deserted n)) := by
  have inside : 1 < maxFlows := by decide
  have entered := deserted_enter cfg small inside start
  have shape : deserted n = [.accept 1 0 0, .start 1 0 badName 443 true] ++
    [.query true true, .query true true, .drain, .move 1 (freed n)] := rfl
  rw [shape, Trace.final_append]
  generalize Trace.final (dnsPlaneStep cfg) s
    [.accept 1 0 0, .start 1 0 badName 443 true] = t at entered ⊢
  have reply : t.world.reply = none := entered.world ▸ start.idle.2.2
  have table : t.world.table.waitN = 0 := entered.world ▸ start.table
  rw [Trace.final_cons, query_eq cfg reply,
    spawnQuery_worker entered.queries entered.nq table reply]
  generalize mid : t.withWorker _ _ = m
  have reply' : m.world.reply = none := by rw [← mid]; exact reply
  have left : m.queries = [⟨(n + 1 : Nat), 443, badName, 1, 1⟩] := by rw [← mid]; rfl
  have nq : m.nq = 2 := by rw [← mid]; exact entered.nq
  have table' : m.world.table.waitN = 0 := by rw [← mid]; exact table
  rw [Trace.final_cons, query_eq cfg reply', spawnQuery_worker left nq table' reply',
    Trace.final_cons, Trace.final_cons, Trace.final_nil]
  generalize both : m.withWorker _ _ = u
  rw [← mid] at both
  have idle : u.Idle := by rw [← both]; exact ⟨rfl, entered.queue, reply⟩
  have flows : u.flows = t.flows := by rw [← both]; rfl
  have empty : u.ring.count = 0 := by
    rw [← both]
    show t.ring.count = 0
    rw [entered.ring]
    exact start.ring
  have active := (Flow.awaits_iff.mp entered.mine).1
  have moved : (u.flows 1).Moved (freed n) := by
    rw [flows]
    refine ⟨active, entered.id.symm, FlowState.noConfusion, ?_⟩
    rintro (state | state) <;> exact FlowState.noConfusion state
  have move : (dnsPlaneStep cfg u (.move 1 (freed n))).1 = u.setFlow 1 (freed n) :=
    congrArg Prod.fst (if_pos ⟨idle, inside, moved⟩)
  rw [drain_empty cfg idle empty, move]
  have fresh : ∀ qtype, qtype = 28 ∨ qtype = 1 →
      Stuck (n + 1) ⟨⟨(n + 1 : Nat), 443, badName, 1, qtype⟩, .start⟩ :=
    fun qtype types => ⟨rfl, rfl, rfl, types, Int.le_refl _⟩
  refine ⟨fun i => ?_, ?_, empty, idle, ?_, ?_, ?_, ?_⟩
  · show (update u.flows 1 _ i).active = false
    by_cases here : i = 1
    · rw [here, update_self]
      rfl
    · rw [update_of_ne here, flows]
      exact entered.others i here
  · show u.nextId = _
    rw [← both]
    exact entered.next
  · show u.world.session = _
    rw [← both]
    show t.world.session = _
    rw [entered.world]
    exact start.session
  · show u.world.table.waitN = 0
    rw [← both]
    exact table
  · show u.world.workers.length = _
    rw [← both]
    show (t.world.workers ++ [_] ++ [_]).length = _
    rw [List.length_append, List.length_append, entered.world, start.workers]
    rfl
  · intro w member
    have member' : w ∈ u.world.workers := member
    rw [← both] at member'
    rcases List.mem_append.mp member' with before | last
    · rcases List.mem_append.mp before with old | first
      · rw [entered.world] at old
        exact (start.stuck w old).later
      · rw [List.mem_singleton.mp first]
        exact fresh 28 (Or.inl rfl)
    · rw [List.mem_singleton.mp last]
      exact fresh 1 (Or.inr rfl)

theorem deserted_run (n : Nat) (small : n < 2 ^ 31) :
    Deserted n (Trace.final (dnsPlaneStep cfg) (DnsPlane.start sampleDnsSession)
      ((List.range n).flatMap deserted)) := by
  induction n with
  | zero =>
    exact ⟨fun _ => rfl, rfl, rfl, ⟨rfl, rfl, rfl⟩, rfl, rfl, rfl, nofun⟩
  | succ n ih =>
    rw [List.range_succ, List.flatMap_append, Trace.final_append]
    have last : [n].flatMap deserted = deserted n := List.flatMap_singleton _ _
    rw [last]
    exact deserted_step cfg small (ih (Nat.lt_of_succ_lt small))

theorem stuck_fails {k : Nat} {w : DnsWorker}
    (session : s.world.session = sampleDnsSession) (here : s.world.workers[k]? = some w)
    (stuck : Stuck n w) (input : DnsInput) (word : input.randId = 0)
    (socket : input.sockOpen = true) :
    ∃ workers, (∀ i, i ≠ k → workers[i]? = s.world.workers[i]?) ∧
      Trace.final (dnsPlaneStep cfg) s [.worker k input, .worker k input] = { s with
        world := { s.world with workers := workers }
        ring := dnsPushG s.ring w.job.failure } := by
  have inside : k < s.world.workers.length := (List.getElem?_eq_some_iff.mp here).1
  have unbuilt : dnsBuildQuery 0 badName 28 512 = none ∧ dnsBuildQuery 0 badName 1 512 = none := by
    decide +kernel
  have query : dnsBuildQuery input.randId w.job.domain w.job.qtype 512 = none := by
    rw [word, stuck.domain]
    rcases stuck.qtype with qtype | qtype <;> rw [qtype]
    · exact unbuilt.1
    · exact unbuilt.2
  have typed : ¬ (s.world.session.serverIp4 = 0 ∨ w.job.qtype = 0) := by
    rw [session]
    rcases stuck.qtype with qtype | qtype <;> rw [qtype] <;> decide
  have fresh : ¬ dnsStale s.world.session w.job = true := by
    unfold dnsStale
    rw [session, stuck.gen]
    decide
  have first : dnsWorkerStep s.world.session s.world.table s.world.ipId w input =
      ⟨s.world.table, s.world.ipId, .failing none, none⟩ := by
    unfold dnsWorkerStep
    rw [stuck.pc]
    dsimp only
    rw [if_neg fresh, if_neg typed, socket, if_neg (by decide), if_pos query]
  have one : (dnsPlaneStep cfg s (.worker k input)).1 = { s with
      world := { s.world with workers := s.world.workers.set k ⟨w.job, .failing none⟩ } } := by
    show s.dns (.work k input) = _
    unfold DnsPlane.dns
    simp only [dnsStep]
    rw [here]
    dsimp only
    rw [first]
    rfl
  have there : (s.world.workers.set k ⟨w.job, .failing none⟩)[k]? =
      some ⟨w.job, .failing none⟩ := List.getElem?_set_self inside
  refine ⟨(s.world.workers.set k ⟨w.job, .failing none⟩).set k ⟨w.job, .done⟩, ?_, ?_⟩
  · intro i apart
    rw [List.getElem?_set_ne (Ne.symm apart), List.getElem?_set_ne (Ne.symm apart)]
  · rw [Trace.final_cons, Trace.final_cons, Trace.final_nil, one]
    show DnsPlane.dns _ (.work k input) = _
    unfold DnsPlane.dns
    simp only [dnsStep]
    rw [there]
    rfl

theorem dnsPushes_last (l : List DnsResult) (r : Belt DnsResult) (room : r.count < dnsResultQLen) :
    (l.foldl dnsPushG r).view dnsResultQLen =
      (r.view dnsResultQLen ++ l).drop (r.count + l.length + 1 - dnsResultQLen) := by
  induction l generalizing r with
  | nil =>
    have fits : r.count + ([] : List DnsResult).length + 1 - dnsResultQLen = 0 := by
      rw [List.length_nil]
      omega
    rw [fits, List.append_nil, List.drop_zero]
    rfl
  | cons x rest ih =>
    obtain ⟨room', view⟩ := dnsPushG_view r x room
    generalize dropped : (if r.count + 1 = dnsResultQLen then 1 else 0) = d at view
    have held : (r.view dnsResultQLen).length = r.count := view_length r
    have count : (dnsPushG r x).count = r.count - d + 1 := by
      have length : ((dnsPushG r x).view dnsResultQLen).length = (dnsPushG r x).count :=
        view_length (dnsPushG r x)
      rw [← length, view, List.length_append, List.length_drop, held]
      rfl
    have few : d ≤ r.count := by
      rw [← dropped]
      split
      · next full =>
        have size : dnsResultQLen = 513 := rfl
        omega
      · exact Nat.zero_le _
    have oldest : d = if r.count + 1 = dnsResultQLen then 1 else 0 := dropped.symm
    have amount : d + (r.count - d + 1 + rest.length + 1 - dnsResultQLen) =
        r.count + (rest.length + 1) + 1 - dnsResultQLen := by
      split at oldest <;> omega
    rw [List.foldl_cons, ih (dnsPushG r x) room', view, count, List.append_assoc,
      List.singleton_append, ← List.drop_append_of_le_length (held ▸ few), List.drop_drop,
      amount, List.length_cons]

def stuckRun (k count : Nat) : List DnsPlaneEvent :=
  (List.range' k count).flatMap fun i =>
    let input : DnsInput := ⟨0, 0, 0, true, true, none⟩
    [.worker i input, .worker i input]

theorem stuckRun_workers (k count : Nat) (e : DnsPlaneEvent) (member : e ∈ stuckRun k count) :
    ∃ i input, e = .worker i input := by
  obtain ⟨i, -, found⟩ := List.mem_flatMap.mp member
  rcases List.mem_cons.mp found with rfl | last
  · exact ⟨i, _, rfl⟩
  · exact ⟨i, _, List.mem_singleton.mp last⟩

theorem stuckRun_pushes (cfg : SocksCfg) (count k : Nat) (s : DnsPlane)
    (session : s.world.session = sampleDnsSession)
    (stuck : ∀ i, k ≤ i → i < k + count → ∃ w, s.world.workers[i]? = some w ∧ Stuck n w) :
    let t := Trace.final (dnsPlaneStep cfg) s (stuckRun k count)
    t.flows = s.flows ∧ ∃ l : List DnsResult, l.length = count ∧ (∀ x ∈ l, x.flowId ≤ n) ∧
      t.ring = l.foldl dnsPushG s.ring := by
  induction count generalizing k s with
  | zero => exact ⟨rfl, [], rfl, nofun, rfl⟩
  | succ count ih =>
    intro t
    obtain ⟨w, here, first⟩ := stuck k (Nat.le_refl _) (by omega)
    obtain ⟨workers, others, step⟩ :=
      stuck_fails cfg session here first ⟨0, 0, 0, true, true, none⟩ rfl rfl
    have run : t = Trace.final (dnsPlaneStep cfg) { s with
        world := { s.world with workers := workers }
        ring := dnsPushG s.ring w.job.failure } (stuckRun (k + 1) count) := by
      show Trace.final (dnsPlaneStep cfg) s (stuckRun k (count + 1)) = _
      rw [← step, ← Trace.final_append]
      rfl
    obtain ⟨flows, l, length, old, ring⟩ := ih (k + 1) { s with
        world := { s.world with workers := workers }
        ring := dnsPushG s.ring w.job.failure } session (by
      intro i low high
      obtain ⟨v, found, later⟩ := stuck i (by omega) (by omega)
      refine ⟨v, ?_, later⟩
      show workers[i]? = some v
      rw [others i (by omega)]
      exact found)
    rw [run]
    refine ⟨flows, w.job.failure :: l, by rw [List.length_cons, length], ?_, ring⟩
    intro x member
    rcases List.mem_cons.mp member with rfl | later
    · exact first.flow
    · exact old x later

theorem deserted_last (cfg : SocksCfg) {q : DnsPlane} (small : n + 1 < 2 ^ 31)
    (before : Deserted n q) :
    let s := Trace.final (dnsPlaneStep cfg) q ([.accept 0 0 0, .start 0 0 badName 443 true] ++
      [.query false true, .query false true])
    s.results = List.replicate 2 ⟨1, (n + 1 : Nat), none, 443⟩ ∧ s.ring.count = 2 ∧
      (s.flows 0).awaits (n + 1 : Nat) = true ∧ s.world = q.world := by
  have entered : Entered n 0 q _ := deserted_enter cfg small (by decide) before
  rw [Trace.final_append]
  generalize Trace.final (dnsPlaneStep cfg) q
    [.accept 0 0 0, .start 0 0 badName 443 true] = u at entered ⊢
  have reply : u.world.reply = none := entered.world ▸ before.idle.2.2
  rw [Trace.final_cons, query_eq cfg reply, spawnQuery_failed entered.queries]
  generalize mid : u.withFailure _ _ = m
  have reply' : m.world.reply = none := by rw [← mid]; exact reply
  have left : m.queries = [⟨(n + 1 : Nat), 443, badName, 1, 1⟩] := by rw [← mid]; rfl
  rw [Trace.final_cons, query_eq cfg reply', spawnQuery_failed left, Trace.final_nil]
  generalize both : m.withFailure _ _ = s
  rw [← mid] at both
  have ring : s.ring = (List.replicate 2 (⟨1, (n + 1 : Nat), none, 443⟩ : DnsResult)).foldl
      dnsPushG q.ring := by
    rw [← both, ← entered.ring]
    rfl
  have empty : q.ring.view dnsResultQLen = [] := by
    unfold Belt.view
    rw [before.ring]
    rfl
  have results : s.results = List.replicate 2 ⟨1, (n + 1 : Nat), none, 443⟩ := by
    unfold DnsPlane.results
    have fits : 0 + 2 + 1 - dnsResultQLen = 0 := by decide
    rw [ring, dnsPushes_last _ _ (by rw [before.ring]; decide), empty, before.ring,
      List.length_replicate, fits, List.drop_zero, List.nil_append]
  refine ⟨results, ?_, ?_, ?_⟩
  · have length : (s.ring.view dnsResultQLen).length = s.ring.count := view_length s.ring
    rw [← length]
    exact (congrArg List.length results).trans List.length_replicate
  · rw [← both]
    exact entered.mine
  · rw [← both, ← entered.world]
    rfl

theorem deserted_stranded (cfg : SocksCfg) {q : DnsPlane} (many : 256 ≤ n)
    (before : Deserted n q) (results : s.results = List.replicate 2 ⟨1, (n + 1 : Nat), none, 443⟩)
    (count : s.ring.count = 2) (world : s.world = q.world) :
    let t := Trace.final (dnsPlaneStep cfg) s (stuckRun 0 (2 * n))
    t.flows = s.flows ∧ ∀ x ∈ t.results, x.flowId ≠ (n + 1 : Nat) := by
  obtain ⟨kept, l, length, old, pushed⟩ := stuckRun_pushes cfg (2 * n) 0 s
    (world ▸ before.session) (by
      intro i _ small
      have inside : i < s.world.workers.length := by
        rw [world, before.workers]
        omega
      refine ⟨s.world.workers[i], List.getElem?_eq_getElem inside, ?_⟩
      exact before.stuck _ (world ▸ List.getElem_mem inside))
  refine ⟨kept, fun x member => ?_⟩
  have size : dnsResultQLen = 513 := rfl
  unfold DnsPlane.results at member results
  rw [pushed, dnsPushes_last _ _ (by rw [count, size]; decide), results, count, length] at member
  have amount : 2 + 2 * n + 1 - dnsResultQLen = 2 + (2 + 2 * n + 1 - dnsResultQLen - 2) := by
    omega
  rw [amount, ← List.drop_drop] at member
  have front : (List.replicate 2 (⟨1, (n + 1 : Nat), none, 443⟩ : DnsResult) ++ l).drop 2 = l :=
    rfl
  rw [front] at member
  have small := old x (List.mem_of_mem_drop member)
  omega

end Iwan
