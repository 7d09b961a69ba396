import Iwan.Client.Downlink

/- The client's senders (proxy.c, lwip_bridge.c, socks_dns.c). -/
namespace Iwan

open BigEndian

def ClientSession.dataHdr (s : ClientSession) : List UInt8 :=
  pktHdr (if s.enc ≠ 0 then .ptDataEnc else .ptData) s.enc s.sid s.token

def pumpBatch : Nat := 32
def pumpMaxLatUs : UInt64 := 20

/-- A batch that is not sent yet. -/
structure PumpBatch where
  hdr : List UInt8
  frames : List (List UInt8)
  t0 : UInt64

/-- The batch of a reader thread. -/
structure PumpTx where
  batch : Option PumpBatch
  lost : Bool

def PumpTx.fresh : PumpTx := ⟨none, false⟩

def PumpTx.pending (q : PumpTx) : List (List UInt8) := (q.batch.map (·.frames)).getD []

/-- The allocation, a stop request and the clock. -/
structure PumpEnv where
  alloc : Bool
  stop : Bool
  started : UInt64
  ended : UInt64

inductive PumpCall where
  | last
  | packet (pkt : List UInt8) (env : PumpEnv)

def PumpCall.packets : PumpCall → List (List UInt8)
  | .last => []
  | .packet pkt _ => [pkt]

def pumpFlush (q : PumpTx) : PumpTx × List ClientEffect :=
  ({ q with batch := q.batch.map fun b => { b with frames := [] } }, q.pending.map .portSend)

def PumpTx.open (s : ClientSession) (q : PumpTx) (env : PumpEnv) : Option PumpBatch :=
  match q.batch with
  | none => if env.alloc then some ⟨s.dataHdr, [], env.started⟩ else none
  | some b => if b.frames = [] then some { b with t0 := env.started } else some b

def pumpTunPkt (machine : Machine) (s : ClientSession) (q : PumpTx) :
    PumpCall → PumpTx × List ClientEffect
  | .last => pumpFlush q
  | .packet pkt env =>
    if pkt.length = 0 ∨ pumpSlot < pkt.length then (q, [])
    else
      match q.open s env with
      | none => ({ q with lost := true }, [])
      | some b =>
        if env.stop then ({ q with batch := some b }, [])
        else
          -- the payload is encrypted whatever the header says
          let frame := b.hdr ++ xorCrypt machine pkt s.xorKey.toList
          let b := { b with frames := b.frames ++ [frame] }
          if b.frames.length = pumpBatch ∨ pumpMaxLatUs ≤ env.ended - b.t0 then
            pumpFlush { q with batch := some b }
          else ({ q with batch := some b }, [])

/-- What the bridge frames a packet with. -/
structure Netstack where
  outerHdr : List UInt8
  xorKey : Vector UInt8 8

def nsSetOuter (s : ClientSession) : Netstack := ⟨s.dataHdr, s.xorKey⟩

/-- The connection's share, a free slot, the copy out of lwIP. -/
structure BridgeEnv where
  capped : Bool
  slotFree : Bool
  copied : Bool

def bridgeOutputFrame (machine : Machine) (ns : Netstack) (p : List UInt8) (env : BridgeEnv) :
    Option (List UInt8) :=
  if 1500 < p.length then none
  else if env.capped then none
  else if !env.slotFree then none
  else if !env.copied then none
  else
    some (ns.outerHdr ++
      if byteAt ns.outerHdr 1 ≠ 0 then xorCrypt machine p ns.xorKey.toList else p)

def dnsWrapOuter (machine : Machine) (inner : List UInt8) (outsz : Nat) (outer : List UInt8)
    (xkey : Vector UInt8 8) : Option (List UInt8) :=
  if outsz < 8 + inner.length then none
  else
    some (outer ++
      if byteAt outer 0 = FrameType.ptDataEnc.code then xorCrypt machine inner xkey.toList
      else inner)

section

variable (machine : Machine) (s : ClientSession)

def pumpFrame (pkt : List UInt8) : List UInt8 := s.dataHdr ++ xorCrypt machine pkt s.xorKey.toList

def PumpTx.Ready (q : PumpTx) : Prop := ∀ b, q.batch = some b → b.hdr = s.dataHdr

variable {machine s}

theorem PumpTx.Ready.open {q : PumpTx} (ready : q.Ready s) {env : PumpEnv} {b : PumpBatch}
    (opened : q.open s env = some b) : b.hdr = s.dataHdr ∧ b.frames = q.pending := by
  unfold PumpTx.open at opened
  cases batch : q.batch with
  | none =>
    simp only [batch] at opened
    split_ifs at opened
    obtain rfl := Option.some.inj opened
    exact ⟨rfl, by rw [PumpTx.pending, batch]; rfl⟩
  | some b' =>
    have pending : q.pending = b'.frames := by
      rw [PumpTx.pending, batch]
      rfl
    simp only [batch] at opened
    split_ifs at opened <;> obtain rfl := Option.some.inj opened
    · exact ⟨ready b' batch, pending.symm⟩
    · exact ⟨ready b' batch, pending.symm⟩

theorem pumpFlush_ready {q : PumpTx} (ready : q.Ready s) : (pumpFlush q).1.Ready s := by
  intro b flushed
  obtain ⟨b', batch, rfl⟩ := Option.map_eq_some_iff.mp flushed
  exact ready b' batch

theorem pumpFlush_pending (q : PumpTx) : (pumpFlush q).1.pending = [] := by
  simp only [PumpTx.pending, pumpFlush]
  cases q.batch <;> rfl

def Queued (machine : Machine) (s : ClientSession) (before : List (List UInt8))
    (taken : List (List UInt8)) (after : PumpTx) (fx : List ClientEffect) : Prop :=
  fx ++ after.pending.map .portSend = (before ++ taken.map (pumpFrame machine s)).map .portSend

theorem queued_kept (before taken : List (List UInt8)) (q : PumpTx)
    (pending : q.pending = before ++ taken.map (pumpFrame machine s)) :
    Queued machine s before taken q [] := by
  rw [Queued, List.nil_append, pending]

theorem queued_idle (q after : PumpTx) (same : after.pending = q.pending) :
    Queued machine s q.pending [] after [] := by
  apply queued_kept
  rw [same, List.map_nil, List.append_nil]

theorem queued_flush (before taken : List (List UInt8)) (q : PumpTx)
    (pending : q.pending = before ++ taken.map (pumpFrame machine s)) :
    Queued machine s before taken (pumpFlush q).1 (pumpFlush q).2 := by
  rw [Queued, pumpFlush_pending, List.map_nil, List.append_nil, ← pending]
  rfl

theorem pumpTunPkt_step {q : PumpTx} (ready : q.Ready s) (call : PumpCall) :
    (pumpTunPkt machine s q call).1.Ready s ∧
      ∃ taken : List (List UInt8), taken.Sublist call.packets ∧
        Queued machine s q.pending taken (pumpTunPkt machine s q call).1
          (pumpTunPkt machine s q call).2 := by
  cases call with
  | last =>
    refine ⟨pumpFlush_ready ready, [], List.Sublist.refl _, queued_flush q.pending [] q ?_⟩
    rw [List.map_nil, List.append_nil]
  | packet pkt env =>
    by_cases size : pkt.length = 0 ∨ pumpSlot < pkt.length
    · simp only [pumpTunPkt, size, ↓reduceIte]
      exact ⟨ready, [], List.nil_sublist _, queued_idle q q rfl⟩
    · cases opened : q.open s env with
      | none =>
        simp only [pumpTunPkt, size, ↓reduceIte, opened]
        exact ⟨ready, [], List.nil_sublist _, queued_idle q _ rfl⟩
      | some b =>
        obtain ⟨hdr, frames⟩ := ready.open opened
        by_cases stop : env.stop = true
        · simp only [pumpTunPkt, size, ↓reduceIte, opened, stop]
          refine ⟨fun b' same => ?_, [], List.nil_sublist _, queued_idle q _ frames⟩
          rw [← Option.some.inj same]
          exact hdr
        · have ready' : PumpTx.Ready s ⟨some { b with
              frames := b.frames ++ [b.hdr ++ xorCrypt machine pkt s.xorKey.toList] },
              q.lost⟩ := by
            intro b' same
            rw [← Option.some.inj same]
            exact hdr
          have pending : b.frames ++ [b.hdr ++ xorCrypt machine pkt s.xorKey.toList] =
              q.pending ++ [pkt].map (pumpFrame machine s) := by
            rw [frames, hdr]
            rfl
          simp only [pumpTunPkt, size, ↓reduceIte, opened, stop, Bool.false_eq_true]
          split
          · exact ⟨pumpFlush_ready ready', [pkt], List.Sublist.refl _,
              queued_flush q.pending [pkt] _ pending⟩
          · exact ⟨ready', [pkt], List.Sublist.refl _, queued_kept q.pending [pkt] _ pending⟩

theorem pumpRun_ready (calls : List PumpCall) :
    (Trace.final (pumpTunPkt machine s) PumpTx.fresh calls).Ready s := by
  apply Trace.final_invariant (pumpTunPkt machine s) (PumpTx.Ready s)
  · intro q call ready
    exact (pumpTunPkt_step ready call).1
  · intro b impossible
    cases impossible

end

/-- The three places that frame a packet. -/
inductive Sender where
  | pump
  | bridge
  | dns
deriving DecidableEq, Repr

/-- A sender makes a frame of a packet. -/
inductive Builds (machine : Machine) (s : ClientSession) (pkt frame : List UInt8) : Sender → Prop
  | pump (calls : List PumpCall) (env : PumpEnv)
      (queued : let q := Trace.final (pumpTunPkt machine s) PumpTx.fresh calls
        let (after, fx) := pumpTunPkt machine s q (.packet pkt env)
        fx ++ after.pending.map .portSend = (q.pending ++ [frame]).map .portSend) :
      Builds machine s pkt frame .pump
  | bridge (env : BridgeEnv)
      (built : bridgeOutputFrame machine (nsSetOuter s) pkt env = some frame) :
      Builds machine s pkt frame .bridge
  | dns (outsz : Nat)
      (built : dnsWrapOuter machine pkt outsz s.dataHdr s.xorKey = some frame) :
      Builds machine s pkt frame .dns

def Sender.payload (machine : Machine) (s : ClientSession) (pkt : List UInt8) :
    Sender → List UInt8
  | .pump => xorCrypt machine pkt s.xorKey.toList
  | .bridge => if s.enc ≠ 0 then xorCrypt machine pkt s.xorKey.toList else pkt
  | .dns => if s.enc ≠ 0 then xorCrypt machine pkt s.xorKey.toList else pkt

theorem dataHdr_encrypted (s : ClientSession) :
    byteAt s.dataHdr 0 = FrameType.ptDataEnc.code ↔ s.enc ≠ 0 := by
  by_cases enc : s.enc = 0
  · have plain : byteAt s.dataHdr 0 = FrameType.ptData.code := by
      simp only [ClientSession.dataHdr, enc, ne_eq, not_true_eq_false, ↓reduceIte]
      rfl
    simp only [plain, enc, ne_eq, not_true_eq_false, iff_false]
    decide
  · simp only [ClientSession.dataHdr, enc, ne_eq, not_false_eq_true, ↓reduceIte, iff_true]
    rfl

theorem Builds.frame_eq {machine : Machine} {s : ClientSession} {pkt frame : List UInt8}
    {sender : Sender} (builds : Builds machine s pkt frame sender) :
    frame = s.dataHdr ++ sender.payload machine s pkt := by
  cases builds with
  | pump calls env queued =>
    obtain ⟨_, taken, sub, queued'⟩ := pumpTunPkt_step (pumpRun_ready calls) (.packet pkt env)
    have frames := List.map_injective_iff.mpr (fun _ _ => ClientEffect.portSend.inj)
      (queued'.symm.trans queued)
    have one := List.append_cancel_left frames
    obtain ⟨pkt', rfl, rfl⟩ := List.map_eq_singleton_iff.mp one
    rw [List.singleton_sublist.mp sub |> List.mem_singleton.mp]
    rfl
  | bridge env built =>
    unfold bridgeOutputFrame at built
    iterate 4
      split at built
      · cases built
    exact (Option.some.inj built).symm
  | dns outsz built =>
    unfold dnsWrapOuter at built
    simp only [dataHdr_encrypted] at built
    split at built
    · cases built
    · exact (Option.some.inj built).symm

end Iwan
