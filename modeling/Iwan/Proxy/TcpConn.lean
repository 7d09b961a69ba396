import Iwan.Lib.Trace

/- A connection slot of the user-space stack (lwip_bridge.c, service_local_outputs). -/
namespace Iwan

inductive NsState where
  | closed
  | synSent
  | established
  | closeWait
  | finWait
deriving DecidableEq, Repr

inductive NsTerm where
  | none
  | rst
  | timeout
deriving DecidableEq, Repr

inductive PcbState where
  | active
  | lastAck
  | timeWait
deriving DecidableEq, Repr

/-- A slot. `aborted` is not in the source: it records that the pcb was lost with what rxq held. -/
structure TcpConn where
  pcb : Option PcbState
  state : NsState
  rxq : List UInt8
  rxqUnrecved : Nat
  termReason : NsTerm
  reapPending : Bool
  stateMs : UInt64
  lastPollMs : UInt64
  aborted : Bool
deriving DecidableEq, Repr

def nsFinWaitTimeout : UInt64 := 30000

def nsLastAckTimeout : UInt64 := 30000

def nsPollDeadMs : UInt64 := 1000

def localWriteLimit : Nat := 262144

def TcpConn.alloc (now : UInt64) : TcpConn :=
  ⟨some .active, .synSent, [], 0, .none, false, now, now, false⟩

def recvedChunks : Nat → Nat → List Nat
  | 0, _ => []
  | fuel + 1, toRecved =>
    if toRecved = 0 then []
    else
      let chunk := if 0xFFFF < toRecved then 0xFFFF else toRecved
      chunk :: recvedChunks fuel (toRecved - chunk)

/-- conn_reconcile_rxq: gives the window back for what has left rxq. -/
def connReconcileRxq (c : TcpConn) : TcpConn × List Nat :=
  if c.pcb = none then (c, [])
  else if c.rxqUnrecved ≤ c.rxq.length then (c, [])
  else
    let toRecved := c.rxqUnrecved - c.rxq.length
    ({ c with rxqUnrecved := c.rxq.length }, recvedChunks toRecved toRecved)

/-- What bridge_recv is called with. -/
inductive Delivery where
  | eof
  | segment (payload : List UInt8) (ok : Bool)
deriving DecidableEq, Repr

def bridgeRecv (c : TcpConn) : Delivery → TcpConn
  | .eof =>
    { c with
      state := match c.state with
        | .established => .closeWait
        | .finWait => .closed
        | other => other }
  | .segment payload ok =>
    if !ok then c
    else
      { c with rxq := c.rxq ++ payload, rxqUnrecved := c.rxqUnrecved + payload.length }

def TcpConn.lost (c : TcpConn) : TcpConn :=
  { c with
    pcb := none, state := .closed, reapPending := true, rxq := [], rxqUnrecved := 0,
    aborted := true }

def bridgeErr (c : TcpConn) (rst : Bool) : TcpConn :=
  if c.pcb = none then c
  else { c.lost with termReason := if rst then .rst else .timeout }

def bridgeConnected (c : TcpConn) (ok : Bool) (now : UInt64) : TcpConn :=
  if ok then { c with state := .established, stateMs := now } else c

/-- ns_abort: lwIP calls bridge_err, but not for TIME_WAIT. -/
def nsAbort (c : TcpConn) : TcpConn :=
  match c.pcb with
  | none => c
  | some .timeWait => c.lost
  | some _ => bridgeErr c false

def nsClose (c : TcpConn) (now : UInt64) : TcpConn × List Nat :=
  if c.pcb = none ∨ c.state = .closed then (c, [])
  else if c.state = .synSent then (nsAbort c, [])
  else
    let (c, recved) := connReconcileRxq c
    match c.state with
    | .established => ({ c with state := .finWait, stateMs := now }, recved)
    | .closeWait => ({ c with state := .closed, stateMs := now }, recved)
    | _ => (c, recved)

def connSweepStale (c : TcpConn) (stale : Bool) : TcpConn :=
  if c.pcb ≠ none ∧ stale = true then c.lost else c

def connReapIfDead (c : TcpConn) (held : Bool) (now : UInt64) : TcpConn :=
  if c.state = .closed ∧ c.pcb = some .timeWait ∧ c.rxq = [] ∧ held = false ∧
      nsPollDeadMs < now - c.lastPollMs then
    { c with pcb := none }
  else c

/-- What a tick meets at a slot. -/
structure TickInput where
  now : UInt64
  connectTimeoutMs : UInt32
  staleBefore : Bool
  staleBehind : Bool
  held : Bool
deriving DecidableEq, Repr

/-- ns_tick at a slot: timeouts, and the reaping of a dead connection. -/
def tickSlot (c : TcpConn) (i : TickInput) : TcpConn × List Nat :=
  if c.pcb = none then ({ c with reapPending := false }, [])
  else
    let (c, recved) := connReconcileRxq c
    if c.state = .synSent ∧ i.connectTimeoutMs.toUInt64 < i.now - c.stateMs then
      (nsAbort { c with termReason := .timeout }, recved)
    else if c.state = .finWait ∧ nsFinWaitTimeout < i.now - c.stateMs then
      (nsAbort { c with termReason := .timeout }, recved)
    else if c.state = .closed ∧ c.pcb = some .lastAck ∧ nsLastAckTimeout < i.now - c.stateMs then
      (nsAbort { c with termReason := .timeout }, recved)
    else (connReapIfDead c i.held i.now, recved)

def nsTickSlot (c : TcpConn) (i : TickInput) : TcpConn × List Nat :=
  let (c, recved) := tickSlot (connSweepStale c i.staleBefore) i
  (connSweepStale c i.staleBehind, recved)

/-- How a write to the client ends. -/
inductive WriteResult where
  | took (n : Nat)
  | again
  | failed
deriving DecidableEq, Repr

def drainRxq (c : TcpConn) (result : WriteResult) : TcpConn × List UInt8 :=
  if c.rxq = [] then (c, [])
  else
    let want := min c.rxq.length localWriteLimit
    match result with
    | .took n =>
      let n := min n want
      if n = c.rxq.length then ({ c with rxq := [] }, c.rxq)
      else ({ c with rxq := c.rxq.drop n }, c.rxq.take n)
    | .again => (c, [])
    | .failed => (nsAbort c, [])

/-- What the end of service_local_outputs meets. -/
structure CloseInput where
  drained : Bool
  idle : Bool
  now : UInt64
deriving DecidableEq, Repr

def closeIfDrained (c : TcpConn) (i : CloseInput) : TcpConn × List Nat :=
  if c.state = .closeWait ∧ i.drained = true ∧ c.rxq = [] ∧ i.idle = true then nsClose c i.now
  else (c, [])

/-- A slot from conn_slot_alloc on, with its history. -/
structure SlotLife where
  conn : TcpConn
  delivered : List UInt8
  written : List UInt8
  recved : List Nat
deriving DecidableEq, Repr

/-- The callbacks of lwIP and the calls of the event loop. -/
inductive SlotEvent where
  | recv (d : Delivery)
  | err (rst : Bool)
  | connected (ok : Bool) (now : UInt64)
  | poll (now : UInt64)
  | moved (pcb : PcbState)
  | drain (result : WriteResult)
  | outputs (i : CloseInput)
  | tick (i : TickInput)
  | close (now : UInt64)
  | abort
deriving DecidableEq, Repr

def Delivery.bytes : Delivery → List UInt8
  | .eof => []
  | .segment payload ok => if ok then payload else []

/-- What an event does to the slot, with the bytes and the window. -/
def SlotEvent.run (c : TcpConn) : SlotEvent → TcpConn × List UInt8 × List UInt8 × List Nat
  | .recv d => if c.pcb = none then (c, [], [], []) else (bridgeRecv c d, d.bytes, [], [])
  | .err rst => (bridgeErr c rst, [], [], [])
  | .connected ok now =>
    (if c.pcb = none then c else bridgeConnected c ok now, [], [], [])
  | .poll now => (if c.pcb = none then c else { c with lastPollMs := now }, [], [], [])
  | .moved pcb => (if c.pcb = none then c else { c with pcb := some pcb }, [], [], [])
  | .drain result => ((drainRxq c result).1, [], (drainRxq c result).2, [])
  | .outputs i => ((closeIfDrained c i).1, [], [], (closeIfDrained c i).2)
  | .tick i => ((nsTickSlot c i).1, [], [], (nsTickSlot c i).2)
  | .close now => ((nsClose c now).1, [], [], (nsClose c now).2)
  | .abort => (nsAbort c, [], [], [])

def slotStep (s : SlotLife) (e : SlotEvent) : SlotLife × List Empty :=
  let out := e.run s.conn
  (⟨out.1, s.delivered ++ out.2.1, s.written ++ out.2.2.1, s.recved ++ out.2.2.2⟩, [])

def SlotLife.start (now : UInt64) : SlotLife := ⟨.alloc now, [], [], []⟩

/-- Until an abort the buffer is what was delivered and not written, and the counter what was not
given back. -/
structure Accounts (c : TcpConn) (delivered written : List UInt8) (recved : Nat) : Prop where
  behind : written <+: delivered
  unrecved : c.rxq.length ≤ c.rxqUnrecved
  given : recved ≤ written.length
  flowing : c.aborted = false →
    written ++ c.rxq = delivered ∧ recved + c.rxqUnrecved = delivered.length
  live : c.pcb ≠ none → c.aborted = false
  shut : c.pcb = none → c.rxq = [] ∧ c.rxqUnrecved = 0

theorem recvedChunks_sum (fuel toRecved : Nat) (enough : toRecved ≤ fuel) :
    (recvedChunks fuel toRecved).sum = toRecved ∧
      ∀ chunk ∈ recvedChunks fuel toRecved, chunk ≤ 0xFFFF := by
  induction fuel generalizing toRecved with
  | zero => exact ⟨(Nat.le_zero.mp enough).symm, nofun⟩
  | succ fuel ih =>
    unfold recvedChunks
    by_cases none : toRecved = 0
    · rw [if_pos none]
      exact ⟨none.symm, nofun⟩
    · rw [if_neg none]
      dsimp only
      by_cases large : 0xFFFF < toRecved
      · rw [if_pos large, List.sum_cons]
        obtain ⟨sum, small⟩ := ih (toRecved - 0xFFFF) (by omega)
        exact ⟨by omega, List.forall_mem_cons.mpr ⟨Nat.le_refl _, small⟩⟩
      · rw [if_neg large, List.sum_cons]
        obtain ⟨sum, small⟩ := ih (toRecved - toRecved) (by omega)
        exact ⟨by omega, List.forall_mem_cons.mpr ⟨by omega, small⟩⟩

section

variable {c : TcpConn} {delivered written : List UInt8} {recved : Nat}

theorem Accounts.lost (held : Accounts c delivered written recved) :
    Accounts c.lost delivered written recved :=
  ⟨held.behind, Nat.le_refl _, held.given, nofun, fun live => absurd rfl live,
    fun _ => ⟨rfl, rfl⟩⟩

theorem Accounts.same (held : Accounts c delivered written recved) {d : TcpConn}
    (pcb : d.pcb = none ↔ c.pcb = none) (rxq : d.rxq = c.rxq)
    (count : d.rxqUnrecved = c.rxqUnrecved) (aborted : d.aborted = c.aborted) :
    Accounts d delivered written recved := by
  refine ⟨held.behind, ?_, held.given, ?_, fun live => ?_, fun gone => ?_⟩
  · rw [rxq, count]
    exact held.unrecved
  · rw [rxq, count, aborted]
    exact held.flowing
  · rw [aborted]
    exact held.live fun none => live (pcb.mpr none)
  · rw [rxq, count]
    exact held.shut (pcb.mp gone)

theorem bridgeErr_accounts (held : Accounts c delivered written recved) (rst : Bool) :
    Accounts (bridgeErr c rst) delivered written recved := by
  unfold bridgeErr
  split
  · exact held
  · exact held.lost.same Iff.rfl rfl rfl rfl

theorem nsAbort_accounts (held : Accounts c delivered written recved) :
    Accounts (nsAbort c) delivered written recved := by
  unfold nsAbort
  split
  · exact held
  · exact held.lost
  · exact bridgeErr_accounts held false

theorem connReconcileRxq_accounts (held : Accounts c delivered written recved) :
    Accounts (connReconcileRxq c).1 delivered written (recved + (connReconcileRxq c).2.sum) ∧
      (connReconcileRxq c).1.aborted = c.aborted ∧
      (connReconcileRxq c).1.rxqUnrecved = (connReconcileRxq c).1.rxq.length ∧
      (c.aborted = false → recved + (connReconcileRxq c).2.sum = written.length) := by
  unfold connReconcileRxq
  by_cases gone : c.pcb = none
  · obtain ⟨rxq, unrecved⟩ := held.shut gone
    rw [if_pos gone]
    refine ⟨held, rfl, by rw [rxq, unrecved]; rfl, fun whole => ?_⟩
    obtain ⟨bytes, count⟩ := held.flowing whole
    rw [rxq, List.append_nil] at bytes
    rw [bytes, ← count, unrecved]
    rfl
  · rw [if_neg gone]
    obtain ⟨bytes, count⟩ := held.flowing (held.live gone)
    have total := congrArg List.length bytes
    rw [List.length_append] at total
    have unrecved := held.unrecved
    by_cases even : c.rxqUnrecved ≤ c.rxq.length
    · rw [if_pos even]
      refine ⟨held, rfl, Nat.le_antisymm even unrecved, fun _ => ?_⟩
      rw [List.sum_nil]
      omega
    · rw [if_neg even]
      dsimp only
      rw [(recvedChunks_sum _ _ (Nat.le_refl _)).1]
      refine ⟨⟨held.behind, Nat.le_refl _, by omega, fun _ => ⟨bytes, ?_⟩, held.live,
        fun none => absurd none gone⟩, rfl, rfl, fun _ => by omega⟩
      show recved + (c.rxqUnrecved - c.rxq.length) + c.rxq.length = delivered.length
      omega

theorem nsClose_accounts (held : Accounts c delivered written recved) (now : UInt64) :
    Accounts (nsClose c now).1 delivered written (recved + (nsClose c now).2.sum) := by
  unfold nsClose
  by_cases idle : c.pcb = none ∨ c.state = .closed
  · rw [if_pos idle]
    exact held
  · rw [if_neg idle]
    by_cases connecting : c.state = .synSent
    · rw [if_pos connecting]
      exact nsAbort_accounts held
    · rw [if_neg connecting]
      have reconciled := (connReconcileRxq_accounts held).1
      dsimp only
      split
      · exact reconciled.same Iff.rfl rfl rfl rfl
      · exact reconciled.same Iff.rfl rfl rfl rfl
      · exact reconciled

theorem connSweepStale_accounts (held : Accounts c delivered written recved) (stale : Bool) :
    Accounts (connSweepStale c stale) delivered written recved := by
  unfold connSweepStale
  split
  · exact held.lost
  · exact held

theorem tickSlot_accounts (held : Accounts c delivered written recved) (i : TickInput) :
    Accounts (tickSlot c i).1 delivered written (recved + (tickSlot c i).2.sum) := by
  unfold tickSlot
  by_cases gone : c.pcb = none
  · rw [if_pos gone]
    exact held.same Iff.rfl rfl rfl rfl
  · rw [if_neg gone]
    obtain ⟨reconciled, -, even, -⟩ := connReconcileRxq_accounts held
    have aborted : Accounts (nsAbort { (connReconcileRxq c).1 with termReason := .timeout })
        delivered written (recved + (connReconcileRxq c).2.sum) :=
      nsAbort_accounts (reconciled.same Iff.rfl rfl rfl rfl)
    dsimp only
    split
    · exact aborted
    · split
      · exact aborted
      · split
        · exact aborted
        · show Accounts (connReapIfDead (connReconcileRxq c).1 i.held i.now) _ _ _
          unfold connReapIfDead
          split
          · next dead =>
            rw [dead.2.2.1] at even
            exact ⟨reconciled.behind, reconciled.unrecved, reconciled.given, reconciled.flowing,
              fun live => absurd rfl live, fun _ => ⟨dead.2.2.1, even⟩⟩
          · exact reconciled

theorem drainRxq_accounts (held : Accounts c delivered written recved) (result : WriteResult) :
    Accounts (drainRxq c result).1 delivered (written ++ (drainRxq c result).2) recved := by
  unfold drainRxq
  by_cases empty : c.rxq = []
  · rw [if_pos empty, List.append_nil]
    exact held
  · rw [if_neg empty]
    have live : c.pcb ≠ none := fun none => empty (held.shut none).1
    obtain ⟨bytes, count⟩ := held.flowing (held.live live)
    have unrecved := held.unrecved
    have given := held.given
    -- the front of the buffer goes to the client
    have moved : ∀ n, Accounts { c with rxq := c.rxq.drop n } delivered (written ++ c.rxq.take n)
        recved := by
      intro n
      have joined : written ++ c.rxq.take n ++ c.rxq.drop n = delivered := by
        rw [List.append_assoc, List.take_append_drop]
        exact bytes
      refine ⟨⟨_, joined⟩, ?_, ?_, fun _ => ⟨joined, count⟩, held.live,
        fun none => absurd none live⟩
      · show (c.rxq.drop n).length ≤ c.rxqUnrecved
        rw [List.length_drop]
        omega
      · rw [List.length_append]
        omega
    cases result with
    | took n =>
      dsimp only
      split
      · next all =>
        have whole := moved c.rxq.length
        rw [List.drop_length, List.take_length] at whole
        exact whole
      · exact moved _
    | again =>
      rw [List.append_nil]
      exact held
    | failed =>
      rw [List.append_nil]
      exact nsAbort_accounts held

end

theorem bridgeRecv_accounts {c : TcpConn} {delivered written : List UInt8} {recved : Nat}
    (held : Accounts c delivered written recved) (live : c.pcb ≠ none) (d : Delivery) :
    Accounts (bridgeRecv c d) (delivered ++ d.bytes) written recved := by
  obtain ⟨bytes, count⟩ := held.flowing (held.live live)
  cases d with
  | eof =>
    rw [show Delivery.eof.bytes = [] from rfl, List.append_nil]
    exact held.same Iff.rfl rfl rfl rfl
  | segment payload ok =>
    cases ok with
    | false =>
      show Accounts c (delivered ++ []) written recved
      rw [List.append_nil]
      exact held
    | true =>
      show Accounts { c with
        rxq := c.rxq ++ payload, rxqUnrecved := c.rxqUnrecved + payload.length }
        (delivered ++ payload) written recved
      refine ⟨held.behind.trans (List.prefix_append _ _), ?_, held.given, fun _ => ⟨?_, ?_⟩,
        held.live, fun none => absurd none live⟩
      · show (c.rxq ++ payload).length ≤ c.rxqUnrecved + payload.length
        rw [List.length_append]
        exact Nat.add_le_add_right held.unrecved _
      · show written ++ (c.rxq ++ payload) = delivered ++ payload
        rw [← List.append_assoc, bytes]
      · show recved + (c.rxqUnrecved + payload.length) = (delivered ++ payload).length
        rw [List.length_append]
        omega

theorem SlotEvent.run_accounts {c : TcpConn} {delivered written : List UInt8} {recved : Nat}
    (held : Accounts c delivered written recved) (e : SlotEvent) :
    let out := e.run c
    Accounts out.1 (delivered ++ out.2.1) (written ++ out.2.2.1) (recved + out.2.2.2.sum) := by
  -- an event that delivers and writes nothing
  have quiet : ∀ (d : TcpConn) (more : List Nat),
      Accounts d delivered written (recved + more.sum) →
      Accounts d (delivered ++ []) (written ++ []) (recved + more.sum) := by
    intro d more accounts
    rw [List.append_nil, List.append_nil]
    exact accounts
  -- a callback for a slot without a pcb does not come
  have called : ∀ d : TcpConn, (c.pcb ≠ none → Accounts d delivered written recved) →
      Accounts (if c.pcb = none then c else d) delivered written recved := by
    intro d then_
    split
    · exact held
    · next live => exact then_ live
  cases e with
  | recv d =>
    unfold SlotEvent.run
    dsimp only
    split
    · exact quiet c [] held
    · next live =>
      rw [List.append_nil]
      exact bridgeRecv_accounts held live d
  | err rst => exact quiet _ [] (bridgeErr_accounts held rst)
  | connected ok now =>
    refine quiet _ [] (called _ fun _ => ?_)
    unfold bridgeConnected
    split
    · exact held.same Iff.rfl rfl rfl rfl
    · exact held
  | poll now => exact quiet _ [] (called _ fun _ => held.same Iff.rfl rfl rfl rfl)
  | moved pcb =>
    refine quiet _ [] (called _ fun live => held.same ?_ rfl rfl rfl)
    exact ⟨nofun, fun none => absurd none live⟩
  | drain result =>
    unfold SlotEvent.run
    dsimp only
    rw [List.append_nil]
    exact drainRxq_accounts held result
  | outputs i =>
    refine quiet _ _ ?_
    show Accounts (closeIfDrained c i).1 _ _ (recved + (closeIfDrained c i).2.sum)
    unfold closeIfDrained
    split
    · exact nsClose_accounts held i.now
    · exact held
  | tick i =>
    exact quiet _ _
      (connSweepStale_accounts (tickSlot_accounts (connSweepStale_accounts held _) i) _)
  | close now => exact quiet _ _ (nsClose_accounts held now)
  | abort => exact quiet _ [] (nsAbort_accounts held)

def SlotLife.Balanced (s : SlotLife) : Prop :=
  Accounts s.conn s.delivered s.written s.recved.sum

theorem slotRun_balanced (now : UInt64) (events : List SlotEvent) :
    (Trace.final slotStep (SlotLife.start now) events).Balanced := by
  refine Trace.final_invariant slotStep SlotLife.Balanced (fun s e held => ?_) _ events ?_
  · show Accounts _ _ _ (s.recved ++ (e.run s.conn).2.2.2).sum
    rw [List.sum_append]
    exact SlotEvent.run_accounts held e
  · exact ⟨List.prefix_rfl, Nat.le_refl _, Nat.le_refl _, fun _ => ⟨rfl, rfl⟩, fun _ => rfl, nofun⟩

/-- Until an abort what was written and the buffer are what was delivered, and the window given
back is that less the counter; a slot that is reaped has written everything. -/
theorem slotRun_download (now : UInt64) (events : List SlotEvent) :
    let s := Trace.final slotStep (SlotLife.start now) events
    (s.conn.aborted = false → s.written ++ s.conn.rxq = s.delivered ∧
        s.recved.sum + s.conn.rxqUnrecved = s.delivered.length ∧
        s.recved.sum + (connReconcileRxq s.conn).2.sum = s.written.length ∧
        ∀ held now, (connReapIfDead (connReconcileRxq s.conn).1 held now).pcb = none →
          s.written = s.delivered) ∧
      (s.conn.pcb ≠ none → s.conn.aborted = false) ∧
      s.written <+: s.delivered ∧ s.conn.rxq.length ≤ s.conn.rxqUnrecved ∧
      s.recved.sum ≤ s.written.length ∧
      (s.conn.pcb = none → s.conn.rxq = []) := by
  intro s
  have held : Accounts s.conn s.delivered s.written s.recved.sum := slotRun_balanced now events
  obtain ⟨reconciled, same, -, given⟩ := connReconcileRxq_accounts held
  refine ⟨fun whole => ?_, held.live, held.behind, held.unrecved, held.given,
    fun gone => (held.shut gone).1⟩
  obtain ⟨bytes, count⟩ := held.flowing whole
  refine ⟨bytes, count, given whole, fun flow now gone => ?_⟩
  have joined := (reconciled.flowing (same.trans whole)).1
  have drained : (connReconcileRxq s.conn).1.rxq = [] := by
    unfold connReapIfDead at gone
    split at gone
    · next dead => exact dead.2.2.1
    · exact (reconciled.shut gone).1
  rw [drained, List.append_nil] at joined
  exact joined

/-- Five bytes are delivered and the connection is aborted: none was given back. -/
theorem slotRun_aborted :
    let s := Trace.final slotStep (SlotLife.start 0)
      [.connected true 0, .recv (.segment [1, 2, 3, 4, 5] true), .abort]
    s.conn.aborted = true ∧ s.delivered.length = 5 ∧ s.recved.sum = 0 ∧
      s.conn.rxqUnrecved = 0 := by
  decide +kernel

end Iwan
