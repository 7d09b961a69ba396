import Iwan.Lib.Ring
import Iwan.Proxy.UdpSend
import Iwan.Wire.Cipher

/- The device queue of the user-space stack (lwip_bridge.c, socks.c). -/
namespace Iwan

open Circular Offload
open Function (update update_of_ne update_self)

def nsTxMax : Nat := 128

def nsTxConnCap : Nat := 16

def nsMaxConn : Nat := 64

/-- A queued frame and its connection. -/
structure TxItem where
  seg : Option Nat
  conn : Option Nat
deriving DecidableEq, Repr

/-- The ring, with the packet buffers, their references, the free mask and the shares. -/
structure TxQueue where
  ring : Belt TxItem
  pkt : Nat → List UInt8
  refs : Nat → Nat
  free : Nat → Bool
  used : Nat → Nat

def TxQueue.init : TxQueue :=
  ⟨⟨fun _ => ⟨none, none⟩, 0, 0⟩, fun _ => [], fun _ => 0, fun _ => true, fun _ => 0⟩

def txFindFreeSlot (q : TxQueue) : Option Nat := (List.range nsTxMax).find? q.free

def txEnqueue (q : TxQueue) (p : Nat) (conn : Option Nat) : TxQueue :=
  if nsTxMax ≤ q.ring.count then q
  else
    { q with
      ring := q.ring.push nsTxMax ⟨some p, conn⟩
      refs := update q.refs p (q.refs p + 1)
      free := if q.refs p = 0 then update q.free p false else q.free
      used := match conn with
        | none => q.used
        | some c => update q.used c (q.used c + 1) }

def nsTxPop (q : TxQueue) : TxQueue :=
  if q.ring.count = 0 then q
  else
    let it := q.ring.cell (q.ring.pos nsTxMax 0)
    match it.seg with
    | none => { q with ring := q.ring.pop nsTxMax }
    | some p =>
      { q with
        ring := q.ring.pop nsTxMax
        refs := update q.refs p (q.refs p - 1)
        free := if q.refs p - 1 = 0 then update q.free p true else q.free
        used := match it.conn with
          | none => q.used
          | some c => update q.used c (q.used c - 1) }

def nsTxRearmSeg (q : TxQueue) (it : TxItem) : TxQueue :=
  match it.seg with
  | none => q
  | some p => txEnqueue q p it.conn

abbrev ConnPorts := Nat → Option (UInt16 × UInt16)

def bridgeFindConn (conns : ConnPorts) (hint : UInt16 → Option Nat) (sport dport : UInt16) :
    Option Nat :=
  match (hint sport).filter fun c => conns c == some (sport, dport) with
  | some c => some c
  | none => (List.range nsMaxConn).find? fun c => conns c == some (sport, dport)

/-- Finds the connection of a packet, and whether it carries payload. -/
def bridgeOutputParse (conns : ConnPorts) (hint : UInt16 → Option Nat) (p : List UInt8) :
    Option Nat × Bool :=
  let got := min p.length 80
  let byte (i : Nat) : Nat := (p.getD i 0).toNat
  let port (i : Nat) : UInt16 := UInt16.ofNat (byte i * 256 + byte (i + 1))
  if got < 20 then (none, false)
  else if byte 0 / 16 = 6 then
    if got < 60 ∨ byte 6 ≠ 6 then (none, false)
    else
      let tot := byte 4 * 256 + byte 5
      let thlen := byte 52 / 16 * 4
      if thlen < 20 ∨ 80 < thlen ∨ tot < thlen then (none, false)
      else (bridgeFindConn conns hint (port 40) (port 42), decide (thlen < tot))
  else
    let ihl := byte 0 % 16 * 4
    if ihl < 20 ∨ 60 < ihl ∨ got < ihl + 20 then (none, false)
    else
      let thlen := byte (ihl + 12) / 16 * 4
      let tot := byte 2 * 256 + byte 3
      if thlen < 20 ∨ 80 < ihl + thlen ∨ tot < ihl + thlen then (none, false)
      else (bridgeFindConn conns hint (port ihl) (port (ihl + 2)), decide (ihl + thlen < tot))

/-- What an outgoing packet meets. -/
structure OutputInput where
  machine : Machine
  outerHdr : List UInt8
  xorKey : List UInt8
  conns : ConnPorts
  hint : UInt16 → Option Nat
  copied : Nat

def framed (i : OutputInput) (p : List UInt8) : List UInt8 :=
  i.outerHdr ++ (if i.outerHdr.getD 1 0 ≠ 0 then xorCrypt i.machine p i.xorKey else p)

def TxQueue.bridgeOutputFrame (q : TxQueue) (i : OutputInput) (p : List UInt8) : TxQueue × Bool :=
  if 1500 < p.length then (q, false)
  else
    let (conn, payload) := bridgeOutputParse i.conns i.hint p
    if payload && conn.any fun c => nsTxConnCap ≤ q.used c then (q, false)
    else
      match txFindFreeSlot q with
      | none => (q, false)
      | some slot =>
        if i.copied ≠ p.length then
          ({ q with pkt := update q.pkt slot (i.outerHdr ++ p.take i.copied) }, false)
        else
          (txEnqueue { q with pkt := update q.pkt slot (framed i p) } slot conn, true)

def popLoop : Nat → TxQueue → TxQueue × List Nat
  | 0, q => (q, [])
  | fuel + 1, q =>
    if q.ring.count = 0 then (q, [])
    else
      let out := popLoop fuel (nsTxPop q)
      (out.1, q.ring.pos nsTxMax 0 :: out.2)

def itemBuf (q : TxQueue) (it : TxItem) : List UInt8 :=
  match it.seg with
  | none => []
  | some p => q.pkt p

def rearmLoop (q : TxQueue) (cells : List Nat) : TxQueue :=
  cells.foldl (fun q cell => nsTxRearmSeg q (q.ring.cell cell)) q

/-- sock_drain_tx: pops everything, sends, and queues again what was not sent. -/
def sockDrainTx (q : TxQueue) (c : SocksGso) (inputs : List BatchInput) :
    TxQueue × SocksGso × List UdpCall :=
  let popped := popLoop nsTxMax q
  let frames := popped.2.map fun cell => itemBuf popped.1 (popped.1.ring.cell cell)
  let out := socksSendRuns inputs c frames
  (rearmLoop popped.1 (popped.2.drop out.2.2), out.1, out.2.1)

/-- The queue and the socket it drains to. -/
structure TxPlane where
  queue : TxQueue
  sock : SocksSock

def TxPlane.start : TxPlane := ⟨.init, .start⟩

/-- How a re-auth ends: the stack is kept or rebuilt, or ns_init fails. `nonblock` is what
port_set_nonblock says of the new socket. -/
inductive Reauth where
  | kept (nonblock : Bool)
  | rebuilt (nonblock : Bool)
  | rebuildFailed

inductive TxEvent where
  | output (i : OutputInput) (p : List UInt8)
  | drain (inputs : List BatchInput)
  | reauth (r : Reauth)

/-- A new socket that stays blocking is closed, and the old one is kept with its option as it is. -/
def socksReauthSwap (s : SocksSock) (nonblock : Bool) : SocksSock :=
  if nonblock then .start else ⟨SocksSock.start.gso, s.seg⟩

/-- A step of the event loop, with the frames that it hands to the kernel. -/
def txStep (s : TxPlane) : TxEvent → TxPlane × List (List UInt8)
  | .output i p => ({ s with queue := (TxQueue.bridgeOutputFrame s.queue i p).1 }, [])
  | .drain inputs =>
    let out := sockDrainTx s.queue s.sock.gso inputs
    (⟨out.1, ⟨out.2.1, size s.sock.seg out.2.2⟩⟩, handed out.2.2)
  | .reauth (.kept nonblock) =>
    (⟨(popLoop s.queue.ring.count s.queue).1, socksReauthSwap s.sock nonblock⟩, [])
  | .reauth (.rebuilt nonblock) => (⟨.init, socksReauthSwap s.sock nonblock⟩, [])
  | .reauth .rebuildFailed => (⟨.init, s.sock⟩, [])

def TxQueue.entries (q : TxQueue) : List TxItem := q.ring.view nsTxMax

def TxQueue.frames (q : TxQueue) : List (List UInt8) := q.entries.map (itemBuf q)

/-- The counters are what the ring holds, and no buffer is queued twice. -/
structure TxQueue.Sound (q : TxQueue) : Prop where
  room : q.ring.count ≤ nsTxMax
  pooled : ∀ it ∈ q.entries, ∃ p, it.seg = some p ∧ p < nsTxMax
  once : (q.entries.map (·.seg)).Nodup
  refs : ∀ p, q.refs p = q.entries.countP fun it => it.seg == some p
  free : ∀ p, q.free p = true ↔ q.refs p = 0
  used : ∀ c, q.used c = q.entries.countP fun it => it.conn == some c

theorem TxQueue.init_sound : TxQueue.init.Sound :=
  ⟨Nat.zero_le _, nofun, List.nodup_nil, fun _ => rfl, fun _ => ⟨fun _ => rfl, fun _ => rfl⟩,
    fun _ => rfl⟩

variable {q : TxQueue}

theorem txEnqueue_of (room : q.ring.count < nsTxMax) (p : Nat) (conn : Option Nat) :
    (txEnqueue q p conn).ring = q.ring.push nsTxMax ⟨some p, conn⟩ ∧
      (txEnqueue q p conn).pkt = q.pkt ∧
      (txEnqueue q p conn).entries = q.entries ++ [⟨some p, conn⟩] := by
  unfold txEnqueue TxQueue.entries
  rw [if_neg (by omega)]
  exact ⟨rfl, rfl, view_push q.ring _ room⟩

theorem txEnqueue_refs (room : q.ring.count < nsTxMax) (p : Nat) (conn : Option Nat) (x : Nat) :
    (txEnqueue q p conn).refs x = q.refs x + (if p = x then 1 else 0) := by
  unfold txEnqueue
  rw [if_neg (by omega)]
  show update q.refs p (q.refs p + 1) x = _
  by_cases same : p = x
  · rw [if_pos same, ← same, update_self]
  · rw [if_neg same, update_of_ne (Ne.symm same), Nat.add_zero]

theorem TxQueue.Sound.refs_iff (sound : q.Sound) (p : Nat) :
    q.refs p = 0 ↔ some p ∉ q.entries.map (·.seg) := by
  rw [sound.refs p, List.countP_eq_zero]
  constructor
  · intro none found
    obtain ⟨it, member, seg⟩ := List.mem_map.mp found
    exact none it member (beq_iff_eq.mpr seg)
  · intro absent it member seg
    exact absent (List.mem_map.mpr ⟨it, member, beq_iff_eq.mp seg⟩)

theorem txEnqueue_sound (sound : q.Sound) (room : q.ring.count < nsTxMax) {p : Nat}
    (inside : p < nsTxMax) (unheld : q.refs p = 0) (conn : Option Nat) :
    (txEnqueue q p conn).Sound := by
  obtain ⟨ring, -, entries⟩ := txEnqueue_of room p conn
  have refs := txEnqueue_refs room p conn
  refine ⟨?_, ?_, ?_, fun x => ?_, fun x => ?_, fun c => ?_⟩
  · rw [ring]
    exact room
  · rw [entries]
    intro it found
    rcases List.mem_append.mp found with old | new
    · exact sound.pooled it old
    · rw [List.mem_singleton.mp new]
      exact ⟨p, rfl, inside⟩
  · rw [entries, List.map_append, List.map_singleton]
    exact List.nodup_append_comm.mp
      (List.nodup_cons.mpr ⟨(sound.refs_iff p).mp unheld, sound.once⟩)
  · rw [refs, entries, List.countP_append, sound.refs x, List.countP_singleton]
    by_cases same : p = x <;> simp [same]
  · rw [refs]
    unfold txEnqueue
    rw [if_neg (by omega)]
    dsimp only
    rw [if_pos unheld]
    by_cases same : p = x
    · rw [if_pos same, ← same, update_self]
      exact ⟨nofun, nofun⟩
    · rw [if_neg same, Nat.add_zero, ← sound.free x, update_of_ne (Ne.symm same)]
  · rw [entries, List.countP_append, ← sound.used c, List.countP_singleton]
    unfold txEnqueue
    rw [if_neg (by omega)]
    cases conn with
    | none => simp
    | some d =>
      show update q.used d (q.used d + 1) c = _
      by_cases same : d = c
      · rw [← same, update_self]
        simp
      · rw [update_of_ne (Ne.symm same)]
        simp [same]

theorem nsTxPop_sound (sound : q.Sound) (present : 0 < q.ring.count) :
    (nsTxPop q).Sound ∧ (nsTxPop q).ring = q.ring.pop nsTxMax ∧ (nsTxPop q).pkt = q.pkt := by
  have view : q.entries = q.ring.cell (q.ring.pos nsTxMax 0) :: (q.ring.pop nsTxMax).view nsTxMax :=
    view_pop q.ring present
  obtain ⟨p, seg, inside⟩ := sound.pooled _ (view ▸ List.mem_cons_self)
  have popped : nsTxPop q =
      { q with
        ring := q.ring.pop nsTxMax
        refs := update q.refs p (q.refs p - 1)
        free := if q.refs p - 1 = 0 then update q.free p true else q.free
        used := match (q.ring.cell (q.ring.pos nsTxMax 0)).conn with
          | none => q.used
          | some c => update q.used c (q.used c - 1) } := by
    unfold nsTxPop
    rw [if_neg (by omega)]
    simp only [seg]
  have refs := sound.refs
  have used := sound.used
  rw [view] at refs used
  simp only [List.countP_cons, seg] at refs
  simp only [List.countP_cons] at used
  refine ⟨⟨?_, ?_, ?_, fun x => ?_, fun x => ?_, fun c => ?_⟩, by rw [popped], by rw [popped]⟩
  · rw [popped]
    show q.ring.count - 1 ≤ nsTxMax
    have room := sound.room
    omega
  · rw [popped]
    intro it found
    exact sound.pooled it (view ▸ List.mem_cons_of_mem _ found)
  · rw [popped]
    have once := sound.once
    rw [view, List.map_cons] at once
    exact (List.nodup_cons.mp once).2
  · rw [popped]
    show update q.refs p (q.refs p - 1) x = ((q.ring.pop nsTxMax).view nsTxMax).countP _
    by_cases same : x = p
    · rw [same, update_self, refs p]
      simp
    · rw [update_of_ne same, refs x]
      simp [Ne.symm same]
  · rw [popped]
    show (if q.refs p - 1 = 0 then update q.free p true else q.free) x = true ↔
      update q.refs p (q.refs p - 1) x = 0
    by_cases same : x = p
    · rw [same, update_self]
      split
      · next last => rw [update_self]; exact ⟨fun _ => last, fun _ => rfl⟩
      · next held =>
        rw [sound.free p]
        exact ⟨fun none => by omega, fun none => absurd none held⟩
    · rw [update_of_ne same, ← sound.free x]
      split
      · rw [update_of_ne same]
      · exact Iff.rfl
  · rw [popped]
    show (match (q.ring.cell (q.ring.pos nsTxMax 0)).conn with
      | none => q.used
      | some c => update q.used c (q.used c - 1)) c =
        ((q.ring.pop nsTxMax).view nsTxMax).countP _
    have count := used c
    cases conn : (q.ring.cell (q.ring.pos nsTxMax 0)).conn with
    | none =>
      rw [conn] at count
      simpa using count
    | some d =>
      rw [conn] at count
      dsimp only
      by_cases same : c = d
      · rw [same, update_self]
        rw [same] at count
        simp at count
        omega
      · rw [update_of_ne same, count]
        simp [Ne.symm same]

theorem popLoop_spec (fuel : Nat) (q : TxQueue) (sound : q.Sound) (enough : q.ring.count ≤ fuel) :
    (popLoop fuel q).1.Sound ∧ (popLoop fuel q).1.ring.count = 0 ∧
      (popLoop fuel q).1.ring.cell = q.ring.cell ∧ (popLoop fuel q).1.pkt = q.pkt ∧
      (∀ k, (popLoop fuel q).1.ring.pos nsTxMax k = q.ring.pos nsTxMax (q.ring.count + k)) ∧
      (popLoop fuel q).2 = (List.range q.ring.count).map (q.ring.pos nsTxMax) := by
  induction fuel generalizing q with
  | zero =>
    have none : q.ring.count = 0 := by omega
    rw [none]
    exact ⟨sound, none, rfl, rfl, fun k => by rw [Nat.zero_add]; rfl, rfl⟩
  | succ fuel ih =>
    unfold popLoop
    by_cases none : q.ring.count = 0
    · rw [if_pos none, none]
      exact ⟨sound, rfl, rfl, rfl, fun k => by rw [Nat.zero_add], rfl⟩
    · rw [if_neg none]
      obtain ⟨sound', ring, pkt⟩ := nsTxPop_sound sound (by omega)
      have count : (nsTxPop q).ring.count = q.ring.count - 1 := by rw [ring]; rfl
      obtain ⟨done, empty, cell, pkt', pos, cells⟩ := ih (nsTxPop q) sound' (by omega)
      refine ⟨done, empty, ?_, pkt'.trans pkt, fun k => ?_, ?_⟩
      · rw [cell, ring]
        rfl
      · rw [pos k, ring, pos_pop]
        show q.ring.pos nsTxMax (q.ring.count - 1 + k + 1) = _
        congr 1
        omega
      · obtain ⟨n, size⟩ : ∃ n, q.ring.count = n + 1 := ⟨q.ring.count - 1, by omega⟩
        dsimp only
        rw [cells, count, size, Nat.add_sub_cancel, List.range_succ_eq_map, List.map_cons,
          List.map_map]
        refine congrArg (_ :: ·) (List.map_congr_left fun k _ => ?_)
        rw [ring, pos_pop]
        rfl

theorem rearmLoop_spec (home : Nat → Nat) (item : Nat → TxItem) (n : Nat) (small : n ≤ nsTxMax)
    (apart : ∀ i k, i < k → k < i + nsTxMax → home i ≠ home k)
    (pooled : ∀ k, k < n → ∃ p, (item k).seg = some p ∧ p < nsTxMax)
    (distinct : ∀ i k, i < k → k < n → (item i).seg ≠ (item k).seg) (len : Nat) (first : Nat)
    (ends : first + len = n) (q : TxQueue) (sound : q.Sound)
    (fresh : ∀ k p, first ≤ k → k < n → (item k).seg = some p → q.refs p = 0)
    (behind : q.ring.count ≤ first) (pos : ∀ k, q.ring.pos nsTxMax k = home (n + k))
    (cells : ∀ k, first ≤ k → k < n → q.ring.cell (home k) = item k) :
    (rearmLoop q ((List.range' first len).map home)).Sound ∧
      (rearmLoop q ((List.range' first len).map home)).pkt = q.pkt ∧
      (rearmLoop q ((List.range' first len).map home)).entries =
        q.entries ++ (List.range' first len).map item := by
  induction len generalizing first q with
  | zero => exact ⟨sound, rfl, (List.append_nil _).symm⟩
  | succ len ih =>
    obtain ⟨p, seg, inside⟩ := pooled first (by omega)
    have room : q.ring.count < nsTxMax := by omega
    have here := cells first (Nat.le_refl _) (by omega)
    have whole : item first = ⟨some p, (item first).conn⟩ := by rw [← seg]
    have step : nsTxRearmSeg q (q.ring.cell (home first)) =
        txEnqueue q p (item first).conn := by
      rw [here, nsTxRearmSeg, seg]
    obtain ⟨ring, pkt, entries⟩ := txEnqueue_of room p (item first).conn
    have unheld := fresh first p (Nat.le_refl _) (by omega) seg
    have sound' := txEnqueue_sound sound room inside unheld (item first).conn
    rw [List.range'_succ, List.map_cons, List.map_cons]
    obtain ⟨done, pkt', entries'⟩ := ih (first + 1) (by omega)
      (txEnqueue q p (item first).conn) sound'
      (fun k x least below held => by
        have apart : p ≠ x := fun same =>
          distinct first k (by omega) below (seg.trans (same ▸ held.symm))
        rw [txEnqueue_refs room, if_neg apart, Nat.add_zero]
        exact fresh k x (by omega) below held)
      (by rw [ring]; exact Nat.succ_le_succ behind)
      (fun k => by rw [ring]; exact pos k) (fun k least below => by
        rw [ring]
        show update q.ring.cell (q.ring.pos nsTxMax q.ring.count) _ (home k) = _
        rw [pos, update_of_ne (apart k (n + q.ring.count) (by omega) (by omega))]
        exact cells k (by omega) below)
    have unrolled : rearmLoop q (home first :: (List.range' (first + 1) len).map home) =
        rearmLoop (txEnqueue q p (item first).conn)
          ((List.range' (first + 1) len).map home) := by
      rw [rearmLoop, List.foldl_cons, step]
      rfl
    rw [unrolled]
    refine ⟨done, pkt'.trans pkt, ?_⟩
    rw [entries', entries, List.append_assoc, ← whole]
    rfl

theorem itemBuf_congr {r : TxQueue} (same : q.pkt = r.pkt) : itemBuf q = itemBuf r := by
  funext it
  unfold itemBuf
  rw [same]

theorem sockDrainTx_spec (sound : q.Sound) {c : SocksGso} {m : Nat}
    (same : m = c.mss) (safe : Safe c.mss) (inputs : List BatchInput) :
    let out := sockDrainTx q c inputs
    out.1.Sound ∧ size m out.2.2 = out.2.1.mss ∧ Safe out.2.1.mss ∧
      ∃ sent, out.1.frames = q.frames.drop sent ∧
        (DrainFair inputs q.frames →
          handed out.2.2 = q.frames.take sent ∧ wire m out.2.2 = q.frames.take sent) := by
  obtain ⟨emptied, empty, cell, pkt, pos, cells⟩ := popLoop_spec nsTxMax q sound sound.room
  have frames : (popLoop nsTxMax q).2.map
      (fun at_ => itemBuf (popLoop nsTxMax q).1 ((popLoop nsTxMax q).1.ring.cell at_)) =
      q.frames := by
    rw [cells, cell, TxQueue.frames, TxQueue.entries, Belt.view, List.map_map, List.map_map]
    refine List.map_congr_left fun k _ => ?_
    show itemBuf (popLoop nsTxMax q).1 _ = itemBuf q _
    rw [itemBuf_congr pkt]
  have count : q.frames.length = q.ring.count := by
    rw [TxQueue.frames, List.length_map, TxQueue.entries, view_length]
  have item : ∀ k, k < q.ring.count → q.ring.cell (q.ring.pos nsTxMax k) ∈ q.entries :=
    fun k inside => List.mem_map.mpr ⟨k, List.mem_range.mpr inside, rfl⟩
  have tail : ∀ {α : Type} (f : Nat → α) (sent : Nat), ((List.range q.ring.count).map f).drop sent =
      (List.range' sent (q.ring.count - sent)).map f := by
    intro α f sent
    rw [← List.map_drop, List.range_eq_range', List.drop_range', Nat.zero_add, Nat.mul_one]
  have apart : ∀ i k, i < k → k < q.ring.count →
      (q.ring.cell (q.ring.pos nsTxMax i)).seg ≠ (q.ring.cell (q.ring.pos nsTxMax k)).seg := by
    intro i k before inside
    have once := sound.once
    rw [TxQueue.entries, Belt.view, List.map_map] at once
    exact fun same => absurd
      (List.inj_on_of_nodup_map once (List.mem_range.mpr (by omega)) (List.mem_range.mpr inside)
        same) (by omega)
  have unheld : ∀ k p, (socksSendRuns inputs c q.frames).2.2 ≤ k → k < q.ring.count →
      (q.ring.cell (q.ring.pos nsTxMax k)).seg = some p → (popLoop nsTxMax q).1.refs p = 0 := by
    intro k p _ _ _
    rw [emptied.refs p, TxQueue.entries, Belt.view, empty]
    rfl
  obtain ⟨size', safe', sent, bound, -, given⟩ := socksSendRuns_sent inputs c m same safe q.frames
  rw [count] at bound
  obtain ⟨done, pkt', entries⟩ := rearmLoop_spec (q.ring.pos nsTxMax)
    (fun k => q.ring.cell (q.ring.pos nsTxMax k)) q.ring.count sound.room
    (fun i k before turn => pos_ne q.ring before turn)
    (fun k inside => sound.pooled _ (item k inside)) apart
    (q.ring.count - (socksSendRuns inputs c q.frames).2.2) (socksSendRuns inputs c q.frames).2.2
    (by omega) (popLoop nsTxMax q).1 emptied unheld (by omega) pos (fun k _ _ => by rw [cell])
  unfold sockDrainTx
  dsimp only
  rw [frames, cells, tail]
  refine ⟨done, size', safe', (socksSendRuns inputs c q.frames).2.2, ?_,
    fun fair => ⟨given fair, sent fair⟩⟩
  have held : (rearmLoop (popLoop nsTxMax q).1 ((List.range' (socksSendRuns inputs c q.frames).2.2
      (q.ring.count - (socksSendRuns inputs c q.frames).2.2)).map (q.ring.pos nsTxMax))).entries =
      q.entries.drop (socksSendRuns inputs c q.frames).2.2 := by
    rw [entries, TxQueue.entries, Belt.view, empty, TxQueue.entries, Belt.view, tail]
    rfl
  rw [TxQueue.frames, held, itemBuf_congr (pkt'.trans pkt)]
  exact List.map_drop

theorem TxQueue.Sound.rewrite (sound : q.Sound) {slot : Nat}
    (unheld : q.refs slot = 0) (buf : List UInt8) :
    TxQueue.Sound { q with pkt := update q.pkt slot buf } ∧
      (∀ x, q.refs x ≠ 0 → update q.pkt slot buf x = q.pkt x) ∧
      TxQueue.frames { q with pkt := update q.pkt slot buf } = q.frames := by
  have kept : ∀ x, q.refs x ≠ 0 → update q.pkt slot buf x = q.pkt x := by
    intro x held
    refine update_of_ne (fun same => held ?_) _ _
    rw [same]
    exact unheld
  refine ⟨⟨sound.room, sound.pooled, sound.once, sound.refs, sound.free, sound.used⟩, kept, ?_⟩
  refine List.map_congr_left fun it found => ?_
  obtain ⟨x, seg, -⟩ := sound.pooled it found
  have held : q.refs x ≠ 0 := fun none =>
    (sound.refs_iff x).mp none (List.mem_map.mpr ⟨it, found, seg⟩)
  unfold itemBuf
  rw [seg]
  exact kept x held

theorem TxQueue.Sound.roomy (sound : q.Sound) {slot : Nat} (inside : slot < nsTxMax)
    (unheld : q.refs slot = 0) : q.ring.count < nsTxMax := by
  have absent := (sound.refs_iff slot).mp unheld
  have within : (some slot :: q.entries.map (·.seg)) ⊆ (List.range nsTxMax).map some := by
    intro seg found
    rcases List.mem_cons.mp found with first | later
    · rw [first]
      exact List.mem_map.mpr ⟨slot, List.mem_range.mpr inside, rfl⟩
    · obtain ⟨it, member, rfl⟩ := List.mem_map.mp later
      obtain ⟨p, seg, small⟩ := sound.pooled it member
      rw [seg]
      exact List.mem_map.mpr ⟨p, List.mem_range.mpr small, rfl⟩
  have bound := (List.nodup_cons.mpr ⟨absent, sound.once⟩).length_le_of_subset within
  rw [List.length_cons, List.length_map, List.length_map, List.length_range] at bound
  have count : (q.ring.view nsTxMax).length = q.ring.count := view_length q.ring
  rw [← count]
  exact bound

theorem bridgeOutputFrame_spec (sound : q.Sound) (i : OutputInput) (p : List UInt8) :
    let out := TxQueue.bridgeOutputFrame q i p
    out.1.Sound ∧ (∀ x, q.refs x ≠ 0 → out.1.pkt x = q.pkt x) ∧
      (out.2 = false → out.1.frames = q.frames) ∧
      (out.2 = true → out.1.frames = q.frames ++ [framed i p] ∧
        ∀ c, bridgeOutputParse i.conns i.hint p = (some c, true) → q.used c < nsTxConnCap) := by
  have refused : TxQueue.Sound q ∧ (∀ x, q.refs x ≠ 0 → q.pkt x = q.pkt x) ∧
      (false = false → q.frames = q.frames) ∧
      (false = true → q.frames = q.frames ++ [framed i p] ∧
        ∀ c, bridgeOutputParse i.conns i.hint p = (some c, true) → q.used c < nsTxConnCap) :=
    ⟨sound, fun _ _ => rfl, fun _ => rfl, nofun⟩
  unfold TxQueue.bridgeOutputFrame
  by_cases long : 1500 < p.length
  · rw [if_pos long]
    exact refused
  · rw [if_neg long]
    dsimp only
    split
    · exact refused
    · next share =>
      cases found : txFindFreeSlot q with
      | none => exact refused
      | some slot =>
        have inside : slot < nsTxMax := List.mem_range.mp (List.mem_of_find?_eq_some found)
        have unheld : q.refs slot = 0 := (sound.free slot).mp (List.find?_some found)
        dsimp only
        split
        · obtain ⟨sound', kept, frames⟩ :=
            sound.rewrite unheld (i.outerHdr ++ p.take i.copied)
          exact ⟨sound', kept, fun _ => frames, nofun⟩
        · obtain ⟨sound', kept, frames⟩ := sound.rewrite unheld (framed i p)
          have room := sound.roomy inside unheld
          obtain ⟨-, pkt, entries⟩ := txEnqueue_of
            (q := { q with pkt := update q.pkt slot (framed i p) }) room slot
            (bridgeOutputParse i.conns i.hint p).1
          refine ⟨txEnqueue_sound sound' room inside unheld _, fun x held => ?_, nofun,
            fun _ => ⟨?_, fun c parsed => ?_⟩⟩
          · rw [pkt]
            exact kept x held
          · rw [TxQueue.frames, entries, itemBuf_congr pkt, List.map_append, List.map_singleton]
            refine congrArg₂ (· ++ ·) frames ?_
            show [update q.pkt slot (framed i p) slot] = _
            rw [update_self]
          · rw [parsed] at share
            simpa using share

structure TxPlane.Sound (s : TxPlane) : Prop where
  queue : s.queue.Sound
  safe : Safe s.sock.gso.mss

theorem socksReauthSwap_safe (s : SocksSock) (nonblock : Bool) :
    Safe (socksReauthSwap s nonblock).gso.mss := by
  cases nonblock <;> exact .inl rfl

theorem txStep_sound {s : TxPlane} (sound : s.Sound) (e : TxEvent) : (txStep s e).1.Sound := by
  cases e with
  | output i p => exact ⟨(bridgeOutputFrame_spec sound.queue i p).1, sound.safe⟩
  | drain inputs =>
    obtain ⟨queue, -, safe, -⟩ := sockDrainTx_spec sound.queue rfl sound.safe inputs
    exact ⟨queue, safe⟩
  | reauth r =>
    cases r with
    | kept nonblock =>
      exact ⟨(popLoop_spec _ s.queue sound.queue (Nat.le_refl _)).1, socksReauthSwap_safe ..⟩
    | rebuilt nonblock => exact ⟨TxQueue.init_sound, socksReauthSwap_safe ..⟩
    | rebuildFailed => exact ⟨TxQueue.init_sound, sound.safe⟩

theorem txRun_sound (events : List TxEvent) :
    (Trace.final txStep TxPlane.start events).Sound :=
  Trace.final_invariant txStep TxPlane.Sound (fun _ e sound => txStep_sound sound e) TxPlane.start
    events ⟨TxQueue.init_sound, .inl rfl⟩

/-- A re-auth does not go back to the old socket. -/
def TxEvent.Swaps : TxEvent → Prop
  | .reauth (.kept nonblock) => nonblock = true
  | .reauth (.rebuilt nonblock) => nonblock = true
  | _ => True

theorem txStep_same {s : TxPlane} (sound : s.Sound) (e : TxEvent) (swaps : e.Swaps)
    (same : s.sock.seg = s.sock.gso.mss) :
    (txStep s e).1.sock.seg = (txStep s e).1.sock.gso.mss := by
  cases e with
  | output i p => exact same
  | drain inputs => exact (sockDrainTx_spec sound.queue same sound.safe inputs).2.1
  | reauth r =>
    cases r with
    | kept nonblock =>
      obtain rfl : nonblock = true := swaps
      rfl
    | rebuilt nonblock =>
      obtain rfl : nonblock = true := swaps
      rfl
    | rebuildFailed => exact same

theorem txRun_same (events : List TxEvent) (swaps : ∀ e ∈ events, e.Swaps) :
    (Trace.final txStep TxPlane.start events).sock.seg =
      (Trace.final txStep TxPlane.start events).sock.gso.mss := by
  have both := Trace.final_mem_invariant txStep TxEvent.Swaps
    (fun s => s.Sound ∧ s.sock.seg = s.sock.gso.mss)
    (fun s e swaps held => ⟨txStep_sound held.1 e, txStep_same held.1 e swaps held.2⟩)
    TxPlane.start events swaps ⟨⟨TxQueue.init_sound, .inl rfl⟩, rfl⟩
  exact both.2

/-- In every run the counters of the transmit queue say what the queue holds, and a drain takes
the frames it hands over from its front. -/
theorem txRun_queue (events : List TxEvent) :
    let s := Trace.final txStep TxPlane.start events
    let q := s.queue
    q.ring.count ≤ nsTxMax ∧
      (∀ p, q.refs p = q.entries.countP (fun it => it.seg == some p)) ∧
      (∀ p, q.free p = true ↔ q.refs p = 0) ∧
      (∀ c, q.used c = q.entries.countP fun it => it.conn == some c) ∧
      (∀ i p, let out := TxQueue.bridgeOutputFrame q i p
        (∀ x, q.refs x ≠ 0 → out.1.pkt x = q.pkt x) ∧
        out.1.frames = (if out.2 then q.frames ++ [framed i p] else q.frames) ∧
        (out.2 = true → ∀ c, bridgeOutputParse i.conns i.hint p = (some c, true) →
          q.used c < nsTxConnCap)) ∧
      (∀ inputs, ∃ sent,
        (txStep s (.drain inputs)).1.queue.frames = q.frames.drop sent ∧
        (DrainFair inputs q.frames →
          (txStep s (.drain inputs)).2 = q.frames.take sent ∧
          ((∀ e ∈ events, e.Swaps) →
            wire s.sock.seg (sockDrainTx q s.sock.gso inputs).2.2 = q.frames.take sent))) := by
  intro s q
  have sound : s.Sound := txRun_sound events
  refine ⟨sound.queue.room, sound.queue.refs, sound.queue.free, sound.queue.used,
    fun i p => ?_, fun inputs => ?_⟩
  · obtain ⟨-, kept, refused, queued⟩ := bridgeOutputFrame_spec sound.queue i p
    refine ⟨kept, ?_, fun put => (queued put).2⟩
    cases put : (TxQueue.bridgeOutputFrame q i p).2 with
    | false => exact refused put
    | true => exact (queued put).1
  · obtain ⟨-, -, -, sent, left, given⟩ := sockDrainTx_spec sound.queue rfl sound.safe inputs
    refine ⟨sent, left, fun fair => ⟨(given fair).1, fun swaps => ?_⟩⟩
    have same : s.sock.seg = s.sock.gso.mss := txRun_same events swaps
    rw [same]
    exact (given fair).2

def sampleOutput : OutputInput :=
  ⟨⟨.little, true⟩, List.replicate 8 0, [], fun _ => none, fun _ => none, 600⟩

/-- The kernel takes the first segment of a GSO message, and the frame is handed over again. -/
theorem txRun_short_count :
    let packet : List UInt8 := List.replicate 600 1
    let s := Trace.final txStep TxPlane.start
      [.output sampleOutput packet, .output sampleOutput packet]
    s.queue.frames.length = 2 ∧
      (txStep s (.drain [⟨⟨true, true⟩, [.took 608], [.took 2]⟩])).2 =
        s.queue.frames.take 1 ++ s.queue.frames := by
  decide +kernel

end Iwan
