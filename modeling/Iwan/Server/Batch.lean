import Iwan.Server.Downlink
import Iwan.Time

/- The batch of a TUN reader for one sendmmsg (iwan_server.c). -/
namespace Iwan

open Function (update update_of_ne update_self)

def srvDlBatch : Nat := 64
def srvDlSlot : Nat := 1500

/-- A header or payload row of the batch. -/
inductive DlCell where
  | hdr (row : Nat)
  | pl (row : Nat)
deriving DecidableEq, Repr

structure DlIovec where
  base : DlCell
  len : Nat
deriving DecidableEq, Repr

structure DlMsg where
  name : Nat
  iov : Nat
  iovlen : Nat
deriving DecidableEq, Repr

/-- The batch with its iovecs and messages, which point at rows. -/
structure DlBatch where
  hdrs : Nat → List UInt8
  pl : Nat → List UInt8
  peers : Nat → SockaddrIn
  iovs : Nat → DlIovec
  msgs : Nat → DlMsg
  n : Nat
  lastHardErr : UInt64

def DlBatch.cell (b : DlBatch) : DlCell → List UInt8
  | .hdr row => b.hdrs row
  | .pl row => b.pl row

abbrev DlDatagram := SockaddrIn × List UInt8

def DlBatch.datagram (b : DlBatch) (k : Nat) : DlDatagram :=
  let msg := b.msgs k
  (b.peers msg.name,
    (List.range msg.iovlen).flatMap fun j =>
      let vec := b.iovs (msg.iov + j)
      (b.cell vec.base).take vec.len)

/-- It took messages (one more than the number), was interrupted, took none, or failed. -/
inductive MmsgResult where
  | took (more : Nat)
  | interrupted
  | again
  | hard (now : NowMs)

/-- What becomes of a packet. -/
inductive DlEvent where
  | staged (down : Downlink)
  | refused (down : Downlink)
  | sent (datagram : DlDatagram)
  | hardError (lost : List DlDatagram) (logged : Bool)
  | direct (effect : Effect)

def srvDlSend (b : DlBatch) : Nat → List MmsgResult → Nat × List DlEvent × Option NowMs
  | sent, [] => (sent, [], none)
  | sent, result :: rest =>
    if sent < b.n then
      match result with
      | .took more =>
        let r := min (more + 1) (b.n - sent)
        let (sent', events, failed) := srvDlSend b (sent + r) rest
        (sent', (List.range' sent r).map (fun k => .sent (b.datagram k)) ++ events, failed)
      | .interrupted => srvDlSend b sent rest
      | .again => (sent, [], none)
      | .hard now => (sent, [], some now)
    else (sent, [], none)

def moveFront {α : Type} (rows : Nat → α) (start kept : Nat) : Nat → α :=
  fun i => if i < kept then rows (i + start) else rows i

def DlBatch.aim (b : DlBatch) (i : Nat) : DlBatch :=
  { b with
    iovs := update
      (update b.iovs (i * 2) ⟨.hdr i, (b.iovs (i * 2)).len⟩)
      (i * 2 + 1) ⟨.pl i, (b.iovs (i * 2 + 1)).len⟩
    msgs := update b.msgs i { b.msgs i with iov := i * 2, name := i } }

def DlBatch.moved (b : DlBatch) (sent : Nat) : DlBatch :=
  let kept := b.n - sent
  { b with
    hdrs := moveFront b.hdrs sent kept
    pl := moveFront b.pl sent kept
    peers := moveFront b.peers sent kept
    msgs := moveFront b.msgs sent kept
    iovs := moveFront b.iovs (sent * 2) (kept * 2) }

def DlBatch.compact (b : DlBatch) (sent : Nat) : DlBatch :=
  let kept := b.n - sent
  { (List.range kept).foldl DlBatch.aim (b.moved sent) with n := kept }

def srvDlFlush (b : DlBatch) (results : List MmsgResult) : DlBatch × List DlEvent :=
  if b.n = 0 then (b, [])
  else
    match srvDlSend b 0 results with
    | (sent, events, some now) =>
      let logged : Bool := 1000 ≤ now.ms - b.lastHardErr
      let lost := (List.range' sent (b.n - sent)).map b.datagram
      ({ b with n := 0, lastHardErr := if logged then now.ms else b.lastHardErr },
        events ++ [.hardError lost logged])
    | (sent, events, none) =>
      if sent = b.n then ({ b with n := 0 }, events) else (b.compact sent, events)

def DlBatch.stage (b : DlBatch) (down : Downlink) (len : Nat) : DlBatch :=
  let i := b.n
  { b with
    hdrs := update b.hdrs i (down.hdr.take iwanHdrLen)
    pl := update b.pl i (down.payload.take len ++ (b.pl i).drop len)
    peers := update b.peers i down.snap.peer
    iovs := update (update b.iovs (i * 2) ⟨.hdr i, iwanHdrLen⟩)
      (i * 2 + 1) ⟨.pl i, len⟩
    msgs := update b.msgs i ⟨i, i * 2, 2⟩
    n := i + 1 }

/-- A packet, the server's state, and the answers to the flushes. -/
structure TunCall where
  ctx : ServerCtx
  pkt : TunPacket
  last : Bool
  results : List MmsgResult
  lastResults : List MmsgResult

section

variable (machine : Machine)

def srvTunStage (b : DlBatch) (call : TunCall) : DlBatch × List DlEvent :=
  let pkt := call.pkt.bytes
  if pkt.length < 20 then (b, [])
  else if srvDlSlot < pkt.length then
    let (b, events) := srvDlFlush b call.results
    (b, events ++ (handleTunDownlink machine call.ctx pkt).map .direct)
  else
    match tunPrepDownlink machine call.ctx pkt with
    | none => (b, [])
    | some down =>
      if srvDlBatch ≤ b.n then (b, [.refused down])
      else
        let b := b.stage down pkt.length
        if b.n = srvDlBatch then
          let (b, events) := srvDlFlush b call.results
          (b, .staged down :: events)
        else (b, [.staged down])

def srvTunPkt (b : DlBatch) (call : TunCall) : DlBatch × List DlEvent :=
  let (b, events) := srvTunStage machine b call
  if call.last then
    let (b, more) := srvDlFlush b call.lastResults
    (b, events ++ more)
  else (b, events)

end

def srvDlReaderExit (b : DlBatch) : DlBatch := { b with n := 0 }

def Downlink.datagram (down : Downlink) : DlDatagram := (down.snap.peer, down.frame)

/-- Row `k` sends a packet. -/
structure DlBatch.Row (b : DlBatch) (k : Nat) (down : Downlink) : Prop where
  msg : b.msgs k = ⟨k, k * 2, 2⟩
  first : b.iovs (k * 2) = ⟨.hdr k, iwanHdrLen⟩
  second : b.iovs (k * 2 + 1) = ⟨.pl k, down.payload.length⟩
  hdr : (b.hdrs k).take iwanHdrLen = down.hdr
  payload : (b.pl k).take down.payload.length = down.payload
  peer : b.peers k = down.snap.peer

/-- The rows of the batch are the queue. -/
structure DlBatch.Holds (b : DlBatch) (queue : List Downlink) : Prop where
  count : b.n = queue.length
  bound : b.n ≤ srvDlBatch
  row : ∀ k down, queue[k]? = some down → b.Row k down

section

variable {b : DlBatch} {queue : List Downlink}

theorem DlBatch.Row.datagram {k : Nat} {down : Downlink} (row : b.Row k down) :
    b.datagram k = down.datagram := by
  unfold DlBatch.datagram Downlink.datagram Downlink.frame
  rw [row.msg]
  have both : List.range 2 = [0, 1] := rfl
  dsimp only
  rw [row.peer, both, List.flatMap_cons, List.flatMap_cons, List.flatMap_nil, List.append_nil,
    Nat.add_zero, row.first, row.second]
  dsimp only [DlBatch.cell]
  rw [row.hdr, row.payload]

theorem DlBatch.holds_exit (b : DlBatch) : (srvDlReaderExit b).Holds [] :=
  ⟨rfl, Nat.zero_le _, fun _ _ found => nomatch found⟩

theorem DlBatch.Holds.datagrams (holds : b.Holds queue) (start count : Nat)
    (inside : start + count ≤ queue.length) :
    (List.range' start count).map b.datagram =
      ((queue.drop start).take count).map Downlink.datagram := by
  apply List.ext_getElem?
  intro k
  rw [List.getElem?_map, List.getElem?_map, List.getElem?_take, List.getElem?_drop]
  by_cases small : k < count
  · have found : queue[start + k]? = some (queue[start + k]) :=
      List.getElem?_eq_getElem (by omega)
    rw [if_pos small, List.getElem?_range' small, found, Option.map_some, Option.map_some,
      Nat.one_mul, (holds.row _ _ found).datagram]
  · rw [if_neg small, List.getElem?_eq_none (by simpa using small)]
    rfl

theorem DlBatch.Holds.stage (holds : b.Holds queue) {down : Downlink}
    (room : b.n < srvDlBatch) (hdr : down.hdr.length = iwanHdrLen) :
    (b.stage down down.payload.length).Holds (queue ++ [down]) := by
  refine ⟨?_, room, ?_⟩
  · rw [List.length_append, ← holds.count]
    rfl
  · intro k other found
    by_cases here : k = b.n
    · subst here
      rw [List.getElem?_append_right (Nat.le_of_eq holds.count.symm), holds.count, Nat.sub_self]
        at found
      obtain rfl := Option.some.inj found
      refine ⟨?_, ?_, ?_, ?_, ?_, ?_⟩
      · exact update_self ..
      · exact (update_of_ne (Nat.ne_of_lt (Nat.lt_succ_self _)) ..).trans
          (update_self ..)
      · exact update_self ..
      · dsimp only [DlBatch.stage]
        rw [update_self, List.take_take, Nat.min_self, List.take_of_length_le
          (Nat.le_of_eq hdr)]
      · dsimp only [DlBatch.stage]
        rw [update_self, List.take_length, List.take_left]
      · exact update_self ..
    · have before : k < queue.length := by
        have inside := (List.getElem?_eq_some_iff.mp found).1
        rw [List.length_append, List.length_singleton, ← holds.count] at inside
        rw [← holds.count]
        omega
      rw [List.getElem?_append_left before] at found
      have row := holds.row k other found
      rw [← holds.count] at before
      refine ⟨?_, ?_, ?_, ?_, ?_, ?_⟩ <;> dsimp only [DlBatch.stage]
      · rw [update_of_ne here]
        exact row.msg
      · rw [update_of_ne (by omega), update_of_ne (by omega)]
        exact row.first
      · rw [update_of_ne (by omega), update_of_ne (by omega)]
        exact row.second
      · rw [update_of_ne here]
        exact row.hdr
      · rw [update_of_ne here]
        exact row.payload
      · rw [update_of_ne here]
        exact row.peer

/-- The compacted batch points at its own rows again. -/
structure DlBatch.Aimed (b aimed : DlBatch) (kept : Nat) : Prop where
  hdrs : aimed.hdrs = b.hdrs
  pl : aimed.pl = b.pl
  peers : aimed.peers = b.peers
  msg : ∀ k < kept, aimed.msgs k = ⟨k, k * 2, (b.msgs k).iovlen⟩
  first : ∀ k < kept, aimed.iovs (k * 2) = ⟨.hdr k, (b.iovs (k * 2)).len⟩
  second : ∀ k < kept, aimed.iovs (k * 2 + 1) = ⟨.pl k, (b.iovs (k * 2 + 1)).len⟩
  msgs : ∀ k, kept ≤ k → aimed.msgs k = b.msgs k
  iovs : ∀ k, kept * 2 ≤ k → aimed.iovs k = b.iovs k

theorem DlBatch.aimed_range (b : DlBatch) (kept : Nat) :
    b.Aimed ((List.range kept).foldl DlBatch.aim b) kept := by
  induction kept with
  | zero => exact ⟨rfl, rfl, rfl, nofun, nofun, nofun, fun _ _ => rfl, fun _ _ => rfl⟩
  | succ kept ih =>
    rw [List.range_succ, List.foldl_append, List.foldl_cons, List.foldl_nil]
    refine ⟨ih.hdrs, ih.pl, ih.peers, ?_, ?_, ?_, ?_, ?_⟩ <;> dsimp only [DlBatch.aim]
    · intro k below
      by_cases here : k = kept
      · subst here
        rw [update_self, ih.msgs k (Nat.le_refl _)]
      · rw [update_of_ne here]
        exact ih.msg k (by omega)
    · intro k below
      by_cases here : k = kept
      · subst here
        rw [update_of_ne (by omega), update_self, ih.iovs _ (Nat.le_refl _)]
      · rw [update_of_ne (by omega), update_of_ne (by omega)]
        exact ih.first k (by omega)
    · intro k below
      by_cases here : k = kept
      · subst here
        rw [update_self, ih.iovs _ (Nat.le_succ _)]
      · rw [update_of_ne (by omega), update_of_ne (by omega)]
        exact ih.second k (by omega)
    · intro k above
      rw [update_of_ne (by omega)]
      exact ih.msgs k (by omega)
    · intro k above
      rw [update_of_ne (by omega), update_of_ne (by omega)]
      exact ih.iovs k (by omega)

theorem moveFront_of_lt {α : Type} (rows : Nat → α) (start : Nat) {kept k : Nat}
    (below : k < kept) :
    moveFront rows start kept k = rows (k + start) :=
  if_pos below

theorem DlBatch.Holds.compact (holds : b.Holds queue) (sent : Nat) :
    (b.compact sent).Holds (queue.drop sent) := by
  refine ⟨?_, Nat.le_trans (Nat.sub_le _ _) holds.bound, ?_⟩
  · rw [List.length_drop, ← holds.count]
    rfl
  · intro k down found
    have below : k < b.n - sent := by
      have inside := (List.getElem?_eq_some_iff.mp found).1
      rwa [List.length_drop, ← holds.count] at inside
    rw [List.getElem?_drop, Nat.add_comm] at found
    have row := holds.row _ _ found
    have double : k * 2 + sent * 2 = (k + sent) * 2 := by omega
    have double' : k * 2 + 1 + sent * 2 = (k + sent) * 2 + 1 := by omega
    have aimed := (b.moved sent).aimed_range (b.n - sent)
    dsimp only [DlBatch.moved] at aimed
    refine ⟨?_, ?_, ?_, ?_, ?_, ?_⟩ <;> dsimp only [DlBatch.compact, DlBatch.moved]
    · rw [aimed.msg k below]
      dsimp only
      rw [moveFront_of_lt _ _ below, row.msg]
    · rw [aimed.first k below]
      dsimp only
      rw [moveFront_of_lt _ _ (by omega), double, row.first]
    · rw [aimed.second k below]
      dsimp only
      rw [moveFront_of_lt _ _ (by omega), double', row.second]
    · rw [aimed.hdrs]
      dsimp only
      rw [moveFront_of_lt _ _ below]
      exact row.hdr
    · rw [aimed.pl]
      dsimp only
      rw [moveFront_of_lt _ _ below]
      exact row.payload
    · rw [aimed.peers]
      dsimp only
      rw [moveFront_of_lt _ _ below]
      exact row.peer

end

def DlEvent.staged? : DlEvent → Option Downlink
  | .staged down => some down
  | _ => none

def DlEvent.sent? : DlEvent → Option DlDatagram
  | .sent datagram => some datagram
  | _ => none

def DlEvent.lost : DlEvent → List DlDatagram
  | .hardError lost _ => lost
  | _ => []

def DlMoves (before : List Downlink) (events : List DlEvent) (after : List Downlink) : Prop :=
  ∃ settled : List (Downlink × Bool),
    before ++ events.filterMap DlEvent.staged? = settled.map Prod.fst ++ after ∧
      events.filterMap DlEvent.sent? =
        (settled.filter Prod.snd).map (fun entry => entry.1.datagram) ∧
      events.flatMap DlEvent.lost =
        (settled.filter fun entry => !entry.2).map fun entry => entry.1.datagram

theorem DlMoves.refl (queue : List Downlink) : DlMoves queue [] queue :=
  ⟨[], List.append_nil queue, rfl, rfl⟩

theorem DlMoves.trans {before between after : List Downlink} {events more : List DlEvent}
    (moves : DlMoves before events between) (moves' : DlMoves between more after) :
    DlMoves before (events ++ more) after := by
  obtain ⟨settled, queue, sent, lost⟩ := moves
  obtain ⟨settled', queue', sent', lost'⟩ := moves'
  refine ⟨settled ++ settled', ?_, ?_, ?_⟩
  · rw [List.filterMap_append, ← List.append_assoc, queue, List.append_assoc, queue',
      List.map_append, List.append_assoc]
  · rw [List.filterMap_append, sent, sent', List.filter_append, List.map_append]
  · rw [List.flatMap_append, lost, lost', List.filter_append, List.map_append]

theorem DlMoves.stage (queue : List Downlink) (down : Downlink) :
    DlMoves queue [.staged down] (queue ++ [down]) :=
  ⟨[], rfl, rfl, rfl⟩

theorem DlMoves.sent (front rest : List Downlink) :
    DlMoves (front ++ rest) (front.map fun down => .sent down.datagram) rest := by
  induction front with
  | nil => exact DlMoves.refl rest
  | cons down front ih =>
    have first : DlMoves (down :: (front ++ rest)) [.sent down.datagram] (front ++ rest) :=
      ⟨[(down, true)], List.append_nil _, rfl, rfl⟩
    exact first.trans ih

theorem DlMoves.lost (queue : List Downlink) (logged : Bool) :
    DlMoves queue [.hardError (queue.map Downlink.datagram) logged] [] := by
  have sent : (queue.map fun down => (down, false)).filter Prod.snd = [] :=
    List.filter_eq_nil_iff.mpr (by simp)
  have lost : ((queue.map fun down => (down, false)).filter fun entry => !entry.2) =
      queue.map fun down => (down, false) :=
    List.filter_eq_self.mpr (by simp)
  refine ⟨queue.map fun down => (down, false), ?_, ?_, ?_⟩
  · rw [List.map_map]
    exact congrArg (· ++ []) (List.map_id queue).symm
  · rw [sent]
    rfl
  · rw [lost, List.map_map]
    exact List.append_nil _

section

variable {b : DlBatch} {queue : List Downlink}

theorem srvDlSend_sent (holds : b.Holds queue) (sent : Nat) (results : List MmsgResult)
    (inside : sent ≤ queue.length) :
    sent ≤ (srvDlSend b sent results).1 ∧ (srvDlSend b sent results).1 ≤ queue.length ∧
      DlMoves (queue.drop sent) (srvDlSend b sent results).2.1
        (queue.drop (srvDlSend b sent results).1) := by
  induction results generalizing sent with
  | nil => exact ⟨Nat.le_refl _, inside, DlMoves.refl _⟩
  | cons result rest ih =>
    unfold srvDlSend
    split
    · cases result with
      | took more =>
        obtain ⟨lower, upper, moves⟩ :=
          ih (sent + min (more + 1) (b.n - sent)) (by rw [← holds.count]; omega)
        refine ⟨Nat.le_trans (Nat.le_add_right _ _) lower, upper, ?_⟩
        have handed := holds.datagrams sent (min (more + 1) (b.n - sent))
          (by rw [← holds.count]; omega)
        have left := DlMoves.sent ((queue.drop sent).take (min (more + 1) (b.n - sent)))
          ((queue.drop sent).drop (min (more + 1) (b.n - sent)))
        rw [List.take_append_drop, List.drop_drop] at left
        have events : (List.range' sent (min (more + 1) (b.n - sent))).map
            (fun k => DlEvent.sent (b.datagram k)) =
            ((queue.drop sent).take (min (more + 1) (b.n - sent))).map
              fun down => .sent down.datagram := by
          have mapped := congrArg (List.map DlEvent.sent) handed
          rwa [List.map_map, List.map_map] at mapped
        rw [← events] at left
        exact left.trans moves
      | interrupted => exact ih sent inside
      | _ => exact ⟨Nat.le_refl _, inside, DlMoves.refl _⟩
    · exact ⟨Nat.le_refl _, inside, DlMoves.refl _⟩

theorem srvDlFlush_moves (holds : b.Holds queue) (results : List MmsgResult) :
    ∃ after, (srvDlFlush b results).1.Holds after ∧
      DlMoves queue (srvDlFlush b results).2 after := by
  unfold srvDlFlush
  split
  · exact ⟨queue, holds, DlMoves.refl queue⟩
  · obtain ⟨_, inside, moves⟩ := srvDlSend_sent holds 0 results (Nat.zero_le _)
    have left := holds.datagrams
    revert inside moves
    rcases srvDlSend b 0 results with ⟨sent, events, _ | now⟩
    · intro inside moves
      dsimp only at inside moves ⊢
      split
      · rename_i all
        refine ⟨[], ⟨rfl, Nat.zero_le _, fun _ _ found => nomatch found⟩, ?_⟩
        rwa [all, holds.count, List.drop_length] at moves
      · exact ⟨queue.drop sent, holds.compact sent, moves⟩
    · intro inside moves
      dsimp only at inside moves ⊢
      refine ⟨[], ⟨rfl, Nat.zero_le _, fun _ _ found => nomatch found⟩, moves.trans ?_⟩
      have rest : ((queue.drop sent).take (b.n - sent)) = queue.drop sent :=
        List.take_of_length_le (by rw [List.length_drop, holds.count])
      rw [left sent _ (by rw [holds.count]; omega), rest]
      exact DlMoves.lost _ _

end

section

variable (machine : Machine) {b : DlBatch} {queue : List Downlink}

theorem tunPrepDownlink_frame {ctx : ServerCtx} {pkt : List UInt8} {down : Downlink}
    (prepared : tunPrepDownlink machine ctx pkt = some down) :
    ∃ i, downlinkOwner ctx pkt = some i ∧ down.snap = (ctx.sess i).snap ∧
      down.hdr.length = iwanHdrLen ∧ down.payload.length = pkt.length := by
  unfold tunPrepDownlink at prepared
  split at prepared
  · cases prepared
  · cases owner : downlinkOwner ctx pkt with
    | none =>
      rw [owner] at prepared
      cases prepared
    | some i =>
      rw [owner] at prepared
      obtain rfl := Option.some.inj prepared
      refine ⟨i, rfl, rfl, rfl, ?_⟩
      dsimp only
      split
      · exact xorCrypt_length machine pkt _
      · rfl

def TunCall.prepared (call : TunCall) : Option Downlink :=
  tunPrepDownlink machine call.ctx call.pkt.bytes

theorem direct_moves (queue : List Downlink) (effects : List Effect) :
    DlMoves queue (effects.map .direct) queue := by
  induction effects with
  | nil => exact DlMoves.refl queue
  | cons effect rest ih =>
    have first : DlMoves queue [.direct effect] queue := ⟨[], List.append_nil _, rfl, rfl⟩
    exact first.trans ih

theorem srvTunStage_moves (holds : b.Holds queue) (call : TunCall) :
    ∃ after, (srvTunStage machine b call).1.Holds after ∧
      DlMoves queue (srvTunStage machine b call).2 after := by
  have flushed := srvDlFlush_moves holds call.results
  unfold srvTunStage
  dsimp only
  split
  · exact ⟨queue, holds, DlMoves.refl queue⟩
  · split
    · obtain ⟨after, holds', moves⟩ := flushed
      exact ⟨after, holds', moves.trans (direct_moves after _)⟩
    · cases prepared : tunPrepDownlink machine call.ctx call.pkt.bytes with
      | none => exact ⟨queue, holds, DlMoves.refl queue⟩
      | some down =>
        dsimp only
        split
        · exact ⟨queue, holds, [], List.append_nil _, rfl, rfl⟩
        · rename_i room
          obtain ⟨_, _, _, hdr, length⟩ := tunPrepDownlink_frame machine prepared
          have staged := holds.stage (Nat.lt_of_not_le room) hdr
          rw [length] at staged
          split
          · obtain ⟨after, holds', moves⟩ := srvDlFlush_moves staged call.results
            exact ⟨after, holds', (DlMoves.stage queue down).trans moves⟩
          · exact ⟨queue ++ [down], staged, DlMoves.stage queue down⟩

theorem srvTunPkt_moves (holds : b.Holds queue) (call : TunCall) :
    ∃ after, (srvTunPkt machine b call).1.Holds after ∧
      DlMoves queue (srvTunPkt machine b call).2 after := by
  obtain ⟨between, holds', moves⟩ := srvTunStage_moves machine holds call
  unfold srvTunPkt
  dsimp only
  split
  · obtain ⟨after, holds'', moves'⟩ := srvDlFlush_moves holds' call.lastResults
    exact ⟨after, holds'', moves.trans moves'⟩
  · exact ⟨between, holds', moves⟩

theorem srvTunRun_moves (holds : b.Holds queue) (calls : List TunCall) :
    ∃ after, (Trace.final (srvTunPkt machine) b calls).Holds after ∧
      DlMoves queue (Trace.emitted (srvTunPkt machine) b calls) after := by
  induction calls generalizing b queue with
  | nil => exact ⟨queue, holds, DlMoves.refl queue⟩
  | cons call rest ih =>
    obtain ⟨between, holds', moves⟩ := srvTunPkt_moves machine holds call
    obtain ⟨after, holds'', moves'⟩ := ih holds'
    exact ⟨after, holds'', moves.trans moves'⟩

def DlEvent.OfFlush : DlEvent → Prop
  | .sent _ => True
  | .hardError _ _ => True
  | _ => False

theorem srvDlSend_ofFlush (b : DlBatch) (sent : Nat) (results : List MmsgResult) :
    ∀ event ∈ (srvDlSend b sent results).2.1, event.OfFlush := by
  induction results generalizing sent with
  | nil => exact fun event member => nomatch member
  | cons result rest ih =>
    unfold srvDlSend
    split
    · cases result with
      | took more =>
        intro event member
        rcases List.mem_append.mp member with here | later
        · obtain ⟨k, _, rfl⟩ := List.mem_map.mp here
          trivial
        · exact ih _ event later
      | interrupted => exact ih sent
      | _ => exact fun event member => nomatch member
    · exact fun event member => nomatch member

theorem srvDlFlush_ofFlush (b : DlBatch) (results : List MmsgResult) :
    ∀ event ∈ (srvDlFlush b results).2, event.OfFlush := by
  have sends := srvDlSend_ofFlush b 0 results
  unfold srvDlFlush
  split
  · exact fun event member => nomatch member
  · revert sends
    rcases srvDlSend b 0 results with ⟨sent, events, _ | now⟩
    · intro sends
      dsimp only
      split <;> exact sends
    · intro sends event member
      rcases List.mem_append.mp member with here | last
      · exact sends event here
      · rw [List.mem_singleton.mp last]
        trivial

theorem ofFlush_staged {events : List DlEvent} (flush : ∀ event ∈ events, event.OfFlush) :
    events.filterMap DlEvent.staged? = [] := by
  rw [List.filterMap_eq_nil_iff]
  intro event member
  have kind := flush event member
  cases event with
  | staged _ | refused _ | direct _ => cases kind
  | sent _ | hardError _ _ => rfl

theorem ofFlush_refused {events : List DlEvent} (flush : ∀ event ∈ events, event.OfFlush)
    (down : Downlink) : .refused down ∉ events :=
  fun member => flush _ member

theorem srvTunStage_own (b : DlBatch) (call : TunCall) :
    ((srvTunStage machine b call).2.filterMap DlEvent.staged?).Sublist
        (call.prepared machine).toList ∧
      ∀ down, .refused down ∈ (srvTunStage machine b call).2 → srvDlBatch ≤ b.n := by
  unfold srvTunStage TunCall.prepared
  dsimp only
  split
  · exact ⟨List.nil_sublist _, fun _ member => nomatch member⟩
  · split
    · have flush := srvDlFlush_ofFlush b call.results
      refine ⟨?_, ?_⟩
      · rw [List.filterMap_append, ofFlush_staged flush, List.filterMap_map]
        have none_staged (effects : List Effect) :
            effects.filterMap (DlEvent.staged? ∘ DlEvent.direct) = [] :=
          List.filterMap_eq_nil_iff.mpr fun _ _ => rfl
        rw [none_staged]
        exact List.nil_sublist _
      · intro down member
        rcases List.mem_append.mp member with here | direct
        · exact absurd here (ofFlush_refused flush down)
        · obtain ⟨_, _, same⟩ := List.mem_map.mp direct
          cases same
    · cases tunPrepDownlink machine call.ctx call.pkt.bytes with
      | none => exact ⟨List.Sublist.refl _, fun _ member => nomatch member⟩
      | some down =>
        dsimp only
        split
        · rename_i full
          exact ⟨List.nil_sublist _, fun _ _ => full⟩
        · split
          · have flush := srvDlFlush_ofFlush (b.stage down call.pkt.bytes.length) call.results
            refine ⟨?_, ?_⟩
            · rw [List.filterMap_cons, ofFlush_staged flush]
              exact List.Sublist.refl _
            · intro other member
              rcases List.mem_cons.mp member with same | later
              · cases same
              · exact absurd later (ofFlush_refused flush other)
          · refine ⟨List.Sublist.refl _, fun other member => ?_⟩
            cases List.mem_singleton.mp member

theorem srvTunPkt_own (b : DlBatch) (call : TunCall) :
    ((srvTunPkt machine b call).2.filterMap DlEvent.staged?).Sublist
        (call.prepared machine).toList ∧
      ∀ down, .refused down ∈ (srvTunPkt machine b call).2 → srvDlBatch ≤ b.n := by
  obtain ⟨staged, refused⟩ := srvTunStage_own machine b call
  unfold srvTunPkt
  dsimp only
  split
  · have flush := srvDlFlush_ofFlush (srvTunStage machine b call).1 call.lastResults
    refine ⟨?_, ?_⟩
    · rw [List.filterMap_append, ofFlush_staged flush, List.append_nil]
      exact staged
    · intro down member
      rcases List.mem_append.mp member with here | later
      · exact refused down here
      · exact absurd later (ofFlush_refused flush down)
  · exact ⟨staged, refused⟩

/-- A prepared packet is staged, sent on its own if it is too large for a slot, or finds the batch
full. -/
theorem srvTunStage_prepared (b : DlBatch) {call : TunCall} {down : Downlink}
    (prepared : call.prepared machine = some down) :
    .staged down ∈ (srvTunStage machine b call).2 ∨
      srvDlSlot < call.pkt.bytes.length ∧
        .direct (.udpSend down.snap.peer down.frame) ∈ (srvTunStage machine b call).2 ∨
      srvDlBatch ≤ b.n := by
  have long : ¬ call.pkt.bytes.length < 20 := by
    intro short
    rw [TunCall.prepared, tunPrepDownlink, if_pos (.inl short)] at prepared
    cases prepared
  rw [TunCall.prepared] at prepared
  unfold srvTunStage
  dsimp only
  rw [if_neg long, prepared]
  split
  · rename_i large
    refine .inr (.inl ⟨large, List.mem_append_right _ ?_⟩)
    rw [handleTunDownlink, prepared]
    exact List.mem_singleton_self _
  · dsimp only
    split
    · rename_i full
      exact .inr (.inr full)
    · left
      split <;> exact List.mem_cons_self

theorem srvTunPkt_stage_subset (b : DlBatch) (call : TunCall) {event : DlEvent}
    (member : event ∈ (srvTunStage machine b call).2) : event ∈ (srvTunPkt machine b call).2 := by
  unfold srvTunPkt
  dsimp only
  split
  · exact List.mem_append_left _ member
  · exact member

theorem srvTunRun_staged (b : DlBatch) (calls : List TunCall) :
    ((Trace.emitted (srvTunPkt machine) b calls).filterMap DlEvent.staged?).Sublist
      (calls.filterMap (TunCall.prepared machine)) := by
  induction calls generalizing b with
  | nil => exact List.Sublist.refl _
  | cons call rest ih =>
    have own := (srvTunPkt_own machine b call).1
    have later := ih (srvTunPkt machine b call).1
    rw [Trace.emitted_cons, List.filterMap_append, List.filterMap_cons]
    cases prepared : call.prepared machine with
    | none =>
      rw [prepared] at own
      exact List.Sublist.append own later
    | some down =>
      rw [prepared] at own
      exact List.Sublist.append own later

end

end Iwan
