import Iwan.Lib.Offload

/- The senders on a socket with UDP_SEGMENT (proxy.c, socks.c, udp_send.c), their calls recorded
with the kernel's answers. -/
namespace Iwan

open Offload

abbrev UdpCall := Call UInt8

def iwanUdpGsoUnit : Nat := 65507

def iwanGsoUnitSafe : Nat := 4096

def iwanGsoMssMin : Nat := 512

def iwanGsoHyst : Nat := 8

inductive GsoOk where
  | untried
  | failed
  | usable
deriving DecidableEq, Repr

/-- The pump's cache of UDP_SEGMENT, with its hysteresis. -/
structure PumpGso where
  ok : GsoOk
  mss : Nat
  pending : Nat
  streak : Nat
deriving DecidableEq, Repr

/-- What arming meets. -/
structure GsoInput where
  due : Bool
  set : Bool
deriving DecidableEq, Repr

/-- How a send ends. -/
inductive SendResult where
  | took (n : Nat)
  | interrupted
  | again (budget : Bool)
  | refused
  | broken
deriving DecidableEq, Repr

inductive TxResult where
  | done
  | fallback
  | fatal
deriving DecidableEq, Repr

def udpGsoClear (g : PumpGso) : PumpGso × List UdpCall :=
  if g.mss ≠ 0 then ({ g with mss := 0 }, [.segment 0 true]) else (g, [])

def gsoStreak (g : PumpGso) (mss : Nat) : Nat := if g.pending = mss then g.streak + 1 else 1

def udpGsoPrepare (g : PumpGso) (mss : Nat) (i : GsoInput) : PumpGso × List UdpCall × Bool :=
  match g.ok with
  | .untried =>
    if i.set then (⟨.usable, mss, mss, 0⟩, [.segment mss true], true)
    else ({ g with ok := .failed, mss := 0 }, [.segment mss false], false)
  | .failed =>
    if !i.due then (g, [], false)
    else if i.set then (⟨.usable, mss, mss, 0⟩, [.segment mss true], true)
    else (g, [.segment mss false], false)
  | .usable =>
    if g.mss ≠ mss then
      if g.mss = 0 ∨ iwanGsoHyst ≤ gsoStreak g mss then
        if i.set then (⟨.usable, mss, mss, 0⟩, [.segment mss true], true)
        else (⟨.failed, 0, mss, gsoStreak g mss⟩, [.segment mss false], false)
      else ({ g with pending := mss, streak := gsoStreak g mss }, [], false)
    else ({ g with pending := mss, streak := 0 }, [], true)

def skipSent : List (List UInt8) → Nat → List (List UInt8) × Nat
  | [], skip => ([], skip)
  | frame :: rest, skip =>
    if frame.length ≤ skip then skipSent rest (skip - frame.length) else (frame :: rest, skip)

def sendGsoLoop (frames : List (List UInt8)) :
    List SendResult → List (List UInt8) → List UdpCall × TxResult
  | [], _ => ([], .done)
  | .took r :: rest, left =>
    if r = frames.flatten.length then ([.message frames (some r)], .done)
    else
      let after := skipSent left r
      if after.1 = [] ∨ 0 < after.2 then ([.message frames (some r)], .done)
      else
        let out := sendGsoLoop frames rest after.1
        (.message frames (some r) :: out.1, out.2)
  | .interrupted :: rest, left =>
    let out := sendGsoLoop frames rest left
    (.message frames none :: out.1, out.2)
  | .again budget :: rest, left =>
    if budget then
      let out := sendGsoLoop frames rest left
      (.message frames none :: out.1, out.2)
    else ([.message frames none], .done)
  | .refused :: _, _ => ([.message frames none], .fallback)
  | .broken :: _, _ => ([.message frames none], .fallback)

def sendGso (g : PumpGso) (frames : List (List UInt8)) (mss : Nat) (i : GsoInput)
    (results : List SendResult) : PumpGso × List UdpCall × TxResult :=
  let (g, arm, ready) := udpGsoPrepare g mss i
  if !ready then (g, arm, .fallback)
  else
    let (calls, result) := sendGsoLoop frames results frames
    if result = .fallback then
      let (g, clear) := udpGsoClear g
      ({ g with ok := .failed }, arm ++ calls ++ clear, .fallback)
    else (g, arm ++ calls, result)

def sendBatchLoop : List SendResult → List (List UInt8) → List UdpCall × TxResult
  | _, [] => ([], .done)
  | [], _ :: _ => ([], .done)
  | result :: rest, frame :: frames =>
    let left := frame :: frames
    match result with
    | .took n =>
      if n = 0 then ([.messages left 0], .done)
      else
        let out := sendBatchLoop rest (left.drop n)
        (.messages left n :: out.1, out.2)
    | .interrupted =>
      let out := sendBatchLoop rest left
      (.messages left 0 :: out.1, out.2)
    | .again budget =>
      if budget then
        let out := sendBatchLoop rest left
        (.messages left 0 :: out.1, out.2)
      else ([.messages left 0], .done)
    | .refused =>
      -- the datagram that was refused is skipped
      let out := sendBatchLoop rest frames
      (.messages left 0 :: out.1, out.2)
    | .broken => ([.messages left 0], .fatal)

def sendBatch (g : PumpGso) (frames : List (List UInt8)) (results : List SendResult) :
    PumpGso × List UdpCall × TxResult :=
  let (g, clear) := udpGsoClear g
  let (calls, result) := sendBatchLoop results frames
  (g, clear ++ calls, result)

def useGso (frames : List (List UInt8)) (mss : Nat) : Bool :=
  2 ≤ frames.length && frames.all (·.length == mss) && iwanGsoMssMin ≤ mss &&
    frames.length * mss ≤ iwanUdpGsoUnit && frames.length * mss ≤ iwanGsoUnitSafe

def firstLength (frames : List (List UInt8)) : Nat := (frames.headD []).length

/-- What the calls of a batch meet. -/
structure BatchInput where
  arm : GsoInput
  gso : List SendResult
  each : List SendResult
deriving DecidableEq, Repr

/-- pump_tx_send: one GSO message for a uniform batch, or message by message. -/
def pumpTxSend (g : PumpGso) (frames : List (List UInt8)) (i : BatchInput) :
    PumpGso × List UdpCall :=
  if frames = [] then (g, [])
  else if useGso frames (firstLength frames) then
    let (g, calls, result) := sendGso g frames (firstLength frames) i.arm i.gso
    if result = .fallback then
      let (g, more, _) := sendBatch g frames i.each
      (g, calls ++ more)
    else (g, calls)
  else
    let (g, calls, _) := sendBatch g frames i.each
    (g, calls)

def sendCtrl (g : PumpGso) (frame : List UInt8) (took : Option Nat) (rearm : Bool) :
    PumpGso × List UdpCall :=
  if g.mss ≠ 0 then
    ({ g with mss := if rearm then g.mss else 0 },
      [.segment 0 true, .message [frame] took, .segment g.mss rearm])
  else (g, [.message [frame] took])

inductive PumpSendEvent where
  | batch (frames : List (List UInt8)) (i : BatchInput)
  | ctrl (frame : Vector UInt8 24) (took : Option Nat) (rearm : Bool)

def PumpSendEvent.frames : PumpSendEvent → List (List UInt8)
  | .batch frames _ => frames
  | .ctrl frame _ _ => [frame.toList]

def PumpSendEvent.run (g : PumpGso) : PumpSendEvent → PumpGso × List UdpCall
  | .batch frames i => pumpTxSend g frames i
  | .ctrl frame took rearm => sendCtrl g frame.toList took rearm

/-- The cache and the kernel's value. -/
structure PumpSock where
  gso : PumpGso
  seg : Nat
deriving DecidableEq, Repr

def PumpSock.start : PumpSock := ⟨⟨.untried, 0, 0, 0⟩, 0⟩

def pumpStep (s : PumpSock) (e : PumpSendEvent) : PumpSock × List (List UInt8) :=
  (⟨(e.run s.gso).1, size s.seg (e.run s.gso).2⟩, wire s.seg (e.run s.gso).2)

/-- The SOCKS plane's cache of UDP_SEGMENT. -/
structure SocksGso where
  ok : GsoOk
  mss : Nat
deriving DecidableEq, Repr

def socksArm (c : SocksGso) (mss : Nat) (i : GsoInput) : SocksGso × List UdpCall :=
  match c.ok with
  | .untried =>
    if i.set then (⟨.usable, mss⟩, [.segment mss true])
    else ({ c with ok := .failed }, [.segment mss false])
  | .usable =>
    if c.mss ≠ mss then
      if i.set then (⟨.usable, mss⟩, [.segment mss true])
      else ({ c with ok := .failed }, [.segment mss false])
    else (c, [])
  | .failed =>
    if !i.due then (c, [])
    else if i.set then (⟨.usable, mss⟩, [.segment mss true])
    else (c, [.segment mss false])

/-- How a GSO message ends. -/
inductive GsoEnd where
  | sent
  | stalled
  | hard
deriving DecidableEq, Repr

def socksGsoLoop (frames : List (List UInt8)) : List SendResult → List UdpCall × GsoEnd
  | [] => ([], .stalled)
  | .took r :: _ =>
    ([.message frames (some r)], if r = frames.flatten.length then .sent else .hard)
  | .interrupted :: rest =>
    let out := socksGsoLoop frames rest
    (.message frames none :: out.1, out.2)
  | .again budget :: rest =>
    if budget then
      let out := socksGsoLoop frames rest
      (.message frames none :: out.1, out.2)
    else ([.message frames none], .stalled)
  | .refused :: _ => ([.message frames none], .hard)
  | .broken :: _ => ([.message frames none], .hard)

def socksEachLoop : List SendResult → List (List UInt8) → List UdpCall × Nat
  | _, [] => ([], 0)
  | [], _ :: _ => ([], 0)
  | result :: rest, frame :: frames =>
    let left := frame :: frames
    match result with
    | .took n =>
      if n = 0 then ([.messages left 0], 0)
      else
        let out := socksEachLoop rest (left.drop n)
        (.messages left n :: out.1, min n left.length + out.2)
    | .interrupted =>
      let out := socksEachLoop rest left
      (.messages left 0 :: out.1, out.2)
    | .again budget =>
      if budget then
        let out := socksEachLoop rest left
        (.messages left 0 :: out.1, out.2)
      else ([.messages left 0], 0)
    | .refused => ([.messages left 0], 0)
    | .broken => ([.messages left 0], 0)

def socksPerMsg (c : SocksGso) (frames : List (List UInt8)) (results : List SendResult) :
    SocksGso × List UdpCall × Nat :=
  let out := socksEachLoop results frames
  if c.mss ≠ 0 then ({ c with mss := 0 }, .segment 0 true :: out.1, out.2)
  else (c, out.1, out.2)

/-- socks_send_batch2 on frames of one length. -/
def socksSendBatch2 (c : SocksGso) (frames : List (List UInt8)) (i : BatchInput) :
    SocksGso × List UdpCall × Nat :=
  let mss := firstLength frames
  let total := frames.flatten.length
  if 2 ≤ frames.length ∧ iwanGsoMssMin ≤ mss ∧ total ≤ iwanUdpGsoUnit ∧ total ≤ iwanGsoUnitSafe then
    let (c, arm) := socksArm c mss i.arm
    if c.ok = .usable then
      let (calls, result) := socksGsoLoop frames i.gso
      match result with
      | .sent => (c, arm ++ calls, frames.length)
      | .stalled => (c, arm ++ calls, 0)
      | .hard =>
        let (c, more, sent) := socksPerMsg ⟨.failed, 0⟩ frames i.each
        (c, arm ++ calls ++ .segment 0 true :: more, sent)
    else
      let (c, more, sent) := socksPerMsg c frames i.each
      (c, arm ++ more, sent)
  else socksPerMsg c frames i.each

def socksRun (l0 : Nat) : Nat → List (List UInt8) → Nat
  | _, [] => 0
  | total, frame :: rest =>
    if frame.length = l0 ∧ total + l0 ≤ iwanUdpGsoUnit ∧ total + l0 ≤ iwanGsoUnitSafe then
      socksRun l0 (total + l0) rest + 1
    else 0

def socksRunOf (frames : List (List UInt8)) : List (List UInt8) :=
  frames.take (socksRun (firstLength frames) (firstLength frames) frames.tail + 1)

def socksSendRuns : List BatchInput → SocksGso → List (List UInt8) →
    SocksGso × List UdpCall × Nat
  | [], c, _ => (c, [], 0)
  | i :: rest, c, frames =>
    if frames = [] then (c, [], 0)
    else
      let run := socksRunOf frames
      let (c, calls, sent) := socksSendBatch2 c run i
      if sent < run.length then (c, calls, sent)
      else
        let (c, more, sent') := socksSendRuns rest c (frames.drop run.length)
        (c, calls ++ more, run.length + sent')

inductive SocksEvent where
  | drain (frames : List (List UInt8)) (inputs : List BatchInput)
  | keepalive (frame : Vector UInt8 24) (took : Option Nat)

def SocksEvent.frames : SocksEvent → List (List UInt8)
  | .drain frames _ => frames
  | .keepalive frame _ => [frame.toList]

def SocksEvent.run (c : SocksGso) : SocksEvent → SocksGso × List UdpCall
  | .drain frames inputs => ((socksSendRuns inputs c frames).1, (socksSendRuns inputs c frames).2.1)
  | .keepalive frame took => (c, [.message [frame.toList] took])

/-- The cache and the kernel's value. -/
structure SocksSock where
  gso : SocksGso
  seg : Nat
deriving DecidableEq, Repr

def SocksSock.start : SocksSock := ⟨⟨.untried, 0⟩, 0⟩

abbrev DnsSend := List UInt8 × Option Nat

def socksSockStep (s : SocksSock) (e : SocksEvent × List (List DnsSend)) :
    SocksSock × List (Bool × List UInt8) :=
  (⟨(e.1.run s.gso).1, sharedSize s.seg (interleave e.2 (e.1.run s.gso).2)⟩,
    sharedWire s.seg (interleave e.2 (e.1.run s.gso).2))

def Safe (m : Nat) : Prop := m = 0 ∨ iwanGsoMssMin ≤ m

/-- The cache is the kernel's value, armed only while the option is usable. -/
structure PumpSock.Aligned (s : PumpSock) : Prop where
  same : s.seg = s.gso.mss
  safe : Safe s.gso.mss
  armed : s.gso.mss ≠ 0 → s.gso.ok = .usable ∧ s.gso.streak = 0

/-- A message was taken as a whole or not at all. -/
def SendResult.Atomic (total : Nat) : SendResult → Prop
  | .took r => r = 0 ∨ r = total
  | _ => True

variable {m : Nat}

theorem udpGsoClear_aligned {g : PumpGso} (same : m = g.mss) :
    (udpGsoClear g).1.mss = 0 ∧ size m (udpGsoClear g).2 = 0 ∧ wire m (udpGsoClear g).2 = [] ∧
      (udpGsoClear g).1.ok = g.ok := by
  unfold udpGsoClear
  by_cases armed : g.mss ≠ 0
  · rw [if_pos armed]
    exact ⟨rfl, rfl, rfl, rfl⟩
  · rw [if_neg armed]
    have off : g.mss = 0 := not_not.mp armed
    exact ⟨off, same.trans off, rfl, rfl⟩

variable {s : PumpSock} {mss : Nat}

theorem udpGsoPrepare_aligned (aligned : s.Aligned) (floor : iwanGsoMssMin ≤ mss) (i : GsoInput) :
    let out := udpGsoPrepare s.gso mss i
    wire s.seg out.2.1 = [] ∧ size s.seg out.2.1 = out.1.mss ∧
      (out.2.2 = true → out.1.mss = mss ∧ out.1.ok = .usable ∧ out.1.streak = 0) := by
  obtain ⟨same, safe, armed⟩ := aligned
  unfold udpGsoPrepare
  dsimp only
  have unset := size_refused (α := UInt8) (m := s.seg) (Nat.lt_of_lt_of_le (by decide) floor)
  cases tried : s.gso.ok with
  | untried =>
    have off : s.gso.mss = 0 := by
      by_contra on
      rw [(armed on).1] at tried
      cases tried
    dsimp only
    split
    · exact ⟨rfl, rfl, fun _ => ⟨rfl, rfl, rfl⟩⟩
    · exact ⟨rfl, unset.trans (same.trans off), nofun⟩
  | failed =>
    dsimp only
    split
    · exact ⟨rfl, same, nofun⟩
    · split
      · exact ⟨rfl, rfl, fun _ => ⟨rfl, rfl, rfl⟩⟩
      · exact ⟨rfl, unset.trans same, nofun⟩
  | usable =>
    dsimp only
    split
    · split
      · next rearm =>
        split
        · exact ⟨rfl, rfl, fun _ => ⟨rfl, rfl, rfl⟩⟩
        · -- with a value armed nothing has been counted yet
          have off : s.gso.mss = 0 := by
            rcases rearm with off | counted
            · exact off
            · by_contra on
              rw [gsoStreak, (armed on).2] at counted
              split at counted <;> exact absurd counted (by decide)
          exact ⟨rfl, unset.trans (same.trans off), nofun⟩
      · exact ⟨rfl, same, nofun⟩
    · next equal =>
      exact ⟨rfl, same, fun _ => ⟨not_not.mp equal, rfl, rfl⟩⟩

variable {frames : List (List UInt8)}

theorem sendGsoLoop_wire (positive : 0 < mss)
    (some : frames ≠ []) (uniform : ∀ frame ∈ frames, frame.length = mss)
    (results : List SendResult) (left : List (List UInt8))
    (atomic : ∀ result ∈ results, result.Atomic frames.flatten.length) :
    size mss (sendGsoLoop frames results left).1 = mss ∧
      (wire mss (sendGsoLoop frames results left).1).Sublist frames ∧
      ((sendGsoLoop frames results left).2 = .fallback →
        wire mss (sendGsoLoop frames results left).1 = []) ∧
      (sendGsoLoop frames results left).2 ≠ .fatal := by
  have cuts := cut_flatten positive some uniform
  have nothing : upto 0 (cut mss frames.flatten) = [] := by
    rw [cuts]
    exact upto_zero fun frame found => by rw [uniform frame found]; exact positive
  have taken : ∀ r : Nat, (enter mss (.message frames (.some r))).2 =
      upto r (cut mss frames.flatten) := fun _ => rfl
  induction results generalizing left with
  | nil => exact ⟨rfl, List.nil_sublist _, fun _ => rfl, nofun⟩
  | cons result rest ih =>
    have here := atomic result List.mem_cons_self
    have later := fun left => ih left fun r found => atomic r (List.mem_cons_of_mem _ found)
    cases result with
    | took r =>
      rw [sendGsoLoop]
      split
      · next whole =>
        refine ⟨rfl, ?_, nofun, nofun⟩
        rw [wire_cons, wire_nil, List.append_nil, taken, cuts, whole, upto_all]
      · next short =>
        have zero : r = 0 := here.resolve_right short
        dsimp only
        split
        · refine ⟨rfl, ?_, nofun, nofun⟩
          rw [wire_cons, wire_nil, List.append_nil, taken, zero, nothing]
          exact List.nil_sublist _
        · obtain ⟨size', wire', fallback, fatal⟩ := later (skipSent left r).1
          rw [wire_cons, taken, zero, nothing, List.nil_append]
          rw [zero] at size' wire' fallback fatal
          exact ⟨size', wire', fallback, fatal⟩
    | interrupted => exact later left
    | again budget =>
      rw [sendGsoLoop]
      split
      · exact later left
      · exact ⟨rfl, List.nil_sublist _, fun _ => rfl, nofun⟩
    | _ => exact ⟨rfl, List.nil_sublist _, fun _ => rfl, nofun⟩

theorem wire_messages_none (left : List (List UInt8)) (calls : List UdpCall) :
    wire 0 (.messages left 0 :: calls) = wire 0 calls := by
  rw [wire_cons, enter_messages_whole, List.take_zero, List.nil_append]
  rfl

theorem sendBatchLoop_wire (results : List SendResult) (left : List (List UInt8)) :
    size 0 (sendBatchLoop results left).1 = 0 ∧
      (wire 0 (sendBatchLoop results left).1).Sublist left := by
  induction results generalizing left with
  | nil => cases left <;> exact ⟨rfl, List.nil_sublist _⟩
  | cons result rest ih =>
    cases left with
    | nil => exact ⟨rfl, List.nil_sublist _⟩
    | cons frame frames =>
      unfold sendBatchLoop
      cases result with
      | took n =>
        dsimp only
        split
        · exact ⟨rfl, List.nil_sublist _⟩
        · obtain ⟨size', wire'⟩ := ih ((frame :: frames).drop n)
          refine ⟨size', ?_⟩
          rw [wire_cons, enter_messages_whole]
          conv => rhs; rw [← List.take_append_drop n (frame :: frames)]
          exact (List.Sublist.refl _).append wire'
      | interrupted =>
        obtain ⟨size', wire'⟩ := ih (frame :: frames)
        exact ⟨size', (wire_messages_none _ _).symm ▸ wire'⟩
      | again budget =>
        dsimp only
        split
        · obtain ⟨size', wire'⟩ := ih (frame :: frames)
          exact ⟨size', (wire_messages_none _ _).symm ▸ wire'⟩
        · exact ⟨rfl, List.nil_sublist _⟩
      | refused =>
        obtain ⟨size', wire'⟩ := ih frames
        exact ⟨size', (wire_messages_none _ _).symm ▸ wire'.cons frame⟩
      | broken => exact ⟨rfl, List.nil_sublist _⟩

theorem sendBatch_wire {g : PumpGso} (same : m = g.mss) (frames : List (List UInt8))
    (results : List SendResult) :
    (sendBatch g frames results).1.mss = 0 ∧ size m (sendBatch g frames results).2.1 = 0 ∧
      (wire m (sendBatch g frames results).2.1).Sublist frames := by
  obtain ⟨off, size', silent, -⟩ := udpGsoClear_aligned same
  obtain ⟨size'', wire''⟩ := sendBatchLoop_wire results frames
  refine ⟨off, ?_, ?_⟩
  · show size m ((udpGsoClear g).2 ++ (sendBatchLoop results frames).1) = 0
    rw [size_append, size', size'']
  · show (wire m ((udpGsoClear g).2 ++ (sendBatchLoop results frames).1)).Sublist frames
    rw [wire_append, silent, size', List.nil_append]
    exact wire''

theorem useGso_uniform (use : useGso frames mss = true) :
    frames ≠ [] ∧ (∀ frame ∈ frames, frame.length = mss) ∧ iwanGsoMssMin ≤ mss := by
  simp only [useGso, Bool.and_eq_true, decide_eq_true_eq, List.all_eq_true, beq_iff_eq] at use
  obtain ⟨⟨⟨⟨two, uniform⟩, floor⟩, -⟩, -⟩ := use
  refine ⟨fun none => ?_, uniform, floor⟩
  rw [none] at two
  exact absurd two (by decide)

def BatchInput.Fair (i : BatchInput) (frames : List (List UInt8)) : Prop :=
  ∀ result ∈ i.gso, result.Atomic frames.flatten.length

theorem pumpTxSend_whole (aligned : s.Aligned) (frames : List (List UInt8))
    (i : BatchInput) (fair : i.Fair frames) :
    PumpSock.Aligned ⟨(pumpTxSend s.gso frames i).1, size s.seg (pumpTxSend s.gso frames i).2⟩ ∧
      (wire s.seg (pumpTxSend s.gso frames i).2).Sublist frames := by
  -- the per-message path from any state where the two agree
  have each : ∀ (g : PumpGso) (m : Nat), m = g.mss →
      PumpSock.Aligned ⟨(sendBatch g frames i.each).1, size m (sendBatch g frames i.each).2.1⟩ ∧
        (wire m (sendBatch g frames i.each).2.1).Sublist frames := by
    intro g m same
    obtain ⟨off, size', wire'⟩ := sendBatch_wire same frames i.each
    exact ⟨⟨size'.trans off.symm, .inl off, fun on => absurd off on⟩, wire'⟩
  unfold pumpTxSend
  by_cases empty : frames = []
  · rw [if_pos empty]
    exact ⟨aligned, List.nil_sublist _⟩
  rw [if_neg empty]
  by_cases use : useGso frames (firstLength frames) = true
  · obtain ⟨some, uniform, floor⟩ := useGso_uniform use
    have positive : 0 < firstLength frames := Nat.lt_of_lt_of_le (by decide) floor
    obtain ⟨silent, size', ready⟩ := udpGsoPrepare_aligned aligned floor i.arm
    rw [if_pos use]
    unfold sendGso
    cases let_ : (udpGsoPrepare s.gso (firstLength frames) i.arm).2.2 with
    | false =>
      simp only [let_, Bool.not_false, ↓reduceIte]
      obtain ⟨aligned', wire'⟩ := each (udpGsoPrepare s.gso (firstLength frames) i.arm).1
        (size s.seg (udpGsoPrepare s.gso (firstLength frames) i.arm).2.1) size'
      rw [size_append, wire_append, silent, List.nil_append]
      exact ⟨aligned', wire'⟩
    | true =>
      obtain ⟨armed, usable, streak⟩ := ready let_
      obtain ⟨loop, sub, fallback, fatal⟩ :=
        sendGsoLoop_wire positive some uniform i.gso frames fair
      simp only [let_, Bool.not_true, Bool.false_eq_true, ↓reduceIte]
      by_cases back : (sendGsoLoop frames i.gso frames).2 = .fallback
      · simp only [back, ↓reduceIte]
        obtain ⟨off, cleared, quiet, -⟩ := udpGsoClear_aligned
          (g := (udpGsoPrepare s.gso (firstLength frames) i.arm).1) armed.symm
        obtain ⟨aligned', wire'⟩ := each
          { (udpGsoClear (udpGsoPrepare s.gso (firstLength frames) i.arm).1).1 with
            ok := .failed } 0 off.symm
        have reached : size s.seg ((udpGsoPrepare s.gso (firstLength frames) i.arm).2.1 ++
            (sendGsoLoop frames i.gso frames).1 ++
            (udpGsoClear (udpGsoPrepare s.gso (firstLength frames) i.arm).1).2) = 0 := by
          rw [size_append, size_append, size', armed, loop, cleared]
        have nothing : wire s.seg ((udpGsoPrepare s.gso (firstLength frames) i.arm).2.1 ++
            (sendGsoLoop frames i.gso frames).1 ++
            (udpGsoClear (udpGsoPrepare s.gso (firstLength frames) i.arm).1).2) = [] := by
          rw [wire_append, wire_append, silent, size_append, size', armed, loop, fallback back,
            quiet]
          rfl
        rw [size_append, wire_append, reached, nothing, List.nil_append]
        exact ⟨aligned', wire'⟩
      · simp only [back, ↓reduceIte]
        rw [size_append, wire_append, silent, size', armed, loop, List.nil_append]
        have safe : Safe (udpGsoPrepare s.gso (firstLength frames) i.arm).1.mss := by
          rw [armed]
          exact .inr floor
        exact ⟨⟨armed.symm, safe, fun _ => ⟨usable, streak⟩⟩, sub⟩
  · rw [if_neg use]
    exact each s.gso s.seg aligned.same

theorem sendCtrl_whole (aligned : s.Aligned) (frame : Vector UInt8 24)
    (took : Option Nat) (rearm : Bool) :
    PumpSock.Aligned ⟨(sendCtrl s.gso frame.toList took rearm).1,
        size s.seg (sendCtrl s.gso frame.toList took rearm).2⟩ ∧
      (wire s.seg (sendCtrl s.gso frame.toList took rearm).2).Sublist [frame.toList] := by
  obtain ⟨same, safe, armed⟩ := aligned
  unfold sendCtrl
  by_cases on : s.gso.mss ≠ 0
  · rw [if_pos on]
    have left : (enter 0 (.message [frame.toList] took)).2.Sublist [frame.toList] :=
      enter_short (.inl rfl) took
    refine ⟨?_, ?_⟩
    · cases rearm with
      | true => exact ⟨rfl, safe, fun _ => armed on⟩
      | false =>
        exact ⟨size_refused (α := UInt8) (Nat.pos_of_ne_zero on), .inl rfl, fun h => absurd rfl h⟩
    · show ((enter 0 (.message [frame.toList] took)).2 ++ []).Sublist _
      rw [List.append_nil]
      exact left
  · rw [if_neg on]
    have off : s.seg = 0 := same.trans (not_not.mp on)
    refine ⟨⟨same, safe, armed⟩, ?_⟩
    show ((enter s.seg (.message [frame.toList] took)).2 ++ []).Sublist _
    rw [List.append_nil]
    exact enter_short (.inl off) took

def PumpSendEvent.Fair : PumpSendEvent → Prop
  | .batch frames i => i.Fair frames
  | .ctrl _ _ _ => True

theorem pumpStep_whole (aligned : s.Aligned) (e : PumpSendEvent) (fair : e.Fair) :
    (pumpStep s e).1.Aligned ∧ (pumpStep s e).2.Sublist e.frames := by
  cases e with
  | batch frames i => exact pumpTxSend_whole aligned frames i fair
  | ctrl frame took rearm => exact sendCtrl_whole aligned frame took rearm

theorem PumpSock.start_aligned : PumpSock.start.Aligned := ⟨rfl, .inl rfl, fun on => absurd rfl on⟩

/-- The cache is the kernel's value. -/
structure SocksSock.Aligned (s : SocksSock) : Prop where
  same : s.seg = s.gso.mss
  safe : Safe s.gso.mss

variable {c : SocksGso}

theorem socksArm_aligned (same : m = c.mss) (floor : iwanGsoMssMin ≤ mss) (i : GsoInput) :
    wire m (socksArm c mss i).2 = [] ∧ size m (socksArm c mss i).2 = (socksArm c mss i).1.mss ∧
      ((socksArm c mss i).1.ok = .usable → (socksArm c mss i).1.mss = mss) ∧
      (∀ call ∈ (socksArm c mss i).2, call.Floored iwanGsoMssMin) ∧
      handed (socksArm c mss i).2 = [] := by
  have unset := size_refused (α := UInt8) (m := m) (Nat.lt_of_lt_of_le (by decide) floor)
  have floored : ∀ ok, ∀ call ∈ [Call.segment (α := UInt8) mss ok], call.Floored iwanGsoMssMin := by
    intro ok call found
    rw [List.mem_singleton.mp found]
    exact .inr floor
  unfold socksArm
  cases tried : c.ok with
  | untried =>
    dsimp only
    split
    · exact ⟨rfl, rfl, fun _ => rfl, floored true, rfl⟩
    · exact ⟨rfl, unset.trans same, nofun, floored false, rfl⟩
  | usable =>
    dsimp only
    split
    · split
      · exact ⟨rfl, rfl, fun _ => rfl, floored true, rfl⟩
      · exact ⟨rfl, unset.trans same, nofun, floored false, rfl⟩
    · next equal => exact ⟨rfl, same, fun _ => not_not.mp equal, nofun, rfl⟩
  | failed =>
    have unusable : c.ok = .usable → c.mss = mss := fun usable => by
      rw [tried] at usable
      cases usable
    dsimp only
    split
    · exact ⟨rfl, same, unusable, nofun, rfl⟩
    · split
      · exact ⟨rfl, rfl, fun _ => rfl, floored true, rfl⟩
      · exact ⟨rfl, unset.trans same, unusable, floored false, rfl⟩

theorem socksGsoLoop_calls (frames : List (List UInt8)) (results : List SendResult) :
    ∀ call ∈ (socksGsoLoop frames results).1, ∃ took, call = .message frames took := by
  induction results with
  | nil => exact List.forall_mem_nil _
  | cons result rest ih =>
    have one : ∀ took, ∀ call ∈ [Call.message frames took], ∃ took, call = .message frames took :=
      fun took => List.forall_mem_singleton.mpr ⟨took, rfl⟩
    have next := List.forall_mem_cons.mpr ⟨⟨none, rfl⟩, ih⟩
    cases result with
    | took r => exact one _
    | interrupted => exact next
    | again budget =>
      rw [socksGsoLoop]
      split
      · exact next
      · exact one _
    | _ => exact one _

theorem socksGsoLoop_handed (nothing : upto 0 frames = []) (results : List SendResult)
    (atomic : ∀ result ∈ results, result.Atomic frames.flatten.length) :
    handed (socksGsoLoop frames results).1 =
      if (socksGsoLoop frames results).2 = .sent then frames else [] := by
  -- a call that took nothing hands nothing over
  have unsent : ∀ calls : List UdpCall, handed (.message frames none :: calls) = handed calls :=
    fun calls => congrArg (· ++ handed calls) nothing
  induction results with
  | nil => rfl
  | cons result rest ih =>
    obtain ⟨here, later⟩ := List.forall_mem_cons.mp atomic
    cases result with
    | took r =>
      show upto r frames ++ [] =
        if (if r = frames.flatten.length then GsoEnd.sent else .hard) = .sent then frames else []
      rw [List.append_nil]
      by_cases whole : r = frames.flatten.length
      · rw [if_pos whole, if_pos rfl, whole, upto_all]
      · rw [if_neg whole, if_neg (by decide), here.resolve_right whole, nothing]
    | interrupted => exact (unsent _).trans (ih later)
    | again budget =>
      rw [socksGsoLoop]
      split
      · exact (unsent _).trans (ih later)
      · exact unsent []
    | _ => exact unsent []

theorem socksGsoLoop_wire (positive : 0 < mss)
    (some : frames ≠ []) (uniform : ∀ frame ∈ frames, frame.length = mss)
    (results : List SendResult) :
    size mss (socksGsoLoop frames results).1 = mss ∧
      (∀ call ∈ (socksGsoLoop frames results).1, call.Floored iwanGsoMssMin) ∧
      ((∀ result ∈ results, result.Atomic frames.flatten.length) →
        wire mss (socksGsoLoop frames results).1 =
            (if (socksGsoLoop frames results).2 = .sent then frames else []) ∧
          handed (socksGsoLoop frames results).1 =
            if (socksGsoLoop frames results).2 = .sent then frames else []) := by
  have nothing : upto 0 frames = [] :=
    upto_zero fun frame found => by rw [uniform frame found]; exact positive
  have calls := socksGsoLoop_calls frames results
  obtain ⟨size', wire'⟩ := wire_fits (m := mss) fun call found => by
    obtain ⟨took, rfl⟩ := calls call found
    exact ⟨cut_flatten positive some uniform, nothing⟩
  refine ⟨size', fun call found => ?_, fun atomic => ?_⟩
  · obtain ⟨took, rfl⟩ := calls call found
    trivial
  · have given := socksGsoLoop_handed nothing results atomic
    exact ⟨wire'.trans given, given⟩

theorem take_min_add {α : Type} (items : List α) (n k : Nat) (bound : k ≤ items.length - n) :
    items.take n ++ (items.drop n).take k = items.take (min n items.length + k) := by
  rcases Nat.le_total n items.length with within | beyond
  · rw [Nat.min_eq_left within, List.take_add]
  · have none : k = 0 := by omega
    rw [none, Nat.min_eq_right beyond, List.take_zero, List.append_nil, Nat.add_zero,
      List.take_of_length_le beyond, List.take_length]

theorem socksEachLoop_calls (results : List SendResult) (left : List (List UInt8)) :
    ∀ call ∈ (socksEachLoop results left).1, ∃ msgs took, call = .messages msgs took := by
  induction results generalizing left with
  | nil => cases left <;> exact List.forall_mem_nil _
  | cons result rest ih =>
    cases left with
    | nil => exact List.forall_mem_nil _
    | cons frame frames =>
      have one : ∀ call ∈ [Call.messages (frame :: frames) 0],
          ∃ msgs took, call = .messages msgs took :=
        List.forall_mem_singleton.mpr ⟨_, _, rfl⟩
      have next := fun n left => List.forall_mem_cons.mpr
        ⟨⟨frame :: frames, n, rfl⟩, ih left⟩
      unfold socksEachLoop
      cases result with
      | took n =>
        dsimp only
        split
        · exact one
        · exact next n _
      | interrupted => exact next 0 _
      | again budget =>
        dsimp only
        split
        · exact next 0 _
        · exact one
      | _ => exact one

theorem socksEachLoop_handed (results : List SendResult) (left : List (List UInt8)) :
    (socksEachLoop results left).2 ≤ left.length ∧
      handed (socksEachLoop results left).1 = left.take (socksEachLoop results left).2 := by
  induction results generalizing left with
  | nil => cases left <;> exact ⟨Nat.zero_le _, rfl⟩
  | cons result rest ih =>
    cases left with
    | nil => exact ⟨Nat.zero_le _, rfl⟩
    | cons frame frames =>
      unfold socksEachLoop
      cases result with
      | took n =>
        dsimp only
        split
        · exact ⟨Nat.zero_le _, rfl⟩
        · obtain ⟨bound, given⟩ := ih ((frame :: frames).drop n)
          rw [List.length_drop] at bound
          refine ⟨by dsimp only; omega, ?_⟩
          show (frame :: frames).take n ++ handed _ = _
          rw [given]
          exact take_min_add _ n _ bound
      | interrupted => exact ih (frame :: frames)
      | again budget =>
        dsimp only
        split
        · exact ih (frame :: frames)
        · exact ⟨Nat.zero_le _, rfl⟩
      | _ => exact ⟨Nat.zero_le _, rfl⟩

theorem socksEachLoop_wire (results : List SendResult) (left : List (List UInt8)) :
    size 0 (socksEachLoop results left).1 = 0 ∧
      wire 0 (socksEachLoop results left).1 = left.take (socksEachLoop results left).2 ∧
      (socksEachLoop results left).2 ≤ left.length ∧
      (∀ call ∈ (socksEachLoop results left).1, call.Floored iwanGsoMssMin) ∧
      handed (socksEachLoop results left).1 = left.take (socksEachLoop results left).2 := by
  obtain ⟨bound, given⟩ := socksEachLoop_handed results left
  have calls := socksEachLoop_calls results left
  obtain ⟨size', wire'⟩ := wire_fits (m := 0) fun call found => by
    obtain ⟨msgs, took, rfl⟩ := calls call found
    exact (rfl : (0 : Nat) = 0)
  refine ⟨size', wire'.trans given, bound, fun call found => ?_, given⟩
  obtain ⟨msgs, took, rfl⟩ := calls call found
  trivial

/-- The calls of a sender on a socket whose option is `m`: where its cache stands, and that what
they hand over is what they count, and leaves as it is. -/
structure SocksSent (fair : Prop) (m : Nat) (frames : List (List UInt8))
    (out : SocksGso × List UdpCall × Nat) : Prop where
  same : size m out.2.1 = out.1.mss
  safe : Safe out.1.mss
  sent : fair → wire m out.2.1 = frames.take out.2.2
  bound : out.2.2 ≤ frames.length
  floored : ∀ call ∈ out.2.1, call.Floored iwanGsoMssMin
  given : fair → handed out.2.1 = frames.take out.2.2

theorem socksPerMsg_sent {fair : Prop} (same : m = c.mss)
    (frames : List (List UInt8)) (results : List SendResult) :
    SocksSent fair m frames (socksPerMsg c frames results) := by
  obtain ⟨size', wire', bound, floored, given⟩ := socksEachLoop_wire results frames
  unfold socksPerMsg
  dsimp only
  by_cases on : c.mss ≠ 0
  · rw [if_pos on]
    exact ⟨size', .inl rfl, fun _ => wire', bound,
      List.forall_mem_cons.mpr ⟨.inl rfl, floored⟩, fun _ => given⟩
  · rw [if_neg on]
    have off : c.mss = 0 := not_not.mp on
    rw [same, off]
    exact ⟨size'.trans off.symm, .inl off, fun _ => wire', bound, floored, fun _ => given⟩

theorem SocksSent.behind {fair : Prop} {front : List UdpCall} {out : SocksGso × List UdpCall × Nat}
    (sent : SocksSent fair (size m front) frames out)
    (silent : fair → wire m front = [] ∧ handed front = [])
    (floored : ∀ call ∈ front, call.Floored iwanGsoMssMin) :
    SocksSent fair m frames (out.1, front ++ out.2.1, out.2.2) := by
  refine ⟨?_, sent.safe, fun fairly => ?_, sent.bound, ?_, fun fairly => ?_⟩
  · show size m (front ++ out.2.1) = _
    rw [size_append]
    exact sent.same
  · show wire m (front ++ out.2.1) = _
    rw [wire_append, (silent fairly).1, List.nil_append]
    exact sent.sent fairly
  · exact fun call found => (List.mem_append.mp found).elim (floored call) (sent.floored call)
  · show handed (front ++ out.2.1) = _
    rw [handed_append, (silent fairly).2, List.nil_append]
    exact sent.given fairly

theorem socksSendBatch2_sent (same : m = c.mss)
    (uniform : ∀ frame ∈ frames, frame.length = firstLength frames)
    (i : BatchInput) : SocksSent (i.Fair frames) m frames (socksSendBatch2 c frames i) := by
  unfold socksSendBatch2
  dsimp only
  by_cases unit : 2 ≤ frames.length ∧ iwanGsoMssMin ≤ firstLength frames ∧
      frames.flatten.length ≤ iwanUdpGsoUnit ∧ frames.flatten.length ≤ iwanGsoUnitSafe
  · rw [if_pos unit]
    obtain ⟨two, floor, -, -⟩ := unit
    have some : frames ≠ [] := fun none => by rw [none] at two; exact absurd two (by decide)
    have positive : 0 < firstLength frames := Nat.lt_of_lt_of_le (by decide) floor
    obtain ⟨silent, size', ready, floored, quiet⟩ := socksArm_aligned same floor i.arm
    by_cases usable : (socksArm c (firstLength frames) i.arm).1.ok = .usable
    · simp only [usable, ↓reduceIte]
      have armed := ready usable
      obtain ⟨loop, floored', out⟩ := socksGsoLoop_wire positive some uniform i.gso
      have reached : size m ((socksArm c (firstLength frames) i.arm).2 ++
          (socksGsoLoop frames i.gso).1) = firstLength frames := by
        rw [size_append, size', armed, loop]
      have left : i.Fair frames → wire m ((socksArm c (firstLength frames) i.arm).2 ++
          (socksGsoLoop frames i.gso).1) =
            (if (socksGsoLoop frames i.gso).2 = .sent then frames else []) ∧
          handed ((socksArm c (firstLength frames) i.arm).2 ++ (socksGsoLoop frames i.gso).1) =
            if (socksGsoLoop frames i.gso).2 = .sent then frames else [] := by
        intro fair
        rw [wire_append, silent, size', armed, (out fair).1, handed_append, quiet, (out fair).2]
        exact ⟨rfl, rfl⟩
      have safe' : Safe (socksArm c (firstLength frames) i.arm).1.mss := by
        rw [armed]
        exact .inr floor
      have both : ∀ call ∈ (socksArm c (firstLength frames) i.arm).2 ++
          (socksGsoLoop frames i.gso).1, call.Floored iwanGsoMssMin :=
        fun call found => (List.mem_append.mp found).elim (floored call) (floored' call)
      cases ended : (socksGsoLoop frames i.gso).2 with
      | sent =>
        rw [ended, if_pos rfl] at left
        exact ⟨reached.trans armed.symm, safe',
          fun fair => (left fair).1.trans (List.take_length).symm, Nat.le_refl _, both,
          fun fair => (left fair).2.trans (List.take_length).symm⟩
      | stalled =>
        rw [ended, if_neg (by decide)] at left
        exact ⟨reached.trans armed.symm, safe', fun fair => (left fair).1, Nat.zero_le _, both,
          fun fair => (left fair).2⟩
      | hard =>
        rw [ended, if_neg (by decide)] at left
        dsimp only
        have off : size m ((socksArm c (firstLength frames) i.arm).2 ++
            (socksGsoLoop frames i.gso).1 ++ [.segment 0 true]) = 0 := by
          rw [size_append]
          rfl
        have unsent : i.Fair frames → wire m ((socksArm c (firstLength frames) i.arm).2 ++
              (socksGsoLoop frames i.gso).1 ++ [.segment 0 true]) = [] ∧
            handed ((socksArm c (firstLength frames) i.arm).2 ++
              (socksGsoLoop frames i.gso).1 ++ [.segment 0 true]) = [] := by
          intro fair
          rw [wire_append, (left fair).1, handed_append, (left fair).2]
          exact ⟨rfl, rfl⟩
        have after := (socksPerMsg_sent (c := ⟨.failed, 0⟩) off frames i.each).behind unsent
          (fun call found => (List.mem_append.mp found).elim (both call) fun last => by
            rw [List.mem_singleton.mp last]
            exact .inl rfl)
        simpa only [List.append_assoc, List.singleton_append] using after
    · simp only [usable, ↓reduceIte]
      exact (socksPerMsg_sent size' frames i.each).behind (fun _ => ⟨silent, quiet⟩) floored
  · rw [if_neg unit]
    exact socksPerMsg_sent same frames i.each

theorem socksRun_spec (l0 total : Nat) (frames : List (List UInt8)) :
    socksRun l0 total frames ≤ frames.length ∧
      ∀ frame ∈ frames.take (socksRun l0 total frames), frame.length = l0 := by
  induction frames generalizing total with
  | nil => exact ⟨Nat.le_refl _, nofun⟩
  | cons frame rest ih =>
    rw [socksRun]
    split
    · next fits =>
      obtain ⟨bound, uniform⟩ := ih (total + l0)
      refine ⟨Nat.succ_le_succ bound, fun f found => ?_⟩
      rw [List.take_succ_cons] at found
      rcases List.mem_cons.mp found with first | later
      · rw [first]
        exact fits.1
      · exact uniform f later
    · exact ⟨Nat.zero_le _, nofun⟩

theorem socksRunOf_spec (some : frames ≠ []) :
    socksRunOf frames = frames.take (socksRunOf frames).length ∧
      0 < (socksRunOf frames).length ∧ (socksRunOf frames).length ≤ frames.length ∧
      ∀ frame ∈ socksRunOf frames, frame.length = firstLength (socksRunOf frames) := by
  obtain ⟨first, rest, rfl⟩ := List.exists_cons_of_ne_nil some
  obtain ⟨bound, uniform⟩ := socksRun_spec first.length first.length rest
  have run : socksRunOf (first :: rest) =
      first :: rest.take (socksRun first.length first.length rest) := rfl
  have count : (socksRunOf (first :: rest)).length =
      socksRun first.length first.length rest + 1 := by
    rw [run, List.length_cons, List.length_take, Nat.min_eq_left bound]
  refine ⟨?_, by omega, ?_, fun frame found => ?_⟩
  · rw [count]
    rfl
  · rw [count, List.length_cons]
    omega
  · rw [run] at found ⊢
    rcases List.mem_cons.mp found with same | later
    · rw [same]
      rfl
    · exact uniform frame later

def DrainFair : List BatchInput → List (List UInt8) → Prop
  | [], _ => True
  | i :: rest, frames =>
    i.Fair (socksRunOf frames) ∧ DrainFair rest (frames.drop (socksRunOf frames).length)

theorem socksSendRuns_sent (inputs : List BatchInput) (c : SocksGso) (m : Nat)
    (same : m = c.mss) (safe : Safe c.mss) (frames : List (List UInt8)) :
    SocksSent (DrainFair inputs frames) m frames (socksSendRuns inputs c frames) := by
  induction inputs generalizing c m frames with
  | nil => exact ⟨same, safe, fun _ => rfl, Nat.zero_le _, nofun, fun _ => rfl⟩
  | cons i rest ih =>
    unfold socksSendRuns
    by_cases none : frames = []
    · rw [if_pos none]
      exact ⟨same, safe, fun _ => rfl, Nat.zero_le _, nofun, fun _ => rfl⟩
    · rw [if_neg none]
      dsimp only
      obtain ⟨run, positive, within, uniform⟩ := socksRunOf_spec none
      obtain ⟨size', safe', wire', bound, floored, given⟩ :=
        socksSendBatch2_sent same uniform i
      have front : ∀ k, k ≤ (socksRunOf frames).length →
          (socksRunOf frames).take k = frames.take k := by
        intro k inside
        calc (socksRunOf frames).take k
            = (frames.take (socksRunOf frames).length).take k := congrArg (List.take k) run
          _ = frames.take k := by rw [List.take_take, Nat.min_eq_left inside]
      by_cases blocked :
          (socksSendBatch2 c (socksRunOf frames) i).2.2 < (socksRunOf frames).length
      · rw [if_pos blocked]
        exact ⟨size', safe', fun fair => (wire' fair.1).trans (front _ bound),
          Nat.le_trans bound within, floored, fun fair => (given fair.1).trans (front _ bound)⟩
      · rw [if_neg blocked]
        have all : (socksSendBatch2 c (socksRunOf frames) i).2.2 =
            (socksRunOf frames).length := by omega
        obtain ⟨size'', safe'', wire'', bound', floored', given'⟩ :=
          ih (socksSendBatch2 c (socksRunOf frames) i).1 _ size' safe'
            (frames.drop (socksRunOf frames).length)
        rw [List.length_drop] at bound'
        refine ⟨?_, safe'', fun fair => ?_, ?_, fun call found =>
          (List.mem_append.mp found).elim (floored call) (floored' call), fun fair => ?_⟩
        · show size m (_ ++ _) = _
          rw [size_append]
          exact size''
        · show wire m (_ ++ _) = _
          rw [wire_append, wire' fair.1, front _ bound, all, List.take_add]
          exact congrArg (_ ++ ·) (wire'' fair.2)
        · exact Nat.add_le_of_le_sub' within bound'
        · show handed (_ ++ _) = _
          rw [handed_append, given fair.1, front _ bound, all, List.take_add]
          exact congrArg (_ ++ ·) (given' fair.2)

def SocksEvent.Fair : SocksEvent × List (List DnsSend) → Prop
  | (.drain frames inputs, _) => DrainFair inputs frames
  | (.keepalive _ _, _) => True

def dnsFrameMax : Nat := 307

def DnsShort (others : List (List DnsSend)) : Prop :=
  ∀ sends ∈ others, ∀ send ∈ sends, send.1.length ≤ dnsFrameMax

theorem socksSockStep_whole {s : SocksSock} (aligned : s.Aligned)
    (e : SocksEvent × List (List DnsSend)) (fair : SocksEvent.Fair e) (short : DnsShort e.2) :
    (socksSockStep s e).1.Aligned ∧
      (ofSender false (socksSockStep s e).2).Sublist e.1.frames ∧
      (ofSender true (socksSockStep s e).2).Sublist (e.2.flatten.map (·.1)) := by
  obtain ⟨event, others⟩ := e
  have seg : Safe s.seg := aligned.same ▸ aligned.safe
  have loop : size s.seg (event.run s.gso).2 = (event.run s.gso).1.mss ∧
      Safe (event.run s.gso).1.mss ∧ (wire s.seg (event.run s.gso).2).Sublist event.frames ∧
      ∀ call ∈ (event.run s.gso).2, call.Floored iwanGsoMssMin := by
    cases event with
    | drain frames inputs =>
      have sent := socksSendRuns_sent inputs s.gso s.seg aligned.same aligned.safe frames
      refine ⟨sent.same, sent.safe, ?_, sent.floored⟩
      show (wire s.seg (socksSendRuns inputs s.gso frames).2.1).Sublist frames
      rw [sent.sent fair]
      exact List.take_sublist _ _
    | keepalive frame took =>
      refine ⟨aligned.same, aligned.safe, ?_, fun call found => ?_⟩
      · show ((enter s.seg (.message [frame.toList] took)).2 ++ []).Sublist [frame.toList]
        rw [List.append_nil]
        refine enter_short (seg.imp_right fun above => ?_) took
        rw [Vector.length_toList]
        exact Nat.le_trans (by decide) above
      · rw [List.mem_singleton.mp found]
        trivial
  obtain ⟨same, safe, sub, floored⟩ := loop
  obtain ⟨size', wire', own⟩ := interleave_wire (event.run s.gso).2 others s.seg seg floored
    fun sends found send member => Nat.le_trans (short sends found send member) (by decide)
  refine ⟨⟨size'.trans same, safe⟩, ?_, own⟩
  show (ofSender false (sharedWire s.seg (interleave others (event.run s.gso).2))).Sublist _
  rw [wire']
  exact sub

theorem SocksSock.start_aligned : SocksSock.start.Aligned := ⟨rfl, .inl rfl⟩

/-- In every run in which the kernel takes a GSO message as a whole or not at all, an event sends
some of its own frames in order, each whole and at most once. -/
theorem datagrams_whole (pump : List PumpSendEvent) (p : PumpSendEvent)
    (socks : List (SocksEvent × List (List DnsSend))) (q : SocksEvent × List (List DnsSend)) :
    ((∀ event ∈ pump ++ [p], event.Fair) →
      (pumpStep (Trace.final pumpStep PumpSock.start pump) p).2.Sublist p.frames) ∧
    ((∀ event ∈ socks ++ [q], SocksEvent.Fair event ∧ DnsShort event.2) →
      let out := (socksSockStep (Trace.final socksSockStep SocksSock.start socks) q).2
      (ofSender false out).Sublist q.1.frames ∧
        (ofSender true out).Sublist (q.2.flatten.map (·.1))) := by
  constructor
  · intro fair
    have aligned : (Trace.final pumpStep PumpSock.start pump).Aligned :=
      Trace.final_mem_invariant pumpStep PumpSendEvent.Fair PumpSock.Aligned
        (fun s e fair aligned => (pumpStep_whole aligned e fair).1) PumpSock.start pump
        (fun event found => fair event (List.mem_append_left _ found)) PumpSock.start_aligned
    exact (pumpStep_whole aligned p
      (fair p (List.mem_append_right _ List.mem_cons_self))).2
  · intro fair
    have aligned : (Trace.final socksSockStep SocksSock.start socks).Aligned :=
      Trace.final_mem_invariant socksSockStep (fun e => SocksEvent.Fair e ∧ DnsShort e.2)
        SocksSock.Aligned
        (fun s e fair aligned => (socksSockStep_whole aligned e fair.1 fair.2).1) SocksSock.start
        socks (fun event found => fair event (List.mem_append_left _ found))
        SocksSock.start_aligned
    obtain ⟨here, short⟩ := fair q (List.mem_append_right _ List.mem_cons_self)
    exact (socksSockStep_whole aligned q here short).2

def sampleFrames (b : UInt8) : List (List UInt8) := [List.replicate 600 b, List.replicate 600 0]

def sampleBatch (results : List SendResult) : BatchInput := ⟨⟨true, true⟩, results, [.took 2]⟩

def sampleSend : PumpSendEvent := .batch (sampleFrames 1) (sampleBatch [.took 1200])

/-- A DNS query leaves while the batch is sent. -/
def sampleDrain : SocksEvent × List (List DnsSend) :=
  (.drain (sampleFrames 1) [sampleBatch [.took 1200]], [[(List.replicate 40 7, some 40)]])

/-- The second batch of each plane, sent through the option that the first has armed. -/
theorem datagrams_whole_sample :
    let sent := (pumpStep (Trace.final pumpStep PumpSock.start [sampleSend]) sampleSend).2
    let out := (socksSockStep (Trace.final socksSockStep SocksSock.start [sampleDrain])
      sampleDrain).2
    sent = sampleFrames 1 ∧ sent.Sublist sampleSend.frames ∧
      ofSender false out = sampleFrames 1 ∧
      ofSender true out = [List.replicate 40 7] ∧
      (ofSender false out).Sublist sampleDrain.1.frames ∧
      (ofSender true out).Sublist (sampleDrain.2.flatten.map (·.1)) := by
  intro sent out
  have whole : ∀ result ∈ [SendResult.took 1200],
      result.Atomic (sampleFrames 1).flatten.length := by
    intro result member
    rw [List.mem_singleton.mp member]
    exact .inr (by decide +kernel)
  have fair : ∀ event ∈ [sampleSend] ++ [sampleSend], event.Fair := by
    intro event found
    rw [show event = sampleSend by simpa using found]
    exact whole
  have fair' : ∀ event ∈ [sampleDrain] ++ [sampleDrain],
      SocksEvent.Fair event ∧ DnsShort event.2 := by
    intro event found
    rw [show event = sampleDrain by simpa using found]
    have one : socksRunOf (sampleFrames 1) = sampleFrames 1 := by decide +kernel
    refine ⟨⟨fun result member => ?_, trivial⟩, ?_⟩
    · rw [one]
      exact whole result member
    · intro sends found send member
      rw [List.mem_singleton.mp found] at member
      rw [List.mem_singleton.mp member, List.length_replicate]
      decide
  obtain ⟨pump, socks⟩ := datagrams_whole [sampleSend] sampleSend [sampleDrain] sampleDrain
  exact ⟨by decide +kernel, pump fair, by decide +kernel, by decide +kernel, (socks fair').1,
    (socks fair').2⟩

/-- The kernel takes one segment of a GSO message, and both planes send it again. -/
theorem datagrams_repeated :
    (pumpStep PumpSock.start
        (.batch (sampleFrames 1) (sampleBatch [.took 600, .took 1200]))).2 =
      (sampleFrames 1).take 1 ++ sampleFrames 1 ∧
    ofSender false (socksSockStep SocksSock.start
        (.drain (sampleFrames 1) [sampleBatch [.took 600]], [])).2 =
      (sampleFrames 1).take 1 ++ sampleFrames 1 := by
  decide +kernel

end Iwan
