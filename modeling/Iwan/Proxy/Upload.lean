import Iwan.Lib.Memory
import Iwan.Lib.Trace
import Iwan.Proxy.Fragments

/- The upload of a flow into lwIP (socks_flow.c, lwip_bridge.c). -/
namespace Iwan

open Memory

def nsMss : Nat := 1460

def nsScratchSlots : Nat := 45

def handshakeInputMax : Nat := 64 * 1024

def resolvInputCap : Nat := 1024 * 1024

def tcpRxChunk : Nat := 16384

/-- A flow, the spill buffer, and what was received and accepted. -/
structure Upload where
  flow : Flow
  scratch : Nat → UInt8
  scratchCommit : Nat
  accepted : List UInt8
  received : List UInt8
  consumed : Nat
  shut : Bool

def Upload.start (f : Flow) : Upload := ⟨{ f with input := [] }, fun _ => 0, 0, [], [], 0, false⟩

def nsSendReservev (sndBuf : Option Nat) : Nat :=
  match sndBuf with
  | none => 0
  | some avail => min nsScratchSlots (avail / nsMss)

def commitLoop : List Bool → Nat → Upload → Upload
  | [], _, u => u
  | ok :: rest, left, u =>
    if left = 0 ∨ ok = false then u
    else
      let chunk := min left nsMss
      commitLoop rest (left - chunk)
        { u with
          accepted := u.accepted ++ slice u.scratch u.scratchCommit chunk
          scratchCommit := u.scratchCommit + chunk }

def nsSendCommit (u : Upload) (n : Nat) (writes : List Bool) : Upload :=
  let n := min n (nsScratchSlots * nsMss - u.scratchCommit)
  commitLoop writes n u

def spillSlots (input : List UInt8) : Nat → Nat → Nat → List (List Bool) → Upload → Upload × Nat
  | 0, _, used, _, u => (u, used)
  | slots + 1, k, used, writes, u =>
    if input.length ≤ used then (u, used)
    else
      let take := min (input.length - used) nsMss
      let filled :=
        { u with scratch := copy u.scratch (k * nsMss) ((input.drop used).take take) }
      let after := nsSendCommit filled take (writes.headD [])
      let w := after.scratchCommit - u.scratchCommit
      if w < take ∨ take < nsMss then (after, used + w)
      else spillSlots input slots (k + 1) (used + w) writes.tail after

/-- What feeding lwIP meets. -/
structure FeedInput where
  sndBuf : Option Nat
  writes : List (List Bool)
deriving DecidableEq, Repr

def spillBatch (u : Upload) (i : FeedInput) : Upload :=
  let out := spillSlots u.flow.input (nsSendReservev i.sndBuf) 0 0 i.writes
    { u with scratchCommit := 0 }
  { out.1 with flow := { u.flow with input := u.flow.input.drop out.2 } }

def spillLoop : List FeedInput → Upload → Upload
  | [], u => u
  | i :: rest, u =>
    if u.flow.input = [] ∨ nsSendReservev i.sndBuf = 0 then u
    else
      let after := spillBatch u i
      if u.flow.input.length - after.flow.input.length = nsSendReservev i.sndBuf * nsMss then
        spillLoop rest after
      else after

def feedSlots : Nat → Nat → List (List Bool) → Upload → Upload × Nat
  | 0, left, _, u => (u, left)
  | slots + 1, left, writes, u =>
    if left = 0 then (u, 0)
    else
      let take := min left nsMss
      let after := nsSendCommit u take (writes.headD [])
      let w := after.scratchCommit - u.scratchCommit
      if w < take then (after, left - w)
      else feedSlots slots (left - w) writes.tail after

inductive ReadResult where
  | bytes (data : List UInt8)
  | eof
  | again
  | failed
deriving DecidableEq, Repr

structure ReadInput where
  feed : FeedInput
  result : ReadResult
deriving DecidableEq, Repr

def feedBatch (u : Upload) (slots : Nat) (data : List UInt8) (writes : List (List Bool)) :
    Upload × Nat :=
  let filled :=
    { u with
      scratch := copy u.scratch 0 data
      scratchCommit := 0
      received := u.received ++ data }
  let out := feedSlots slots data.length writes filled
  ({ out.1 with
      flow := { u.flow with
        input := u.flow.input ++ slice out.1.scratch (data.length - out.2) out.2 } }, out.2)

def closeUpload (now : UInt64) (u : Upload) (eof : Bool) : Upload :=
  { u with
    flow := setFlowState now { u.flow with localEof := true } .closing
    shut := u.shut || eof }

def readLoop (now : UInt64) : List ReadInput → Upload → Upload
  | [], u => u
  | i :: rest, u =>
    let slots := nsSendReservev i.feed.sndBuf
    if slots = 0 then { u with flow := { u.flow with rxPaused := true } }
    else
      match i.result with
      | .bytes data =>
        let data := data.take (slots * nsMss)
        if data = [] then u
        else
          let out := feedBatch u slots data i.feed.writes
          if 0 < out.2 then { out.1 with flow := { out.1.flow with rxPaused := true } }
          else readLoop now rest out.1
      | .eof => closeUpload now u true
      | .again => u
      | .failed => closeUpload now u false

/-- What a visit of the event loop meets. -/
structure VisitInput where
  now : UInt64
  dead : Bool
  spill : List FeedInput
  reads : List ReadInput
  recv : ReadResult
  start : Flow → PpTarget → Flow

def startedFlow (start : Flow → PpTarget → Flow) (f : Flow) : HandshakeCall → Flow
  | .authFailNote _ => f
  | .flowStartTarget t => { start f t with input := f.input }

def uploadHandshake (cfg : SocksCfg) (pton : InetPton) (u : Upload) (i : VisitInput) : Upload :=
  if u.flow.input = [] then u
  else
    let out := processSocksHandshake cfg pton i.now u.flow
    { u with
      flow := out.2.foldl (startedFlow i.start) out.1
      consumed := u.consumed + (u.flow.input.length - out.1.input.length) }

def recvHandshake (cfg : SocksCfg) (pton : InetPton) (u : Upload) (i : VisitInput) : Upload :=
  if u.flow.state = .closing then u
  else if u.flow.state = .resolving ∧ resolvInputCap ≤ u.flow.input.length then
    { u with flow := { u.flow with rxPaused := true } }
  else
    match i.recv with
    | .eof =>
      uploadHandshake cfg pton
        { u with flow := setFlowState i.now { u.flow with localEof := true } .closing } i
    | .bytes data =>
      let data := data.take tcpRxChunk
      let u := { u with
        flow := { u.flow with input := u.flow.input ++ data }, received := u.received ++ data }
      if handshakeInputMax < u.flow.input.length ∧
          (u.flow.state = .greeting ∨ u.flow.state = .request) then
        uploadHandshake cfg pton
          { u with flow := setFlowState i.now { u.flow with localEof := true } .closing } i
      else uploadHandshake cfg pton u i
    | .again => uploadHandshake cfg pton u i
    | .failed =>
      uploadHandshake cfg pton
        { u with flow := setFlowState i.now { u.flow with localEof := true } .closing } i

def detachDead (u : Upload) (i : VisitInput) : Upload :=
  if u.flow.active ∧ u.flow.state ≠ .connecting ∧ u.flow.nsIdx ≠ none ∧ i.dead = true then
    { u with flow := setFlowState i.now { u.flow with nsIdx := none } .closing }
  else u

def FlowState.spills : FlowState → Bool
  | .connecting => true
  | .established => true
  | .closing => true
  | .greeting => false
  | .request => false
  | .resolving => false

def serviceLocalInput (cfg : SocksCfg) (pton : InetPton) (u : Upload) (i : VisitInput) : Upload :=
  let u := detachDead u i
  if u.flow.active = false ∨ u.flow.localEof = true then u
  else
    let u := { u with flow := { u.flow with rxPaused := false } }
    let u := if u.flow.nsIdx ≠ none ∧ u.flow.state.spills = true then spillLoop i.spill u else u
    if u.flow.nsIdx ≠ none ∧ u.flow.state.spills = true ∧ u.flow.input ≠ [] then
      { u with flow := { u.flow with rxPaused := true } }
    else if u.flow.nsIdx ≠ none ∧ u.flow.state = .established then readLoop i.now i.reads u
    else if u.flow.state ≠ .established then recvHandshake cfg pton u i
    else u

def Flow.Elsewhere (f g : Flow) : Prop :=
  g.input = f.input ∧ (f.localEof = true → g.localEof = true) ∧
    (g.state = f.state ∨ g.state ≠ .greeting ∧ g.state ≠ .request)

instance (f g : Flow) : Decidable (f.Elsewhere g) := by
  unfold Flow.Elsewhere
  infer_instance

inductive UploadEvent where
  | visit (i : VisitInput)
  | elsewhere (g : Flow)

def uploadStep (cfg : SocksCfg) (pton : InetPton) (u : Upload) (e : UploadEvent) :
    Upload × List Empty :=
  match e with
  | .visit i => (serviceLocalInput cfg pton u i, [])
  | .elsewhere g => (if u.flow.Elsewhere g then { u with flow := g } else u, [])

/-- What lwIP has accepted and what waits are what was received behind the handshake. -/
structure Upload.Intact (u : Upload) : Prop where
  within : u.consumed ≤ u.received.length
  ordered : u.accepted ++ u.flow.input = u.received.drop u.consumed
  early : u.flow.state = .greeting ∨ u.flow.state = .request → u.accepted = []
  closed : u.shut = true → u.flow.localEof = true ∧ u.accepted = u.received.drop u.consumed

/-- lwIP has accepted bytes. -/
structure Upload.Fed (u v : Upload) (data : List UInt8) : Prop where
  accepted : v.accepted = u.accepted ++ data
  scratch : v.scratch = u.scratch
  commit : v.scratchCommit = u.scratchCommit + data.length
  flow : v.flow = u.flow
  received : v.received = u.received
  consumed : v.consumed = u.consumed
  shut : v.shut = u.shut

theorem commitLoop_fed (writes : List Bool) (left : Nat) (u : Upload) :
    ∃ w, w ≤ left ∧ u.Fed (commitLoop writes left u) (slice u.scratch u.scratchCommit w) := by
  induction writes generalizing left u with
  | nil =>
    refine ⟨0, Nat.zero_le _, ?_⟩
    exact ⟨(List.append_nil _).symm, rfl, rfl, rfl, rfl, rfl, rfl⟩
  | cons ok rest ih =>
    unfold commitLoop
    by_cases stops : left = 0 ∨ ok = false
    · rw [if_pos stops]
      refine ⟨0, Nat.zero_le _, ?_⟩
      exact ⟨(List.append_nil _).symm, rfl, rfl, rfl, rfl, rfl, rfl⟩
    · rw [if_neg stops]
      dsimp only
      obtain ⟨w, bound, fed⟩ := ih (left - min left nsMss)
        { u with
          accepted := u.accepted ++ slice u.scratch u.scratchCommit (min left nsMss)
          scratchCommit := u.scratchCommit + min left nsMss }
      refine ⟨min left nsMss + w, by omega, ?_⟩
      refine ⟨?_, fed.scratch, ?_, fed.flow, fed.received, fed.consumed, fed.shut⟩
      · rw [fed.accepted, slice_append, List.append_assoc]
      · rw [fed.commit, slice_length, slice_length, Nat.add_assoc]

theorem nsSendCommit_fed (u : Upload) (n : Nat) (writes : List Bool) :
    ∃ w, w ≤ n ∧ u.Fed (nsSendCommit u n writes) (slice u.scratch u.scratchCommit w) := by
  obtain ⟨w, bound, fed⟩ :=
    commitLoop_fed writes (min n (nsScratchSlots * nsMss - u.scratchCommit)) u
  exact ⟨w, Nat.le_trans bound (Nat.min_le_left _ _), fed⟩

theorem spillSlots_fed (input : List UInt8) (slots k used : Nat) (writes : List (List Bool))
    (u : Upload) (aligned : u.scratchCommit = k * nsMss) (within : used ≤ input.length) :
    ∃ w, used + w ≤ input.length ∧
      (spillSlots input slots k used writes u).2 = used + w ∧
      (spillSlots input slots k used writes u).1.accepted =
        u.accepted ++ (input.drop used).take w ∧
      (spillSlots input slots k used writes u).1.received = u.received ∧
      (spillSlots input slots k used writes u).1.consumed = u.consumed ∧
      (spillSlots input slots k used writes u).1.shut = u.shut := by
  induction slots generalizing k used writes u with
  | zero =>
    refine ⟨0, within, rfl, ?_, rfl, rfl, rfl⟩
    rw [List.take_zero, List.append_nil]
    rfl
  | succ slots ih =>
    unfold spillSlots
    by_cases done : input.length ≤ used
    · rw [if_pos done]
      refine ⟨0, within, rfl, ?_, rfl, rfl, rfl⟩
      rw [List.take_zero, List.append_nil]
    · rw [if_neg done]
      dsimp only
      generalize size : min (input.length - used) nsMss = take
      have fits : used + take ≤ input.length := by omega
      obtain ⟨w, bound, fed⟩ := nsSendCommit_fed
        { u with scratch := copy u.scratch (k * nsMss) ((input.drop used).take take) } take
        (writes.headD [])
      have sent : slice (copy u.scratch (k * nsMss) ((input.drop used).take take))
          u.scratchCommit w = (input.drop used).take w := by
        have read := slice_copy u.scratch (k * nsMss) ((input.drop used).take take) 0 w (by
          rw [List.length_take, List.length_drop]
          omega)
        rw [aligned]
        rwa [Nat.add_zero, List.drop_zero, List.take_take, Nat.min_eq_left bound] at read
      have accepted := fed.accepted
      have commit := fed.commit
      rw [sent] at accepted
      rw [slice_length] at commit
      have written : (nsSendCommit
          { u with scratch := copy u.scratch (k * nsMss) ((input.drop used).take take) } take
          (writes.headD [])).scratchCommit - u.scratchCommit = w := by
        rw [commit]
        exact Nat.add_sub_cancel_left _ _
      rw [written]
      by_cases stops : w < take ∨ take < nsMss
      · rw [if_pos stops]
        exact ⟨w, by omega, rfl, accepted, fed.received, fed.consumed, fed.shut⟩
      · rw [if_neg stops]
        have whole : w = nsMss := by omega
        obtain ⟨w', bound', used', accepted', received', consumed', shut'⟩ :=
          ih (k + 1) (used + w) writes.tail _ (by
            rw [commit]
            show u.scratchCommit + w = (k + 1) * nsMss
            rw [aligned, whole, Nat.add_mul, Nat.one_mul]) (by omega)
        refine ⟨w + w', by omega, by rw [used', Nat.add_assoc], ?_,
          received'.trans fed.received, consumed'.trans fed.consumed, shut'.trans fed.shut⟩
        rw [accepted', accepted, List.append_assoc, ← List.drop_drop, ← List.take_add]

/-- Bytes have moved from the input to lwIP. -/
structure Upload.Moves (u v : Upload) : Prop where
  joined : v.accepted ++ v.flow.input = u.accepted ++ u.flow.input
  received : v.received = u.received
  consumed : v.consumed = u.consumed
  shut : v.shut = u.shut
  state : v.flow.state = u.flow.state
  localEof : v.flow.localEof = u.flow.localEof
  nsIdx : v.flow.nsIdx = u.flow.nsIdx

theorem Upload.Moves.refl (u : Upload) : u.Moves u := ⟨rfl, rfl, rfl, rfl, rfl, rfl, rfl⟩

theorem spillBatch_moves (u : Upload) (i : FeedInput) : u.Moves (spillBatch u i) := by
  obtain ⟨w, bound, used, accepted, received, consumed, shut⟩ :=
    spillSlots_fed u.flow.input (nsSendReservev i.sndBuf) 0 0 i.writes
      { u with scratchCommit := 0 } (Nat.zero_mul _).symm (Nat.zero_le _)
  refine ⟨?_, received, consumed, shut, rfl, rfl, rfl⟩
  show (spillSlots u.flow.input (nsSendReservev i.sndBuf) 0 0 i.writes
    { u with scratchCommit := 0 }).1.accepted ++ u.flow.input.drop (spillSlots u.flow.input
      (nsSendReservev i.sndBuf) 0 0 i.writes { u with scratchCommit := 0 }).2 = _
  rw [accepted, used, List.drop_zero, Nat.zero_add, List.append_assoc, List.take_append_drop]

theorem spillLoop_moves (inputs : List FeedInput) (u : Upload) : u.Moves (spillLoop inputs u) := by
  induction inputs generalizing u with
  | nil => exact .refl u
  | cons i rest ih =>
    unfold spillLoop
    split
    · exact .refl u
    · have first := spillBatch_moves u i
      dsimp only
      split
      · have later := ih (spillBatch u i)
        exact ⟨later.joined.trans first.joined, later.received.trans first.received,
          later.consumed.trans first.consumed, later.shut.trans first.shut,
          later.state.trans first.state, later.localEof.trans first.localEof,
          later.nsIdx.trans first.nsIdx⟩
      · exact first

theorem feedSlots_fed (data : List UInt8) (slots left : Nat) (writes : List (List Bool))
    (u : Upload) (within : left ≤ data.length) (cursor : u.scratchCommit = data.length - left)
    (filled : ∀ skip len, skip + len ≤ data.length →
      slice u.scratch skip len = (data.drop skip).take len) :
    ∃ rest, rest ≤ left ∧ (feedSlots slots left writes u).2 = rest ∧
      (feedSlots slots left writes u).1.accepted =
        u.accepted ++ (data.drop (data.length - left)).take (left - rest) ∧
      (feedSlots slots left writes u).1.scratch = u.scratch ∧
      (feedSlots slots left writes u).1.received = u.received ∧
      (feedSlots slots left writes u).1.consumed = u.consumed ∧
      (feedSlots slots left writes u).1.shut = u.shut := by
  induction slots generalizing left writes u with
  | zero =>
    refine ⟨left, Nat.le_refl _, rfl, ?_, rfl, rfl, rfl, rfl⟩
    rw [Nat.sub_self, List.take_zero, List.append_nil]
    rfl
  | succ slots ih =>
    unfold feedSlots
    by_cases done : left = 0
    · rw [if_pos done]
      refine ⟨0, Nat.zero_le _, rfl, ?_, rfl, rfl, rfl, rfl⟩
      rw [done, Nat.sub_self, List.take_zero, List.append_nil]
    · rw [if_neg done]
      dsimp only
      obtain ⟨w, bound, fed⟩ := nsSendCommit_fed u (min left nsMss) (writes.headD [])
      have accepted := fed.accepted
      have commit := fed.commit
      rw [cursor, filled _ _ (by omega)] at accepted
      rw [slice_length] at commit
      have written : (nsSendCommit u (min left nsMss) (writes.headD [])).scratchCommit -
          u.scratchCommit = w := by
        rw [commit]
        exact Nat.add_sub_cancel_left _ _
      rw [written]
      by_cases stops : w < min left nsMss
      · rw [if_pos stops]
        refine ⟨left - w, by omega, rfl, ?_, fed.scratch, fed.received, fed.consumed, fed.shut⟩
        rw [accepted, show left - (left - w) = w by omega]
      · rw [if_neg stops]
        obtain ⟨rest, least, out, accepted', scratch', received', consumed', shut'⟩ :=
          ih (left - w) writes.tail _ (by omega) (by rw [commit, cursor]; omega)
            (by rw [fed.scratch]; exact filled)
        refine ⟨rest, by omega, out, ?_, scratch'.trans fed.scratch,
          received'.trans fed.received, consumed'.trans fed.consumed, shut'.trans fed.shut⟩
        have next : data.length - (left - w) = data.length - left + w := by omega
        have count : left - rest = w + (left - w - rest) := by omega
        rw [accepted', accepted, List.append_assoc, next, ← List.drop_drop, count, List.take_add]

theorem feedBatch_joined (u : Upload) (slots : Nat) (data : List UInt8)
    (writes : List (List Bool)) (empty : u.flow.input = []) :
    (feedBatch u slots data writes).1.accepted ++ (feedBatch u slots data writes).1.flow.input =
        u.accepted ++ data ∧
      (feedBatch u slots data writes).1.received = u.received ++ data ∧
      (feedBatch u slots data writes).1.consumed = u.consumed ∧
      (feedBatch u slots data writes).1.shut = u.shut ∧
      (feedBatch u slots data writes).1.flow.state = u.flow.state ∧
      (feedBatch u slots data writes).1.flow.localEof = u.flow.localEof ∧
      ((feedBatch u slots data writes).2 = 0 →
        (feedBatch u slots data writes).1.flow.input = []) := by
  have filled : ∀ skip len, skip + len ≤ data.length →
      slice (copy u.scratch 0 data) skip len = (data.drop skip).take len := by
    intro skip len inside
    have read := slice_copy u.scratch 0 data skip len inside
    rwa [Nat.zero_add] at read
  obtain ⟨rest, least, out, accepted, scratch, received, consumed, shut⟩ :=
    feedSlots_fed data slots data.length writes
      { u with
        scratch := copy u.scratch 0 data
        scratchCommit := 0
        received := u.received ++ data } (Nat.le_refl _) (Nat.sub_self _).symm filled
  have tail : (feedBatch u slots data writes).1.flow.input = data.drop (data.length - rest) := by
    show u.flow.input ++ slice (feedSlots slots data.length writes _).1.scratch
      (data.length - (feedSlots slots data.length writes _).2)
      (feedSlots slots data.length writes _).2 = _
    rw [scratch, out, empty, List.nil_append]
    dsimp only
    rw [filled _ _ (by omega)]
    refine List.take_of_length_le ?_
    rw [List.length_drop]
    omega
  refine ⟨?_, received, consumed, shut, rfl, rfl, fun none => ?_⟩
  · rw [tail]
    show (feedSlots slots data.length writes _).1.accepted ++ _ = _
    rw [accepted, Nat.sub_self, List.drop_zero, List.append_assoc, List.take_append_drop]
  · have zero : rest = 0 := out.symm.trans none
    rw [tail, zero, Nat.sub_zero, List.drop_length]

theorem httpHandshake_suffix (pton : InetPton) (now : UInt64) (f : Flow) :
    (httpHandshake pton now f).1.input <:+ f.input := by
  have error : ∀ g : Flow, (queueSocksError now g 5).input <:+ g.input :=
    fun g => by rw [queueSocksError_input]
  unfold httpHandshake
  dsimp only
  split
  · exact List.suffix_refl _
  · split
    · exact error f
    · split
      · exact error _
      · split
        · exact error _
        · split
          · exact List.drop_suffix _ _
          · exact List.suffix_refl _

variable (cfg : SocksCfg)

theorem handshakeAuth_suffix (now : UInt64) (f : Flow) :
    (handshakeAuth cfg now f).2.1.input <:+ f.input := by
  unfold handshakeAuth
  split
  · exact List.suffix_refl _
  · exact List.suffix_refl _
  · exact List.suffix_refl _
  · dsimp only
    split
    · exact List.drop_suffix _ _
    · exact List.drop_suffix _ _

theorem handshakeGreeting_suffix (pton : InetPton) (now : UInt64) (f : Flow) :
    (handshakeGreeting cfg pton now f).2.1.input <:+ f.input := by
  unfold handshakeGreeting
  split
  · exact handshakeAuth_suffix cfg now f
  · split
    · exact List.suffix_refl _
    · split
      · split
        · exact httpHandshake_suffix pton now { f with httpMode := true }
        · exact List.suffix_refl _
        · exact List.suffix_refl _
      · split
        · exact List.suffix_refl _
        · split
          · exact List.suffix_refl _
          · dsimp only
            split
            · exact List.suffix_refl _
            · split
              · exact List.drop_suffix _ _
              · exact List.drop_suffix _ _

theorem handshakeRequest_suffix (now : UInt64) (f : Flow) :
    (handshakeRequest now f).1.input <:+ f.input := by
  unfold handshakeRequest
  split
  · exact List.suffix_refl _
  · dsimp only
    rw [queueSocksError_input]
  · split
    · exact List.drop_suffix _ _
    · exact List.drop_suffix _ _
    · exact List.drop_suffix _ _

theorem handshakePasses_suffix (pton : InetPton) (now : UInt64) (passes : Nat)
    (f : Flow) : (handshakePasses cfg pton now passes f).1.input <:+ f.input := by
  induction passes generalizing f with
  | zero => exact List.suffix_refl _
  | succ passes ih =>
    unfold handshakePasses
    cases f.state with
    | greeting =>
      dsimp only
      split
      · exact httpHandshake_suffix pton now f
      · have first := handshakeGreeting_suffix cfg pton now f
        have both := (ih (handshakeGreeting cfg pton now f).2.1).trans first
        split
        · exact first
        · split
          · split
            · exact both
            · exact first
          · split
            · exact first
            · exact both
    | request => exact handshakeRequest_suffix now f
    | _ => exact List.suffix_refl _

theorem processSocksHandshake_past (pton : InetPton) (now : UInt64) {f : Flow}
    (greeting : f.state ≠ .greeting) (request : f.state ≠ .request) :
    processSocksHandshake cfg pton now f = (f, []) := by
  unfold processSocksHandshake handshakePasses
  cases state : f.state with
  | greeting => exact absurd state greeting
  | request => exact absurd state request
  | _ => rfl

theorem startedFlow_input (start : Flow → PpTarget → Flow) (f : Flow)
    (calls : List HandshakeCall) : (calls.foldl (startedFlow start) f).input = f.input := by
  induction calls generalizing f with
  | nil => rfl
  | cons call rest ih =>
    rw [List.foldl_cons, ih]
    cases call <;> rfl

variable {u : Upload}

theorem Upload.Intact.of_open (within : u.consumed ≤ u.received.length)
    (ordered : u.accepted ++ u.flow.input = u.received.drop u.consumed)
    (early : u.flow.state = .greeting ∨ u.flow.state = .request → u.accepted = [])
    (isOpen : u.shut = false) : u.Intact :=
  ⟨within, ordered, early, fun shut => absurd (isOpen.symm.trans shut) Bool.false_ne_true⟩

theorem Upload.Intact.of_flow (intact : u.Intact) (g : Flow)
    (input : g.input = u.flow.input) (eof : u.flow.localEof = true → g.localEof = true)
    (state : g.state = u.flow.state ∨ g.state ≠ .greeting ∧ g.state ≠ .request) :
    Upload.Intact { u with flow := g } where
  within := intact.within
  ordered := by
    rw [← intact.ordered, ← input]
  early := by
    intro handshake
    rcases state with same | ⟨greeting, request⟩
    · exact intact.early (same ▸ handshake)
    · exact absurd handshake (not_or.mpr ⟨greeting, request⟩)
  closed := fun shut => ⟨eof (intact.closed shut).1, (intact.closed shut).2⟩

theorem Upload.Intact.of_moves {v : Upload} (intact : u.Intact) (isOpen : u.shut = false)
    (moves : u.Moves v) (past : u.flow.state ≠ .greeting ∧ u.flow.state ≠ .request) :
    v.Intact := by
  refine .of_open ?_ ?_ ?_ (moves.shut.trans isOpen)
  · rw [moves.consumed, moves.received]
    exact intact.within
  · rw [moves.joined, moves.consumed, moves.received]
    exact intact.ordered
  · rw [moves.state]
    exact fun handshake => absurd handshake (not_or.mpr past)

theorem uploadHandshake_intact (pton : InetPton) (i : VisitInput)
    (intact : u.Intact) (isOpen : u.shut = false) : (uploadHandshake cfg pton u i).Intact := by
  unfold uploadHandshake
  split
  · exact intact
  by_cases handshake : u.flow.state = .greeting ∨ u.flow.state = .request
  · have nothing := intact.early handshake
    have suffix : (processSocksHandshake cfg pton i.now u.flow).1.input <:+ u.flow.input :=
      handshakePasses_suffix cfg pton i.now 3 u.flow
    have ordered := intact.ordered
    rw [nothing, List.nil_append] at ordered
    have count : u.flow.input.length = u.received.length - u.consumed := by
      rw [ordered, List.length_drop]
    have within := intact.within
    refine .of_open ?_ ?_ (fun _ => nothing) isOpen
    · dsimp only
      omega
    · dsimp only
      rw [nothing, List.nil_append, startedFlow_input, ← List.drop_drop, ← ordered]
      exact List.suffix_iff_eq_drop.mp suffix
  · obtain ⟨greeting, request⟩ := not_or.mp handshake
    rw [processSocksHandshake_past cfg pton i.now greeting request]
    dsimp only [List.foldl_nil]
    rw [Nat.sub_self, Nat.add_zero]
    exact intact

theorem Upload.Intact.hangup (intact : u.Intact) (now : UInt64) :
    Upload.Intact { u with flow := setFlowState now { u.flow with localEof := true } .closing } :=
  intact.of_flow _ rfl (fun _ => rfl) (Or.inr ⟨FlowState.noConfusion, FlowState.noConfusion⟩)

theorem recvHandshake_intact (pton : InetPton) (i : VisitInput)
    (intact : u.Intact) (isOpen : u.shut = false) : (recvHandshake cfg pton u i).Intact := by
  have hungUp := uploadHandshake_intact cfg pton i (intact.hangup i.now) isOpen
  unfold recvHandshake
  split
  · exact intact
  · split
    · exact intact.of_flow _ rfl id (Or.inl rfl)
    · split
      · exact hungUp
      · rename_i data recv
        dsimp only
        have grown : Upload.Intact { u with
            flow := { u.flow with input := u.flow.input ++ data.take tcpRxChunk }
            received := u.received ++ data.take tcpRxChunk } := by
          refine .of_open ?_ ?_ intact.early isOpen
          · exact Nat.le_trans intact.within (by
              rw [List.length_append]
              exact Nat.le_add_right _ _)
          · dsimp only
            rw [List.drop_append_of_le_length intact.within, ← intact.ordered, List.append_assoc]
        split
        · exact uploadHandshake_intact cfg pton i (grown.hangup i.now) isOpen
        · exact uploadHandshake_intact cfg pton i grown isOpen
      · exact uploadHandshake_intact cfg pton i intact isOpen
      · exact hungUp

theorem readLoop_intact (now : UInt64) (inputs : List ReadInput)
    (intact : u.Intact) (isOpen : u.shut = false) (established : u.flow.state = .established)
    (empty : u.flow.input = []) : (readLoop now inputs u).Intact := by
  induction inputs generalizing u with
  | nil => exact intact
  | cons i rest ih =>
    unfold readLoop
    dsimp only
    split
    · exact intact.of_flow _ rfl id (Or.inl rfl)
    · split
      · rename_i data result
        split
        · exact intact
        · obtain ⟨joined, received, consumed, shut, state, eof, drained⟩ :=
            feedBatch_joined u (nsSendReservev i.feed.sndBuf)
              (data.take (nsSendReservev i.feed.sndBuf * nsMss)) i.feed.writes empty
          have isOpen' := shut.trans isOpen
          have established' := state.trans established
          have ordered := intact.ordered
          rw [empty, List.append_nil] at ordered
          have fed : (feedBatch u (nsSendReservev i.feed.sndBuf)
              (data.take (nsSendReservev i.feed.sndBuf * nsMss)) i.feed.writes).1.Intact := by
            refine .of_open ?_ ?_ ?_ isOpen'
            · rw [consumed, received, List.length_append]
              exact Nat.le_trans intact.within (Nat.le_add_right _ _)
            · rw [joined, consumed, received, List.drop_append_of_le_length intact.within,
                ← ordered]
            · rw [established']
              rintro (handshake | handshake) <;> exact FlowState.noConfusion handshake
          split
          · exact fed.of_flow _ rfl id (Or.inl rfl)
          · rename_i whole
            exact ih fed isOpen' established' (drained (Nat.eq_zero_of_not_pos whole))
      · have ordered := intact.ordered
        rw [empty, List.append_nil] at ordered
        have hungUp := intact.hangup now
        exact ⟨hungUp.within, hungUp.ordered, hungUp.early, fun _ => ⟨rfl, ordered⟩⟩
      · exact intact
      · have hungUp := intact.hangup now
        refine ⟨hungUp.within, hungUp.ordered, hungUp.early, fun shut => ?_⟩
        have closed : u.shut = true := (Bool.or_false _).symm.trans shut
        exact absurd (isOpen.symm.trans closed) Bool.false_ne_true

theorem detachDead_intact (intact : u.Intact) (i : VisitInput) : (detachDead u i).Intact := by
  unfold detachDead
  split
  · exact intact.of_flow _ rfl id (Or.inr ⟨FlowState.noConfusion, FlowState.noConfusion⟩)
  · exact intact

theorem FlowState.spills_past {s : FlowState} (spills : s.spills = true) :
    s ≠ .greeting ∧ s ≠ .request := by
  cases s with
  | greeting => cases spills
  | request => cases spills
  | resolving => cases spills
  | _ => exact ⟨FlowState.noConfusion, FlowState.noConfusion⟩

theorem serviceLocalInput_read (cfg : SocksCfg) (pton : InetPton) (i : VisitInput)
    (intact : u.Intact) (isOpen : u.shut = false) :
    Upload.Intact
      (if u.flow.nsIdx ≠ none ∧ u.flow.state.spills = true ∧ u.flow.input ≠ [] then
        { u with flow := { u.flow with rxPaused := true } }
      else if u.flow.nsIdx ≠ none ∧ u.flow.state = .established then readLoop i.now i.reads u
      else if u.flow.state ≠ .established then recvHandshake cfg pton u i
      else u) := by
  split
  · exact intact.of_flow _ rfl id (Or.inl rfl)
  · rename_i gate
    split
    · rename_i reads
      have spills : u.flow.state.spills = true := by rw [reads.2]; rfl
      have empty : u.flow.input = [] := by
        by_contra left
        exact gate ⟨reads.1, spills, left⟩
      exact readLoop_intact i.now i.reads intact isOpen reads.2 empty
    · split
      · exact recvHandshake_intact cfg pton i intact isOpen
      · exact intact

theorem serviceLocalInput_intact (pton : InetPton)
    (i : VisitInput) (intact : u.Intact) : (serviceLocalInput cfg pton u i).Intact := by
  have detached := detachDead_intact intact i
  unfold serviceLocalInput
  generalize detachDead u i = v at detached ⊢
  dsimp only
  split
  · exact detached
  · rename_i runs
    have still : v.flow.localEof ≠ true := fun eof => runs (Or.inr eof)
    have isOpen : v.shut = false := by
      cases shut : v.shut with
      | false => rfl
      | true => exact absurd (detached.closed shut).1 still
    have resumed : Upload.Intact { v with flow := { v.flow with rxPaused := false } } :=
      detached.of_flow _ rfl id (Or.inl rfl)
    split
    · rename_i spills
      have moves := spillLoop_moves i.spill { v with flow := { v.flow with rxPaused := false } }
      exact serviceLocalInput_read cfg pton i
        (resumed.of_moves isOpen moves (FlowState.spills_past spills.2))
        (moves.shut.trans isOpen)
    · exact serviceLocalInput_read cfg pton i resumed isOpen

theorem uploadStep_intact (pton : InetPton) (u : Upload) (e : UploadEvent)
    (intact : u.Intact) : (uploadStep cfg pton u e).1.Intact := by
  cases e with
  | visit i => exact serviceLocalInput_intact cfg pton i intact
  | elsewhere g =>
    unfold uploadStep
    dsimp only
    split
    · rename_i same
      exact intact.of_flow g same.1 same.2.1 same.2.2
    · exact intact

theorem Upload.start_intact (f : Flow) : (Upload.start f).Intact :=
  .of_open (Nat.le_refl _) rfl (fun _ => rfl) rfl

/-- What tcp_write accepted and the input buffer are what was read behind the handshake. -/
theorem uploadRun_intact (cfg : SocksCfg) (pton : InetPton) (f : Flow)
    (events : List UploadEvent) :
    let u := Trace.final (uploadStep cfg pton) (Upload.start f) events
    u.accepted ++ u.flow.input = u.received.drop u.consumed ∧
      (u.shut = true → u.accepted = u.received.drop u.consumed) := by
  have intact := Trace.final_invariant (uploadStep cfg pton) Upload.Intact
    (uploadStep_intact cfg pton) (Upload.start f) events (Upload.start_intact f)
  exact ⟨intact.ordered, fun shut => (intact.closed shut).2⟩

end Iwan
