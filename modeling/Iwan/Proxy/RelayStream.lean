import Mathlib

/- One direction entry of the kernel relay, with its pending buffer. -/
namespace Iwan

def rpBuf : Nat := 65536

def rpPendLimit : Nat := 2 ^ 20

/-- A count, an error after which the bytes are kept, or another error. -/
inductive RpSent where
  | count (n : Nat)
  | retry
  | error
deriving DecidableEq, Repr

inductive RpRecv where
  | bytes (data : List UInt8)
  | drained
  | pressure
  | interrupted
  | error
deriving DecidableEq, Repr

/-- A direction entry. -/
structure RpEnt where
  pend : List UInt8
  fromEof : Bool
  wrClosed : Bool
deriving DecidableEq, Repr

/-- An entry with the bytes received and sent. -/
structure RpLink where
  ent : RpEnt
  received : List UInt8
  sent : List UInt8
  ended : Bool
  failed : Bool
  served : Bool
  abandoned : Bool
deriving DecidableEq, Repr

def RpLink.start : RpLink :=
  ⟨⟨[], false, false⟩, [], [], false, false, true, false⟩

/-- What a run of sends has taken and left. -/
structure RpPush where
  taken : List UInt8
  left : List UInt8
  failed : Bool

def rpPush : List UInt8 → List RpSent → RpPush
  | data, [] => ⟨[], data, false⟩
  | data, .retry :: _ => ⟨[], data, false⟩
  | data, .error :: _ => ⟨[], data, true⟩
  | data, .count n :: rest =>
    if n = 0 then ⟨[], data, true⟩
    else if data.length ≤ n then ⟨data, [], false⟩
    else
      let later := rpPush (data.drop n) rest
      ⟨data.take n ++ later.taken, later.left, later.failed⟩

def RpLink.half (l : RpLink) : RpLink :=
  { l with ent := { l.ent with pend := [], fromEof := true }, failed := true }

def RpLink.finish (l : RpLink) : RpLink :=
  { l with ent := { l.ent with fromEof := true }, ended := true }

def rpPend (l : RpLink) (data : List UInt8) : RpLink :=
  { l with ent := { l.ent with pend := l.ent.pend ++ data } }

def rpFlush (l : RpLink) (sends : List RpSent) : RpLink :=
  if l.ent.pend = [] then l
  else
    let push := rpPush l.ent.pend sends
    let l := { l with sent := l.sent ++ push.taken }
    if push.failed then l.half else { l with ent := { l.ent with pend := push.left } }

def rpForward (l : RpLink) (chunk : List UInt8) (sends : List RpSent) : RpLink × Bool :=
  let l := { l with received := l.received ++ chunk }
  if l.ent.pend = [] then
    let push := rpPush chunk sends
    let l := { l with sent := l.sent ++ push.taken }
    if push.failed then (l.half, false)
    else if push.left = [] then (l, true)
    else if rpPendLimit < l.ent.pend.length + push.left.length then (l, false)
    else (rpPend l push.left, true)
  else if rpPendLimit < l.ent.pend.length + chunk.length then (l, false)
  else (rpPend l chunk, true)

def rpReceive (l : RpLink) (recv : RpRecv) (sends : List RpSent) : RpLink × Bool :=
  match recv with
  | .bytes data => if data = [] then (l.finish, false) else rpForward l (data.take rpBuf) sends
  | .drained => (l, false)
  | .pressure => (l, false)
  | .interrupted => (l, true)
  | .error => (l.finish, false)

def rpReadLoop : RpLink → List (RpRecv × List RpSent) → RpLink
  | l, [] => l
  | l, read :: rest =>
    if rpPendLimit < l.ent.pend.length + rpBuf then l
    else
      let next := rpReceive l read.1 read.2
      if next.2 then rpReadLoop next.1 rest else next.1

/-- What one pass meets at an entry. -/
structure RpPass where
  readable : Bool
  reads : List (RpRecv × List RpSent)
  flush : List RpSent
deriving DecidableEq, Repr

def rpServe (l : RpLink) (pass : RpPass) : RpLink :=
  let l :=
    if pass.readable && !l.ent.fromEof && l.ent.pend.length + rpBuf ≤ rpPendLimit then
      rpReadLoop l pass.reads
    else l
  rpFlush l pass.flush

def RpLink.shutdown (l : RpLink) : RpLink :=
  { l with ent := { l.ent with wrClosed := true }, served := false }

def rpRetire (l : RpLink) : RpLink :=
  if l.ent.fromEof ∧ l.ent.pend = [] then l.shutdown else l

/-- A round of the direction thread. -/
inductive RpRound where
  | interrupted
  | pass (p : RpPass)
  | leave
deriving DecidableEq, Repr

def rpDirRound (l : RpLink) (round : RpRound) : RpLink :=
  if l.served then
    match round with
    | .interrupted => l
    | .pass p => rpRetire (rpServe l p)
    -- rp_dir_retire_all: the pending bytes stay behind until the connection is freed
    | .leave => { l.shutdown with abandoned := true }
  else l

def rpDirMain (rounds : List RpRound) : RpLink := rounds.foldl rpDirRound RpLink.start

theorem rpPush_split (data : List UInt8) (sends : List RpSent) :
    (rpPush data sends).taken ++ (rpPush data sends).left = data := by
  induction sends generalizing data with
  | nil => rfl
  | cons result rest ih =>
    cases result with
    | count n =>
      by_cases none : n = 0
      · simp only [rpPush, none, ↓reduceIte, List.nil_append]
      by_cases all : data.length ≤ n
      · simp only [rpPush, none, all, ↓reduceIte, List.append_nil]
      · simp only [rpPush, none, all, ↓reduceIte, List.append_assoc, ih, List.take_append_drop]
    | _ => rfl

/-- An entry that is served. -/
structure RpLink.Flows (l : RpLink) : Prop where
  bounded : l.ent.pend.length ≤ rpPendLimit
  ordered : l.failed = false → l.sent ++ l.ent.pend = l.received
  behind : l.sent <+: l.received
  broken : l.failed = true → l.ent.fromEof = true ∧ l.ent.pend = []
  closing : l.ent.fromEof = true → l.ended = true ∨ l.failed = true
  writable : l.ent.wrClosed = false
  kept : l.abandoned = false

variable {l : RpLink}

theorem RpLink.Flows.unbroken (flows : l.Flows) (reading : l.ent.fromEof = false) :
    l.failed = false := by
  cases failed : l.failed with
  | false => rfl
  | true => rw [(flows.broken failed).1] at reading; cases reading

theorem RpLink.push_follows {data more : List UInt8} (sends : List RpSent)
    (next : l.sent ++ data = l.received ++ more) :
    (l.sent ++ (rpPush data sends).taken) ++ (rpPush data sends).left = l.received ++ more ∧
      l.sent ++ (rpPush data sends).taken <+: l.received ++ more := by
  have whole : (l.sent ++ (rpPush data sends).taken) ++ (rpPush data sends).left =
      l.received ++ more := by
    rw [List.append_assoc, rpPush_split, next]
  exact ⟨whole, ⟨_, whole⟩⟩

theorem rpPush_left_le (data : List UInt8) (sends : List RpSent) :
    (rpPush data sends).left.length ≤ data.length := by
  have split := congrArg List.length (rpPush_split data sends)
  rw [List.length_append] at split
  omega

theorem rpFlush_flows (l : RpLink) (sends : List RpSent) (flows : l.Flows) :
    (rpFlush l sends).Flows ∧ (rpFlush l sends).served = l.served := by
  by_cases empty : l.ent.pend = []
  · rw [rpFlush, if_pos empty]
    exact ⟨flows, rfl⟩
  have open_ : l.failed = false := by
    cases failed : l.failed with
    | false => rfl
    | true => exact absurd (flows.broken failed).2 empty
  have next : l.sent ++ l.ent.pend = l.received ++ [] := by
    rw [flows.ordered open_, List.append_nil]
  obtain ⟨whole, behind⟩ := RpLink.push_follows sends next
  rw [List.append_nil] at whole behind
  simp only [rpFlush, if_neg empty]
  cases failed : (rpPush l.ent.pend sends).failed with
  | true =>
    refine ⟨⟨Nat.zero_le _, nofun, behind, fun _ => ⟨rfl, rfl⟩, fun _ => .inr rfl,
      flows.writable, flows.kept⟩, rfl⟩
  | false =>
    have bounded : (rpPush l.ent.pend sends).left.length ≤ rpPendLimit :=
      Nat.le_trans (rpPush_left_le l.ent.pend sends) flows.bounded
    refine ⟨⟨bounded, fun _ => whole, behind, ?_, flows.closing, flows.writable,
      flows.kept⟩, rfl⟩
    intro broken
    rw [show l.failed = true from broken] at open_
    cases open_

theorem RpLink.Flows.finish (flows : l.Flows) : l.finish.Flows :=
  ⟨flows.bounded, flows.ordered, flows.behind, fun failed => ⟨rfl, (flows.broken failed).2⟩,
    fun _ => .inl rfl, flows.writable, flows.kept⟩

theorem rpForward_flows (l : RpLink) (chunk : List UInt8) (sends : List RpSent)
    (flows : l.Flows) (reading : l.ent.fromEof = false)
    (fits : l.ent.pend.length + chunk.length ≤ rpPendLimit) :
    (rpForward l chunk sends).1.Flows ∧
      (rpForward l chunk sends).1.served = l.served ∧
      ((rpForward l chunk sends).2 = true → (rpForward l chunk sends).1.ent.fromEof = false) := by
  have open_ := flows.unbroken reading
  have notBroken : ¬ l.failed = true := by rw [open_]; exact Bool.false_ne_true
  have notClosing : ¬ l.ent.fromEof = true := by rw [reading]; exact Bool.false_ne_true
  by_cases empty : l.ent.pend = []
  · have next : l.sent ++ chunk = l.received ++ chunk := by
      rw [← flows.ordered open_, empty, List.append_nil]
    obtain ⟨whole, behind⟩ := RpLink.push_follows sends next
    have room : ¬ rpPendLimit < l.ent.pend.length + (rpPush chunk sends).left.length := by
      have := rpPush_left_le chunk sends
      omega
    simp only [rpForward, if_pos empty]
    cases failed : (rpPush chunk sends).failed with
    | true =>
      exact ⟨⟨Nat.zero_le _, nofun, behind, fun _ => ⟨rfl, rfl⟩, fun _ => .inr rfl,
        flows.writable, flows.kept⟩, rfl, nofun⟩
    | false =>
      by_cases drained : (rpPush chunk sends).left = []
      · rw [drained, List.append_nil] at whole
        rw [if_neg Bool.false_ne_true, if_pos drained]
        refine ⟨⟨flows.bounded, fun _ => ?_, behind, fun broken => absurd broken notBroken,
          fun closing => absurd closing notClosing, flows.writable, flows.kept⟩, rfl,
          fun _ => reading⟩
        show _ ++ l.ent.pend = _
        rw [empty, List.append_nil]
        exact whole
      · rw [if_neg Bool.false_ne_true, if_neg drained, if_neg room]
        refine ⟨⟨?_, fun _ => ?_, behind, fun broken => absurd broken notBroken,
          fun closing => absurd closing notClosing, flows.writable, flows.kept⟩, rfl,
          fun _ => reading⟩
        · show (l.ent.pend ++ (rpPush chunk sends).left).length ≤ rpPendLimit
          rw [List.length_append]
          omega
        · show _ ++ (l.ent.pend ++ (rpPush chunk sends).left) = _
          rw [empty, List.nil_append]
          exact whole
  · simp only [rpForward, if_neg empty]
    rw [if_neg (by omega)]
    refine ⟨⟨?_, fun _ => ?_, flows.behind.trans (List.prefix_append _ _),
      fun broken => absurd broken notBroken, fun closing => absurd closing notClosing,
      flows.writable, flows.kept⟩, rfl, fun _ => reading⟩
    · show (l.ent.pend ++ chunk).length ≤ rpPendLimit
      rw [List.length_append]
      omega
    · show l.sent ++ (l.ent.pend ++ chunk) = l.received ++ chunk
      rw [← List.append_assoc, flows.ordered open_]

theorem rpReceive_flows (l : RpLink) (recv : RpRecv) (sends : List RpSent) (flows : l.Flows)
    (reading : l.ent.fromEof = false) (room : l.ent.pend.length + rpBuf ≤ rpPendLimit) :
    (rpReceive l recv sends).1.Flows ∧
      (rpReceive l recv sends).1.served = l.served ∧
      ((rpReceive l recv sends).2 = true → (rpReceive l recv sends).1.ent.fromEof = false) := by
  cases recv with
  | bytes data =>
    by_cases eof : data = []
    · rw [rpReceive, if_pos eof]
      exact ⟨flows.finish, rfl, nofun⟩
    · have short := List.length_take_le rpBuf data
      rw [rpReceive, if_neg eof]
      exact rpForward_flows l (data.take rpBuf) sends flows reading (by omega)
  | interrupted => exact ⟨flows, rfl, fun _ => reading⟩
  | error => exact ⟨flows.finish, rfl, nofun⟩
  | _ => exact ⟨flows, rfl, nofun⟩

theorem rpReadLoop_flows (reads : List (RpRecv × List RpSent)) (l : RpLink) (flows : l.Flows)
    (reading : l.ent.fromEof = false) :
    (rpReadLoop l reads).Flows ∧ (rpReadLoop l reads).served = l.served := by
  induction reads generalizing l with
  | nil => exact ⟨flows, rfl⟩
  | cons read rest ih =>
    by_cases full : rpPendLimit < l.ent.pend.length + rpBuf
    · rw [rpReadLoop, if_pos full]
      exact ⟨flows, rfl⟩
    rw [rpReadLoop, if_neg full]
    obtain ⟨after, served, goesOn⟩ :=
      rpReceive_flows l read.1 read.2 flows reading (by omega)
    dsimp only
    cases more : (rpReceive l read.1 read.2).2 with
    | false => exact ⟨after, served⟩
    | true =>
      obtain ⟨done, same⟩ := ih (rpReceive l read.1 read.2).1 after (goesOn more)
      exact ⟨done, same.trans served⟩

theorem rpServe_flows (l : RpLink) (pass : RpPass) (flows : l.Flows) :
    (rpServe l pass).Flows ∧ (rpServe l pass).served = l.served := by
  unfold rpServe
  by_cases reads : (pass.readable && !l.ent.fromEof &&
      decide (l.ent.pend.length + rpBuf ≤ rpPendLimit)) = true
  · have reading : l.ent.fromEof = false := by
      cases eof : l.ent.fromEof with
      | false => rfl
      | true => simp [eof] at reads
    rw [if_pos reads]
    obtain ⟨read, served⟩ := rpReadLoop_flows pass.reads l flows reading
    obtain ⟨done, same⟩ := rpFlush_flows _ pass.flush read
    exact ⟨done, same.trans served⟩
  · rw [if_neg reads]
    exact rpFlush_flows l pass.flush flows

/-- The entry is served, or was retired with everything sent or after a hard error, or given up. -/
structure RpLink.Sound (l : RpLink) : Prop where
  bounded : l.ent.pend.length ≤ rpPendLimit
  ordered : l.failed = false → l.sent ++ l.ent.pend = l.received
  behind : l.sent <+: l.received
  flows : l.served = true → l.Flows
  shut : l.ent.wrClosed = true →
    (l.ended = true ∧ l.sent = l.received) ∨ l.failed = true ∨ l.abandoned = true

theorem RpLink.Flows.sound (flows : l.Flows) : l.Sound := by
  refine ⟨flows.bounded, flows.ordered, flows.behind, fun _ => flows, fun shut => ?_⟩
  rw [flows.writable] at shut
  cases shut

theorem rpRetire_sound (l : RpLink) (flows : l.Flows) : (rpRetire l).Sound := by
  by_cases done : l.ent.fromEof = true ∧ l.ent.pend = []
  · rw [rpRetire, if_pos done]
    refine ⟨flows.bounded, flows.ordered, flows.behind, nofun, fun _ => ?_⟩
    cases failed : l.failed with
    | true => exact .inr (.inl failed)
    | false =>
      have ended := flows.closing done.1
      rw [failed] at ended
      have whole := flows.ordered failed
      rw [done.2, List.append_nil] at whole
      exact .inl ⟨ended.resolve_right Bool.false_ne_true, whole⟩
  · rw [rpRetire, if_neg done]
    exact flows.sound

theorem rpDirRound_sound (l : RpLink) (round : RpRound) (sound : l.Sound) :
    (rpDirRound l round).Sound := by
  by_cases served : l.served = true
  · have flows := sound.flows served
    unfold rpDirRound
    rw [if_pos served]
    cases round with
    | interrupted => exact sound
    | pass p => exact rpRetire_sound (rpServe l p) (rpServe_flows l p flows).1
    | leave =>
      exact ⟨flows.bounded, flows.ordered, flows.behind, nofun, fun _ => .inr (.inr rfl)⟩
  · unfold rpDirRound
    rw [if_neg served]
    exact sound

def RpSent.Soft : RpSent → Prop
  | .count n => n ≠ 0
  | .retry => True
  | .error => False

def RpRound.Soft : RpRound → Prop
  | .pass p =>
    (∀ read ∈ p.reads, ∀ result ∈ read.2, result.Soft) ∧ ∀ result ∈ p.flush, result.Soft
  | .interrupted => True
  | .leave => True

theorem rpPush_soft (data : List UInt8) (sends : List RpSent)
    (soft : ∀ result ∈ sends, result.Soft) : (rpPush data sends).failed = false := by
  induction sends generalizing data with
  | nil => rfl
  | cons result rest ih =>
    have here := soft result List.mem_cons_self
    have later : ∀ data, (rpPush data rest).failed = false := fun data =>
      ih data fun r found => soft r (List.mem_cons_of_mem _ found)
    cases result with
    | retry => rfl
    | error => exact absurd here id
    | count n =>
      simp only [rpPush, if_neg (show ¬ n = 0 from here)]
      by_cases all : data.length ≤ n
      · rw [if_pos all]
      · rw [if_neg all]
        exact later (data.drop n)

theorem rpFlush_failed (l : RpLink) (sends : List RpSent)
    (soft : ∀ result ∈ sends, result.Soft) : (rpFlush l sends).failed = l.failed := by
  by_cases empty : l.ent.pend = []
  · rw [rpFlush, if_pos empty]
  · simp only [rpFlush, if_neg empty, rpPush_soft l.ent.pend sends soft, Bool.false_eq_true,
      ↓reduceIte]

theorem rpReceive_failed (l : RpLink) (recv : RpRecv) (sends : List RpSent)
    (soft : ∀ result ∈ sends, result.Soft) : (rpReceive l recv sends).1.failed = l.failed := by
  cases recv with
  | bytes data =>
    by_cases eof : data = []
    · rw [rpReceive, if_pos eof]
      rfl
    · simp only [rpReceive, if_neg eof, rpForward, rpPush_soft _ sends soft,
        Bool.false_eq_true, ↓reduceIte]
      split_ifs <;> rfl
  | _ => rfl

theorem rpReadLoop_failed (reads : List (RpRecv × List RpSent)) (l : RpLink)
    (soft : ∀ read ∈ reads, ∀ result ∈ read.2, result.Soft) :
    (rpReadLoop l reads).failed = l.failed := by
  induction reads generalizing l with
  | nil => rfl
  | cons read rest ih =>
    have later := fun l' => ih l' fun r found => soft r (List.mem_cons_of_mem _ found)
    have here := rpReceive_failed l read.1 read.2 (soft read List.mem_cons_self)
    simp only [rpReadLoop]
    split_ifs
    · rfl
    · rw [later, here]
    · exact here

theorem rpDirRound_failed (l : RpLink) (round : RpRound) (soft : round.Soft) :
    (rpDirRound l round).failed = l.failed := by
  by_cases served : l.served = true
  · unfold rpDirRound
    rw [if_pos served]
    cases round with
    | pass p =>
      have retired : ∀ l' : RpLink, (rpRetire l').failed = l'.failed := by
        intro l'
        simp only [rpRetire]
        split_ifs <;> rfl
      dsimp only
      rw [retired, rpServe]
      rw [rpFlush_failed _ p.flush soft.2]
      split_ifs
      · exact rpReadLoop_failed p.reads l soft.1
      · rfl
    | _ => rfl
  · unfold rpDirRound
    rw [if_neg served]

theorem rpDirRound_abandoned (l : RpLink) (round : RpRound) (sound : l.Sound)
    (stays : round ≠ .leave) (kept : l.abandoned = false) :
    (rpDirRound l round).abandoned = false := by
  by_cases served : l.served = true
  · unfold rpDirRound
    rw [if_pos served]
    cases round with
    | interrupted => exact kept
    | leave => exact absurd rfl stays
    | pass p =>
      have flows := (rpServe_flows l p (sound.flows served)).1
      simp only [rpRetire]
      split_ifs
      · exact flows.kept
      · exact flows.kept
  · unfold rpDirRound
    rw [if_neg served]
    exact kept

theorem rpDirRounds_sound (rounds : List RpRound) (l : RpLink) (sound : l.Sound) :
    (rounds.foldl rpDirRound l).Sound ∧
      ((∀ round ∈ rounds, round.Soft) → (rounds.foldl rpDirRound l).failed = l.failed) ∧
      (RpRound.leave ∉ rounds → l.abandoned = false →
        (rounds.foldl rpDirRound l).abandoned = false) := by
  induction rounds generalizing l with
  | nil => exact ⟨sound, fun _ => rfl, fun _ kept => kept⟩
  | cons round rest ih =>
    obtain ⟨after, failed, kept⟩ := ih (rpDirRound l round) (rpDirRound_sound l round sound)
    refine ⟨after, fun soft => ?_, fun stays before => ?_⟩
    · have here := rpDirRound_failed l round (soft round List.mem_cons_self)
      exact (failed fun r found => soft r (List.mem_cons_of_mem _ found)).trans here
    · have here : round ≠ .leave := fun leaves => stays (leaves ▸ List.mem_cons_self)
      exact kept (fun found => stays (List.mem_cons_of_mem _ found))
        (rpDirRound_abandoned l round sound here before)

theorem RpLink.start_sound : RpLink.start.Sound :=
  RpLink.Flows.sound ⟨Nat.zero_le _, fun _ => rfl, List.prefix_rfl, nofun, nofun, rfl, rfl⟩

/-- At every loop boundary what was sent and what is pending are what was received, unless a send
has failed for good; the direction is closed with nothing pending unless the thread has left. -/
theorem rpDirMain_stream (rounds : List RpRound) :
    (rpDirMain rounds).ent.pend.length ≤ rpPendLimit ∧
      (rpDirMain rounds).sent <+: (rpDirMain rounds).received ∧
      ((rpDirMain rounds).failed = false →
        (rpDirMain rounds).sent ++ (rpDirMain rounds).ent.pend = (rpDirMain rounds).received) ∧
      ((rpDirMain rounds).ent.wrClosed = true →
        ((rpDirMain rounds).ended = true ∧
            (rpDirMain rounds).sent = (rpDirMain rounds).received) ∨
          (rpDirMain rounds).failed = true ∨ (rpDirMain rounds).abandoned = true) ∧
      ((∀ round ∈ rounds, round.Soft) → (rpDirMain rounds).failed = false) ∧
      (RpRound.leave ∉ rounds → (rpDirMain rounds).abandoned = false) := by
  obtain ⟨sound, failed, kept⟩ := rpDirRounds_sound rounds RpLink.start RpLink.start_sound
  exact ⟨sound.bounded, sound.behind, sound.ordered, sound.shut, failed,
    fun stays => kept stays rfl⟩

/-- A byte that waits for its peer is never sent when the thread leaves. -/
theorem rpDirMain_leaves :
    let rounds : List RpRound := [.pass ⟨true, [(.bytes [7], [.retry])], []⟩, .leave]
    (∀ round ∈ rounds, round.Soft) ∧ (rpDirMain rounds).ent.wrClosed = true ∧
      (rpDirMain rounds).ended = false ∧ (rpDirMain rounds).received = [7] ∧
      (rpDirMain rounds).sent = [] ∧ (rpDirMain rounds).ent.pend = [7] := by
  refine ⟨?_, by decide +kernel⟩
  intro round found
  rcases List.mem_cons.mp found with rfl | found
  · refine ⟨fun read here => ?_, nofun⟩
    rw [List.mem_singleton.mp here]
    exact fun result sent => List.mem_singleton.mp sent ▸ trivial
  · rw [List.mem_singleton.mp found]
    trivial

end Iwan
