import Iwan.Time
import Iwan.Lib.Trace

/- The echo mirror of a server without a TUN device (server.c). -/
namespace Iwan

open Function (update update_of_ne update_self)

def tcpFin : UInt8 := 0x01
def tcpSyn : UInt8 := 0x02
def tcpAck : UInt8 := 0x10

inductive EchoAddrs where
  | v4 (client target : UInt32)
  | v6 (client target : List UInt8)
deriving DecidableEq, Repr

/-- A connection of a client through the tunnel. -/
structure EchoTuple where
  addrs : EchoAddrs
  cPort : UInt16
  tPort : UInt16
deriving DecidableEq, Repr

/-- The mirror's state for a connection. -/
structure EchoConn where
  tuple : EchoTuple
  clientMax : UInt32
  emitSeq : UInt32
  seeded : Bool
  lastMs : UInt64
deriving DecidableEq, Repr

def echoMaxConn : Nat := 64

abbrev EchoTable := Fin echoMaxConn → EchoConn

def EchoConn.Serves (c : EchoConn) (tuple : EchoTuple) : Prop := c.lastMs ≠ 0 ∧ c.tuple = tuple

instance (c : EchoConn) (tuple : EchoTuple) : Decidable (c.Serves tuple) := instDecidableAnd

/-- A slot that a new connection can be given. -/
def EchoConn.Free (c : EchoConn) (now : UInt64) : Prop := c.lastMs = 0 ∨ 60000 < now - c.lastMs

instance (c : EchoConn) (now : UInt64) : Decidable (c.Free now) := instDecidableOr

def echoScan (tuple : EchoTuple) (now : UInt64) :
    List (Fin echoMaxConn) → EchoTable → Option (Fin echoMaxConn) →
      EchoTable × Option (Fin echoMaxConn) × Option (Fin echoMaxConn)
  | [], tbl, free => (tbl, none, free)
  | i :: rest, tbl, free =>
    if (tbl i).Serves tuple then
      (update tbl i { tbl i with lastMs := now }, some i, free)
    else if (tbl i).lastMs = 0 then echoScan tuple now rest tbl (some i)
    else if 60000 < now - (tbl i).lastMs then
      echoScan tuple now rest (update tbl i { tbl i with lastMs := 0 }) (some i)
    else echoScan tuple now rest tbl free

def echoLookup (tbl : EchoTable) (tuple : EchoTuple) (now : UInt64) (create : Bool) :
    EchoTable × Option (Fin echoMaxConn) :=
  match echoScan tuple now (List.finRange echoMaxConn) tbl none with
  | (tbl, some i, _) => (tbl, some i)
  | (tbl, none, some i) =>
    if create then (update tbl i ⟨tuple, 0, 0, false, now⟩, some i) else (tbl, none)
  | (tbl, none, none) => (tbl, none)

/-- A TCP segment of a client. -/
structure EchoSegment where
  tuple : EchoTuple
  flags : UInt8
  sOrig : UInt32
  paylen : Nat
  now : NowMs

def EchoSegment.time (s : EchoSegment) : Nat := s.now.time

def EchoSegment.has (s : EchoSegment) (flag : UInt8) : Bool := s.flags &&& flag ≠ 0

def EchoSegment.len (s : EchoSegment) : UInt32 :=
  UInt32.ofNat s.paylen + if s.flags &&& (tcpSyn ||| tcpFin) ≠ 0 then 1 else 0

def EchoConn.advance (c : EchoConn) (s : EchoSegment) : EchoConn × UInt32 :=
  let back := c.clientMax - s.sOrig
  if c.seeded ∧ back ≠ 0 ∧ back < 0x80000000 then (c, c.emitSeq - back)
  else
    ({ c with seeded := true, clientMax := s.sOrig + s.len, emitSeq := c.emitSeq + s.len },
      c.emitSeq)

/-- echo_seq_advance: the number that a segment is mirrored at. -/
def echoSeqAdvance (tbl : EchoTable) (s : EchoSegment) : EchoTable × Option UInt32 :=
  match echoLookup tbl s.tuple s.now.ms (s.has tcpSyn) with
  | (tbl, none) => (tbl, none)
  | (tbl, some i) =>
    (update tbl i ((tbl i).advance s).1, some ((tbl i).advance s).2)

def echoMirrorAck (sOrig : UInt32) (paylen : Nat) (flags : UInt8) : UInt32 × UInt8 :=
  if flags &&& tcpSyn ≠ 0 then (sOrig + 1, flags ||| tcpAck)
  else if flags &&& tcpFin ≠ 0 then (sOrig + UInt32.ofNat paylen + 1, flags ||| tcpAck)
  else (sOrig + UInt32.ofNat paylen, flags)

def EchoSegment.occupied (s : EchoSegment) : Nat :=
  s.paylen + (if s.has tcpSyn then 1 else 0) + if s.has tcpFin then 1 else 0

def EchoSegment.offset (s : EchoSegment) (isn : UInt32) : Nat := (s.sOrig - isn).toNat

/-- A segment starts in what was sent or right behind it, comes in time, and the stream is short. -/
def EchoSegment.Continues (s : EchoSegment) (isn : UInt32) (high last : Nat) : Prop :=
  s.offset isn ≤ high ∧ max high (s.offset isn + s.occupied) < 2 ^ 31 ∧ s.time ≤ last + 60000

/-- It does not reach over the end from inside, and carries nothing beside a SYN. -/
def EchoSegment.Plain (s : EchoSegment) (isn : UInt32) (high : Nat) : Prop :=
  (s.offset isn < high → s.offset isn + s.occupied ≤ high) ∧
    (s.has tcpSyn = true → s.paylen = 0 ∧ s.has tcpFin = false) ∧ s.now.ms ≠ 0

instance (s : EchoSegment) (isn : UInt32) (high last : Nat) :
    Decidable (s.Continues isn high last) := instDecidableAnd

instance (s : EchoSegment) (isn : UInt32) (high : Nat) : Decidable (s.Plain isn high) :=
  instDecidableAnd

def Streams (tuple : EchoTuple) (isn : UInt32) (cond : Nat → EchoSegment → Prop) :
    Nat → Nat → List EchoSegment → Prop
  | _, _, [] => True
  | high, last, s :: rest =>
    if s.tuple = tuple then
      s.Continues isn high last ∧ cond high s ∧
        Streams tuple isn cond (max high (s.offset isn + s.occupied)) s.time rest
    else Streams tuple isn cond high last rest

instance decidableStreams (tuple : EchoTuple) (isn : UInt32) (cond : Nat → EchoSegment → Prop)
    [∀ high s, Decidable (cond high s)] :
    ∀ high last segments, Decidable (Streams tuple isn cond high last segments)
  | _, _, [] => isTrue trivial
  | high, last, s :: rest =>
    have := decidableStreams tuple isn cond (max high (s.offset isn + s.occupied)) s.time rest
    have := decidableStreams tuple isn cond high last rest
    inferInstanceAs (Decidable (if s.tuple = tuple then _ else _))

def echoStep (tbl : EchoTable) (s : EchoSegment) :
    EchoTable × List (EchoSegment × Option UInt32) :=
  ((echoSeqAdvance tbl s).1, [(s, (echoSeqAdvance tbl s).2)])

section

variable {tuple : EchoTuple} {tbl : EchoTable} {i : Fin echoMaxConn}

/-- The one slot of a connection. -/
structure EchoTable.Home (tbl : EchoTable) (tuple : EchoTuple) (i : Fin echoMaxConn) : Prop where
  serves : (tbl i).Serves tuple
  only : ∀ j, (tbl j).Serves tuple → j = i

theorem EchoTable.Home.write (home : tbl.Home tuple i) {j : Fin echoMaxConn} (away : j ≠ i)
    {c : EchoConn} (foreign : ¬ c.Serves tuple) :
    EchoTable.Home (update tbl j c) tuple i := by
  refine ⟨?_, ?_⟩
  · rw [update_of_ne (Ne.symm away)]
    exact home.serves
  · intro k serves
    by_cases here : k = j
    · rw [here, update_self] at serves
      exact absurd serves foreign
    · rw [update_of_ne here] at serves
      exact home.only k serves

theorem EchoTable.Home.free (home : tbl.Home tuple i) (j : Fin echoMaxConn) (away : j ≠ i) :
    EchoTable.Home (update tbl j { tbl j with lastMs := 0 }) tuple i :=
  home.write away fun serves => serves.1 rfl

theorem EchoTable.Home.renew (home : tbl.Home tuple i) {c : EchoConn} (serves : c.Serves tuple) :
    EchoTable.Home (update tbl i c) tuple i := by
  refine ⟨?_, ?_⟩
  · rw [update_self]
    exact serves
  · intro j serves'
    by_contra away
    rw [update_of_ne away] at serves'
    exact away (home.only j serves')

theorem echoScan_home (now : UInt64) {slots : List (Fin echoMaxConn)}
    (free : Option (Fin echoMaxConn)) (home : tbl.Home tuple i) (member : i ∈ slots) :
    ∃ (tbl' : EchoTable) (free' : Option (Fin echoMaxConn)), echoScan tuple now slots tbl free =
        (update tbl' i { tbl i with lastMs := now }, some i, free') ∧
      tbl'.Home tuple i ∧ tbl' i = tbl i := by
  induction slots generalizing tbl free with
  | nil => cases member
  | cons j rest ih =>
    unfold echoScan
    by_cases here : j = i
    · subst here
      rw [if_pos home.serves]
      exact ⟨tbl, free, rfl, home, rfl⟩
    · have later : i ∈ rest := (List.mem_cons.mp member).resolve_left (Ne.symm here)
      rw [if_neg fun serves => here (home.only j serves)]
      split
      · exact ih _ home later
      · split
        · have same : update tbl j { tbl j with lastMs := 0 } i = tbl i :=
            update_of_ne (Ne.symm here) ..
          obtain ⟨tbl', free', scanned, home', kept⟩ := ih _ (home.free j here) later
          rw [same] at scanned kept
          exact ⟨tbl', free', scanned, home', kept⟩
        · exact ih _ home later

variable {now : UInt64}

theorem echoScan_other {other : EchoTuple} (slots : List (Fin echoMaxConn))
    {free : Option (Fin echoMaxConn)} (home : tbl.Home tuple i) (differs : other ≠ tuple)
    (busy : ¬ 60000 < now - (tbl i).lastMs) (taken : free ≠ some i) :
    EchoTable.Home (echoScan other now slots tbl free).1 tuple i ∧
      (echoScan other now slots tbl free).1 i = tbl i ∧
      (echoScan other now slots tbl free).2.1 ≠ some i ∧
      (echoScan other now slots tbl free).2.2 ≠ some i := by
  induction slots generalizing tbl free with
  | nil => exact ⟨home, rfl, nofun, taken⟩
  | cons j rest ih =>
    unfold echoScan
    split
    · rename_i serves
      have away : j ≠ i := by
        rintro rfl
        exact differs (serves.2.symm.trans home.serves.2)
      refine ⟨home.write away ?_, update_of_ne (Ne.symm away) .., ?_, taken⟩
      · exact fun serves' => differs (serves.2.symm.trans serves'.2)
      · exact fun same => away (Option.some.inj same)
    · split
      · rename_i unused
        have away : j ≠ i := by
          rintro rfl
          exact home.serves.1 unused
        exact ih home busy fun same => away (Option.some.inj same)
      · split
        · rename_i idle
          have away : j ≠ i := by
            rintro rfl
            exact busy idle
          have same : update tbl j { tbl j with lastMs := 0 } i = tbl i :=
            update_of_ne (Ne.symm away) ..
          have next := ih (home.free j away) (by rwa [same])
            fun offered => away (Option.some.inj offered)
          rw [same] at next
          exact next
        · exact ih home busy taken

theorem echoLookup_home (create : Bool) (home : tbl.Home tuple i) (running : now ≠ 0) :
    ∃ tbl' : EchoTable, echoLookup tbl tuple now create = (tbl', some i) ∧ tbl'.Home tuple i ∧
      tbl' i = { tbl i with lastMs := now } := by
  obtain ⟨tbl', free', scanned, home', _⟩ :=
    echoScan_home now none home (List.mem_finRange i)
  refine ⟨update tbl' i { tbl i with lastMs := now }, ?_,
    home'.renew ⟨running, home.serves.2⟩, update_self ..⟩
  rw [echoLookup, scanned]

theorem echoLookup_other {other : EchoTuple} (create : Bool)
    (home : tbl.Home tuple i) (differs : other ≠ tuple) (busy : ¬ 60000 < now - (tbl i).lastMs) :
    EchoTable.Home (echoLookup tbl other now create).1 tuple i ∧
      (echoLookup tbl other now create).1 i = tbl i ∧
      (echoLookup tbl other now create).2 ≠ some i := by
  have scanned := echoScan_other (List.finRange echoMaxConn) home differs busy
    (Option.some_ne_none i).symm
  unfold echoLookup
  revert scanned
  rcases echoScan other now (List.finRange echoMaxConn) tbl none with ⟨tbl', _ | j, _ | k⟩
  · exact fun scanned => ⟨scanned.1, scanned.2.1, nofun⟩
  · rintro ⟨home', same, _, taken⟩
    have away : k ≠ i := fun here => taken (congrArg some here)
    dsimp only
    split
    · exact ⟨home'.write away fun serves => differs serves.2,
        (update_of_ne (Ne.symm away) ..).trans same,
        fun found => away (Option.some.inj found)⟩
    · exact ⟨home', same, nofun⟩
  · exact fun scanned => ⟨scanned.1, scanned.2.1, scanned.2.2.1⟩
  · exact fun scanned => ⟨scanned.1, scanned.2.1, scanned.2.2.1⟩

theorem echoScan_fresh (now : UInt64) (slots : List (Fin echoMaxConn))
    (free : Option (Fin echoMaxConn)) (fresh : ∀ j, ¬ (tbl j).Serves tuple) :
    (echoScan tuple now slots tbl free).2.1 = none ∧
      (∀ j, ¬ ((echoScan tuple now slots tbl free).1 j).Serves tuple) ∧
      ((free ≠ none ∨ ∃ j ∈ slots, (tbl j).Free now) →
        (echoScan tuple now slots tbl free).2.2 ≠ none) := by
  induction slots generalizing tbl free with
  | nil => exact ⟨rfl, fresh, fun room => room.resolve_right fun ⟨_, member, _⟩ => nomatch member⟩
  | cons k rest ih =>
    have offered : some k ≠ none ∨ ∃ j ∈ rest, (tbl j).Free now := .inl (Option.some_ne_none k)
    unfold echoScan
    rw [if_neg (fresh k)]
    split
    · obtain ⟨unserved, fresh', room⟩ := ih (some k) fresh
      exact ⟨unserved, fresh', fun _ => room offered⟩
    · next used =>
      split
      · have fresh' : ∀ j, ¬ (update tbl k { tbl k with lastMs := 0 } j).Serves tuple := by
          intro j serves
          by_cases here : j = k
          · rw [here, update_self] at serves
            exact serves.1 rfl
          · rw [update_of_ne here] at serves
            exact fresh j serves
        obtain ⟨unserved, fresh', room⟩ := ih (some k) fresh'
        exact ⟨unserved, fresh', fun _ => room (.inl (Option.some_ne_none k))⟩
      · next recent =>
        obtain ⟨unserved, fresh', room⟩ := ih free fresh
        refine ⟨unserved, fresh', fun given => room (given.imp_right ?_)⟩
        rintro ⟨j, member, unused⟩
        rcases List.mem_cons.mp member with rfl | later
        · exact absurd unused (not_or.mpr ⟨used, recent⟩)
        · exact ⟨j, later, unused⟩

theorem echoLookup_created (fresh : ∀ j, ¬ (tbl j).Serves tuple) (running : now ≠ 0)
    (room : ∃ j, (tbl j).Free now) :
    ∃ (tbl' : EchoTable) (i : Fin echoMaxConn), echoLookup tbl tuple now true = (tbl', some i) ∧
      tbl'.Home tuple i ∧ tbl' i = ⟨tuple, 0, 0, false, now⟩ := by
  obtain ⟨j, unused⟩ := room
  obtain ⟨unserved, fresh', found⟩ := echoScan_fresh now (List.finRange echoMaxConn) none fresh
  have offered := found (.inr ⟨j, List.mem_finRange j, unused⟩)
  unfold echoLookup
  revert unserved fresh' offered
  rcases echoScan tuple now (List.finRange echoMaxConn) tbl none with ⟨tbl', _ | _, _ | i⟩
  · exact fun _ _ offered => absurd rfl offered
  · intro _ fresh' _
    refine ⟨_, i, rfl, ⟨?_, fun j serves => ?_⟩, update_self ..⟩
    · rw [update_self]
      exact ⟨running, rfl⟩
    · by_contra away
      rw [update_of_ne away] at serves
      exact fresh' j serves
  · exact fun unserved => nomatch unserved
  · exact fun unserved => nomatch unserved

end

section

/-- The counters stand at the end of what was sent. -/
structure EchoConn.Stands (c : EchoConn) (isn : UInt32) (high last : Nat) : Prop where
  seeded : c.seeded = true
  client : c.clientMax = isn + UInt32.ofNat high
  emit : c.emitSeq = UInt32.ofNat high
  short : high < 2 ^ 31
  seen : c.lastMs.toNat = last

variable {s : EchoSegment} {isn : UInt32} {high last : Nat}

theorem EchoSegment.sOrig_eq (s : EchoSegment) (isn : UInt32) :
    s.sOrig = isn + UInt32.ofNat (s.offset isn) := by
  rw [EchoSegment.offset, UInt32.ofNat_toNat, UInt32.add_comm, UInt32.sub_add_cancel]

theorem has_either (flags : UInt8) :
    flags &&& (tcpSyn ||| tcpFin) ≠ 0 ↔ flags &&& tcpSyn ≠ 0 ∨ flags &&& tcpFin ≠ 0 := by
  have distrib : flags &&& (tcpSyn ||| tcpFin) = flags &&& tcpSyn ||| flags &&& tcpFin := by
    apply UInt8.toBitVec_inj.mp
    rw [UInt8.toBitVec_and, UInt8.toBitVec_or, BitVec.and_or_distrib_left, UInt8.toBitVec_or,
      UInt8.toBitVec_and, UInt8.toBitVec_and]
  rw [distrib, ne_eq, UInt8.or_eq_zero_iff, not_and_or]

theorem EchoSegment.Plain.len_eq (plain : s.Plain isn high) :
    s.len = UInt32.ofNat s.occupied := by
  have either := has_either s.flags
  unfold EchoSegment.len EchoSegment.occupied
  cases syn : s.has tcpSyn with
  | true =>
    have set : s.flags &&& tcpSyn ≠ 0 := of_decide_eq_true syn
    rw [if_pos (either.mpr (Or.inl set)), (plain.2.1 syn).2]
    simp [UInt32.ofNat_add]
  | false =>
    have clear : ¬ s.flags &&& tcpSyn ≠ 0 := of_decide_eq_false syn
    cases fin : s.has tcpFin with
    | true =>
      have set : s.flags &&& tcpFin ≠ 0 := of_decide_eq_true fin
      rw [if_pos (either.mpr (Or.inr set))]
      simp [UInt32.ofNat_add]
    | false =>
      have clear' : ¬ s.flags &&& tcpFin ≠ 0 := of_decide_eq_false fin
      rw [if_neg fun set => (either.mp set).elim clear clear']
      simp

theorem EchoSegment.Plain.ack_eq (plain : s.Plain isn high) :
    (echoMirrorAck s.sOrig s.paylen s.flags).1 = s.sOrig + UInt32.ofNat s.occupied := by
  unfold echoMirrorAck EchoSegment.occupied
  cases syn : s.has tcpSyn with
  | true =>
    have set : s.flags &&& tcpSyn ≠ 0 := of_decide_eq_true syn
    rw [if_pos set, (plain.2.1 syn).1, (plain.2.1 syn).2]
    rfl
  | false =>
    have clear : ¬ s.flags &&& tcpSyn ≠ 0 := of_decide_eq_false syn
    rw [if_neg clear]
    cases fin : s.has tcpFin with
    | true =>
      have set : s.flags &&& tcpFin ≠ 0 := of_decide_eq_true fin
      rw [if_pos set]
      simp [UInt32.ofNat_add, UInt32.add_assoc]
    | false =>
      have clear' : ¬ s.flags &&& tcpFin ≠ 0 := of_decide_eq_false fin
      rw [if_neg clear']
      simp

theorem EchoConn.advance_serves (c : EchoConn) (s : EchoSegment) (tuple : EchoTuple) :
    (c.advance s).1.Serves tuple ↔ c.Serves tuple := by
  unfold EchoConn.advance
  dsimp only
  split <;> rfl

theorem EchoConn.Stands.advance {c : EchoConn} (stands : c.Stands isn high last)
    (goes_on : s.offset isn ≤ high ∧ max high (s.offset isn + s.occupied) < 2 ^ 31)
    (plain : s.Plain isn high) :
    (c.advance s).2 = s.sOrig - isn ∧
      (c.advance s).1.Stands isn (max high (s.offset isn + s.occupied)) last := by
  obtain ⟨start, short⟩ := goes_on
  have number : s.sOrig - isn = UInt32.ofNat (s.offset isn) := by
    rw [EchoSegment.offset, UInt32.ofNat_toNat]
  have back : c.clientMax - s.sOrig = UInt32.ofNat (high - s.offset isn) := by
    rw [stands.client, s.sOrig_eq isn]
    apply UInt32.toNat_inj.mp
    have bound := stands.short
    simp only [UInt32.toNat_sub, UInt32.toNat_add, UInt32.toNat_ofNat']
    omega
  have size : (UInt32.ofNat (high - s.offset isn)).toNat = high - s.offset isn := by
    rw [UInt32.toNat_ofNat']
    have bound := stands.short
    omega
  unfold EchoConn.advance
  dsimp only
  rw [back]
  by_cases behind : s.offset isn < high
  · have again : c.seeded = true ∧ UInt32.ofNat (high - s.offset isn) ≠ 0 ∧
        UInt32.ofNat (high - s.offset isn) < 0x80000000 := by
      refine ⟨stands.seeded, ?_, ?_⟩
      · intro none
        rw [none] at size
        simp at size
        omega
      · rw [UInt32.lt_iff_toNat_lt, size]
        have bound := stands.short
        simp
        omega
    rw [if_pos again, Nat.max_eq_left (plain.1 behind)]
    refine ⟨?_, stands⟩
    rw [number, stands.emit]
    apply UInt32.toNat_inj.mp
    have bound := stands.short
    simp only [UInt32.toNat_sub, UInt32.toNat_ofNat']
    omega
  · have here : s.offset isn = high := Nat.le_antisymm start (Nat.le_of_not_lt behind)
    have fresh : ¬ (c.seeded = true ∧ UInt32.ofNat (high - s.offset isn) ≠ 0 ∧
        UInt32.ofNat (high - s.offset isn) < 0x80000000) := by
      rw [here, Nat.sub_self]
      exact fun again => again.2.1 rfl
    rw [if_neg fresh, plain.len_eq, here, Nat.max_eq_right (Nat.le_add_right ..)]
    refine ⟨?_, rfl, ?_, ?_, ?_, stands.seen⟩
    · rw [number, here]
      exact stands.emit
    · dsimp only
      rw [s.sOrig_eq isn, here, UInt32.ofNat_add, UInt32.add_assoc]
    · dsimp only
      rw [stands.emit, UInt32.ofNat_add]
    · rw [here] at short
      omega

end

section

variable {tuple : EchoTuple} {isn : UInt32} {high last clock : Nat} {tbl : EchoTable}
  {i : Fin echoMaxConn}

/-- The table follows a connection. -/
structure Mirrors (tbl : EchoTable) (tuple : EchoTuple) (isn : UInt32) (high last : Nat)
    (i : Fin echoMaxConn) : Prop where
  home : tbl.Home tuple i
  stands : (tbl i).Stands isn high last

theorem Mirrors.own (mirrors : Mirrors tbl tuple isn high last i) {s : EchoSegment}
    (own : s.tuple = tuple) (goes_on : s.Continues isn high last) (plain : s.Plain isn high) :
    (echoSeqAdvance tbl s).2 = some (s.sOrig - isn) ∧
      Mirrors (echoSeqAdvance tbl s).1 tuple isn (max high (s.offset isn + s.occupied))
        s.time i := by
  subst own
  obtain ⟨tbl', found, home, slot⟩ := echoLookup_home (s.has tcpSyn) mirrors.home plain.2.2
  have stands : (tbl' i).Stands isn high s.time := by
    rw [slot]
    exact ⟨mirrors.stands.seeded, mirrors.stands.client, mirrors.stands.emit,
      mirrors.stands.short, rfl⟩
  obtain ⟨number, stands'⟩ := stands.advance ⟨goes_on.1, goes_on.2.1⟩ plain
  unfold echoSeqAdvance
  rw [found]
  refine ⟨congrArg some number, home.renew ((EchoConn.advance_serves ..).mpr home.serves), ?_⟩
  dsimp only
  rw [update_self]
  exact stands'

theorem Mirrors.other (mirrors : Mirrors tbl tuple isn high last i) {s : EchoSegment}
    (differs : s.tuple ≠ tuple) (order : last ≤ s.time) (soon : s.time ≤ last + 60000) :
    Mirrors (echoSeqAdvance tbl s).1 tuple isn high last i := by
  have busy : ¬ 60000 < s.now.ms - (tbl i).lastMs := by
    have before : (tbl i).lastMs ≤ s.now.ms := by
      rw [UInt64.le_iff_toNat_le, mirrors.stands.seen]
      exact order
    rw [UInt64.lt_iff_toNat_lt, UInt64.toNat_sub_of_le _ _ before, mirrors.stands.seen]
    have time : s.now.ms.toNat = s.time := rfl
    simp
    omega
  obtain ⟨home, same, away⟩ := echoLookup_other (s.has tcpSyn) mirrors.home differs busy
  unfold echoSeqAdvance
  revert home same away
  rcases echoLookup tbl s.tuple s.now.ms (s.has tcpSyn) with ⟨tbl', _ | j⟩
  · intro home same _
    refine ⟨home, ?_⟩
    rw [same]
    exact mirrors.stands
  · intro home same away
    have apart : j ≠ i := fun here => away (congrArg some here)
    have foreign : ¬ ((tbl' j).advance s).1.Serves tuple := fun serves =>
      apart (home.only j ((EchoConn.advance_serves ..).mp serves))
    refine ⟨home.write apart foreign, ?_⟩
    dsimp only at same ⊢
    rw [update_of_ne (Ne.symm apart), same]
    exact mirrors.stands

theorem Mirrors.opened {s : EchoSegment} (fresh : ∀ j, ¬ (tbl j).Serves s.tuple)
    (short : s.occupied < 2 ^ 31) (plain : s.Plain s.sOrig 0) (opens : s.has tcpSyn = true)
    (room : ∃ j, (tbl j).Free s.now.ms) :
    (echoSeqAdvance tbl s).2 = some 0 ∧
      ∃ i, Mirrors (echoSeqAdvance tbl s).1 s.tuple s.sOrig s.occupied s.time i := by
  obtain ⟨tbl', i, created, home, slot⟩ := echoLookup_created fresh plain.2.2 room
  have first : (tbl' i).advance s =
      (⟨s.tuple, s.sOrig + s.len, 0 + s.len, true, s.now.ms⟩, 0) := by
    rw [slot]
    rfl
  unfold echoSeqAdvance
  rw [opens, created]
  refine ⟨congrArg some (congrArg Prod.snd first), i,
    home.renew ((EchoConn.advance_serves ..).mpr home.serves), ?_⟩
  dsimp only
  rw [update_self, first, plain.len_eq]
  exact ⟨rfl, rfl, UInt32.zero_add _, short, rfl⟩

variable {segments : List EchoSegment}

theorem echoRun_tuples {out : EchoSegment × Option UInt32}
    (given : out ∈ Trace.emitted echoStep tbl segments) : out.1 ∈ segments := by
  induction segments generalizing tbl with
  | nil => cases given
  | cons s rest ih =>
    rw [Trace.emitted_cons, List.mem_append] at given
    rcases given with here | later
    · rw [List.mem_singleton.mp here]
      exact List.mem_cons_self
    · exact List.mem_cons_of_mem _ (ih later)

theorem Streams.none_late {cond : Nat → EchoSegment → Prop}
    (streams : Streams tuple isn cond high last segments)
    (clocked : Trace.Clocked EchoSegment.time EchoSegment.time clock segments)
    (late : last + 60000 < clock) : ∀ s ∈ segments, s.tuple ≠ tuple := by
  induction segments generalizing clock with
  | nil => exact fun s member => nomatch member
  | cons s rest ih =>
    unfold Streams at streams
    have order : clock ≤ s.time := clocked.1
    split at streams
    · have soon := streams.1.2.2
      omega
    · rename_i differs
      exact List.forall_mem_cons.mpr ⟨differs, ih streams clocked.2 (by omega)⟩

theorem Mirrors.run (mirrors : Mirrors tbl tuple isn high last i) (order : last ≤ clock)
    (clocked : Trace.Clocked EchoSegment.time EchoSegment.time clock segments)
    (streams : Streams tuple isn (fun high s => s.Plain isn high) high last segments) :
    ∀ out ∈ Trace.emitted echoStep tbl segments, out.1.tuple = tuple →
      out.2 = some (out.1.sOrig - isn) ∧
        (echoMirrorAck out.1.sOrig out.1.paylen out.1.flags).1 =
          out.1.sOrig + UInt32.ofNat out.1.occupied := by
  induction segments generalizing tbl high last clock with
  | nil => exact fun out given => nomatch given
  | cons s rest ih =>
    intro out given own
    have now : clock ≤ s.time := clocked.1
    rw [Trace.emitted_cons, List.mem_append] at given
    by_cases here : s.tuple = tuple
    · unfold Streams at streams
      rw [if_pos here] at streams
      obtain ⟨number, mirrors'⟩ := mirrors.own here streams.1 streams.2.1
      rcases given with first | later
      · rw [List.mem_singleton.mp first]
        exact ⟨number, streams.2.1.ack_eq⟩
      · exact ih mirrors' (Nat.le_refl _) clocked.2 streams.2.2 out later own
    · rcases given with first | later
      · rw [List.mem_singleton.mp first] at own
        exact absurd own here
      · by_cases soon : s.time ≤ last + 60000
        · have rest' : Streams tuple isn (fun high s => s.Plain isn high) high last rest := by
            unfold Streams at streams
            rwa [if_neg here] at streams
          exact ih (mirrors.other here (Nat.le_trans order now) soon)
            (Nat.le_trans order now) clocked.2 rest' out later own
        · have rest' : Streams tuple isn (fun high s => s.Plain isn high) high last rest := by
            unfold Streams at streams
            rwa [if_neg here] at streams
          exact absurd own (rest'.none_late clocked.2 (Nat.lt_of_not_le soon) _
            (echoRun_tuples later))

/-- Plain segments are mirrored at their distance from the first, and acknowledged whole. -/
theorem echoRun_mirrors (syn : EchoSegment) (segments : List EchoSegment)
    (fresh : ∀ j, ¬ (tbl j).Serves syn.tuple)
    (clocked : Trace.Clocked EchoSegment.time EchoSegment.time syn.time segments)
    (short : syn.occupied < 2 ^ 31)
    (streams : Streams syn.tuple syn.sOrig (fun high s => s.Plain syn.sOrig high) syn.occupied
      syn.time segments)
    (plain : syn.Plain syn.sOrig 0) (opens : syn.has tcpSyn = true)
    (room : ∃ j, (tbl j).Free syn.now.ms) :
    ∀ out ∈ Trace.emitted echoStep tbl (syn :: segments), out.1.tuple = syn.tuple →
      out.2 = some (out.1.sOrig - syn.sOrig) ∧
        (echoMirrorAck out.1.sOrig out.1.paylen out.1.flags).1 =
          out.1.sOrig + UInt32.ofNat out.1.occupied := by
  obtain ⟨number, i, mirrors⟩ := Mirrors.opened fresh short plain opens room
  intro out member own
  rw [Trace.emitted_cons, List.mem_append] at member
  rcases member with first | later
  · rw [List.mem_singleton.mp first]
    refine ⟨?_, plain.ack_eq⟩
    rw [UInt32.sub_self]
    exact number
  · exact mirrors.run (Nat.le_refl _) clocked streams out later own

end

def echoFreeTable (tuple : EchoTuple) : EchoTable := fun _ => ⟨tuple, 0, 0, false, 0⟩

def echoSampleTuple : EchoTuple := ⟨.v4 0x0a000002 0x0a000001, 40000, 80⟩

def echoSampleSegment (flags : UInt8) (sOrig : UInt32) (paylen : Nat) : EchoSegment :=
  ⟨echoSampleTuple, flags, sOrig, paylen, ⟨5, by decide⟩⟩

theorem echoRun_mirrors_wrapped :
    Trace.emitted echoStep (echoFreeTable echoSampleTuple)
        [echoSampleSegment tcpSyn 0xfffffffd 0, echoSampleSegment tcpAck 0xfffffffe 10,
          echoSampleSegment tcpAck 0xfffffffe 10, echoSampleSegment tcpFin 8 1] ≠ [] ∧
      ∀ out ∈ Trace.emitted echoStep (echoFreeTable echoSampleTuple)
        [echoSampleSegment tcpSyn 0xfffffffd 0, echoSampleSegment tcpAck 0xfffffffe 10,
          echoSampleSegment tcpAck 0xfffffffe 10, echoSampleSegment tcpFin 8 1],
        out.1.tuple = echoSampleTuple →
          out.2 = some (out.1.sOrig - 0xfffffffd) ∧
            (echoMirrorAck out.1.sOrig out.1.paylen out.1.flags).1 =
              out.1.sOrig + UInt32.ofNat out.1.occupied := by
  refine ⟨List.cons_ne_nil _ _, ?_⟩
  refine echoRun_mirrors (echoSampleSegment tcpSyn 0xfffffffd 0)
    [echoSampleSegment tcpAck 0xfffffffe 10, echoSampleSegment tcpAck 0xfffffffe 10,
      echoSampleSegment tcpFin 8 1] ?_ ?_ ?_ ?_ ?_ ?_ ?_
  · exact fun j serves => serves.1 rfl
  · exact ⟨Nat.le_refl _, Nat.le_refl _, Nat.le_refl _, trivial⟩
  · decide
  · decide +kernel
  · decide +kernel
  · decide
  · exact ⟨⟨0, by decide⟩, .inl rfl⟩

/-- After bytes 1 to 10, ten bytes at 6 are not counted: the next, at 16, is mirrored at 11. -/
theorem echoRun_mirrors_overlap :
    Streams echoSampleTuple 0 (fun _ _ => True) 1 5
        [echoSampleSegment tcpAck 1 10, echoSampleSegment tcpAck 6 10,
          echoSampleSegment tcpAck 16 1] ∧
      (Trace.emitted echoStep (echoFreeTable echoSampleTuple)
          [echoSampleSegment tcpSyn 0 0, echoSampleSegment tcpAck 1 10,
            echoSampleSegment tcpAck 6 10, echoSampleSegment tcpAck 16 1]).map
        (fun out => (out.1.sOrig, out.2)) = [(0, some 0), (1, some 1), (6, some 6), (16, some 11)] ∧
      (echoSampleSegment tcpSyn 0 10).occupied = 11 ∧
      (echoMirrorAck 0 10 tcpSyn).1 = 1 := by
  refine ⟨?_, ?_, ?_, ?_⟩ <;> decide +kernel

end Iwan
