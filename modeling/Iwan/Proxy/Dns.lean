import Iwan.Wire.Packet
import Iwan.Proxy.Flow

/- Tunnel DNS (socks_dns.c). -/
namespace Iwan

open BigEndian

def dnsWaitMax : Nat := 64

def dnsTimeoutMs : UInt64 := 1500

def dnsMaxResend : Nat := 3

def dnsLabelsOk : Nat → List UInt8 → Bool
  | llen, [] => 1 ≤ llen && llen ≤ 63
  | llen, c :: rest =>
    if c = 0x2E then 1 ≤ llen && llen ≤ 63 && dnsLabelsOk 0 rest
    else dnsLabelsOk (llen + 1) rest

def dnsPutLabel (outsz : Nat) (out label : List UInt8) : Option (List UInt8) :=
  if outsz < out.length + 1 + label.length + 1 then none
  else if label = [] then some out
  else some (out ++ UInt8.ofNat label.length :: label)

def dnsPutLabels (outsz : Nat) : List UInt8 → List UInt8 → List UInt8 → Option (List UInt8)
  | out, label, [] => dnsPutLabel outsz out label
  | out, label, c :: rest =>
    if c = 0x2E then
      match dnsPutLabel outsz out label with
      | none => none
      | some out => dnsPutLabels outsz out [] rest
    else dnsPutLabels outsz out (label ++ [c]) rest

def dnsEncodeQname (domain : List UInt8) (outsz : Nat) : Option (List UInt8) :=
  let name := domain.rdropWhile (· = 0x2E)
  if name.length = 0 ∨ 253 < name.length then none
  else if dnsLabelsOk 0 name then
    match dnsPutLabels outsz [] [] name with
    | none => none
    | some out => if outsz < out.length + 1 then none else some (out ++ [0])
  else none

def dnsBuildQuery (id : UInt16) (domain : List UInt8) (qtype : UInt8) (outsz : Nat) :
    Option (List UInt8) :=
  if outsz < 12 + 5 then none
  else
    match dnsEncodeQname domain (outsz - 12) with
    | none => none
    | some qname =>
      some (bytes16 id ++ [0x01, 0x00, 0x00, 0x01, 0, 0, 0, 0, 0, 0] ++ qname ++
        [0x00, qtype, 0x00, 0x01])

/-- A query on its way. -/
structure DnsWait where
  inUse : Bool
  dnsId : UInt16
  sport : UInt16
  ipid : UInt16
  deadline : UInt64
  resends : Nat
  domain : List UInt8
  flowId : Int
  port : UInt16
  qtype : UInt8
deriving DecidableEq, Repr

/-- The queries that wait, and their number. -/
structure DnsTable where
  waits : List DnsWait
  waitN : Nat
deriving DecidableEq, Repr

/-- A verdict for a flow. -/
structure DnsResult where
  gen : UInt32
  flowId : Int
  answer : Option TargetAddr
  port : UInt16
deriving DecidableEq, Repr

def DnsTable.pending (t : DnsTable) : Nat := t.waits.countP (·.inUse)

def DnsTable.Counted (t : DnsTable) : Prop := t.waitN = t.pending

def DnsTable.Distinct (t : DnsTable) : Prop :=
  ∀ (i j : Nat) (w v : DnsWait), t.waits[i]? = some w → t.waits[j]? = some v →
    w.inUse = true → v.inUse = true → w.sport = v.sport → i = j

def DnsTable.retire (t : DnsTable) (slot : Nat) : DnsTable :=
  match t.waits[slot]? with
  | none => t
  | some w => ⟨t.waits.set slot { w with inUse := false }, t.waitN - 1⟩

def dnsSkipNameLoop : Nat → List UInt8 → Nat → Option Nat
  | 0, _, _ => none
  | fuel + 1, p, off =>
    if p.length ≤ off then none
    else
      let l := byteAt p off
      if l &&& 0xC0 = 0xC0 then if p.length < off + 2 then none else some (off + 2)
      else if l &&& 0xC0 ≠ 0 then none
      else if l = 0 then some (off + 1)
      else if p.length < off + 1 + l.toNat then none
      else dnsSkipNameLoop fuel p (off + 1 + l.toNat)

def dnsSkipName (p : List UInt8) (off : Nat) : Option Nat :=
  dnsSkipNameLoop (p.length - off) p off

def dnsSkipQuestions (dns : List UInt8) : Nat → Nat → Option Nat
  | 0, off => some off
  | qd + 1, off =>
    match dnsSkipName dns off with
    | none => none
    | some off => if dns.length < off + 4 then none else dnsSkipQuestions dns qd (off + 4)

def dns16 (dns : List UInt8) (off : Nat) : UInt16 := be16 (byteAt dns off) (byteAt dns (off + 1))

def dnsFindAnswer (dns : List UInt8) (wantQtype : UInt8) : Nat → Nat → Option TargetAddr
  | 0, _ => none
  | an + 1, off =>
    match dnsSkipName dns off with
    | none => none
    | some off =>
      if dns.length < off + 10 then none
      else
        let rdlen := (dns16 dns (off + 8)).toNat
        if dns.length < off + 10 + rdlen then none
        else if dns16 dns off = wantQtype.toUInt16 ∧ dns16 dns (off + 2) = 1 ∧
            wantQtype = 1 ∧ rdlen = 4 then
          some (.v4 (ip4U32 (ip4At dns (off + 10))))
        else if dns16 dns off = wantQtype.toUInt16 ∧ dns16 dns (off + 2) = 1 ∧
            wantQtype = 28 ∧ rdlen = 16 then
          some (.v6 ((dns.drop (off + 10)).take 16))
        else dnsFindAnswer dns wantQtype an (off + 10 + rdlen)

def dnsIhl (pkt : List UInt8) : Nat := (byteAt pkt 0 &&& 0x0F).toNat * 4

def dnsUlen (pkt : List UInt8) : Nat := (dns16 pkt (dnsIhl pkt + 4)).toNat

def dnsDport (pkt : List UInt8) : UInt16 := dns16 pkt (dnsIhl pkt + 2)

def dnsPayload (pkt : List UInt8) : List UInt8 :=
  (pkt.drop (dnsIhl pkt + 8)).take (dnsUlen pkt - 8)

def dnsUdpOk (pkt : List UInt8) : Bool :=
  !(pkt.length < 20 + 8 + 12 || byteAt pkt 9 ≠ 17 || ipVersion pkt ≠ 4) &&
    !(dnsIhl pkt < 20 || pkt.length < dnsIhl pkt + 8 + 12) &&
    !(dnsUlen pkt < 8 + 12 || pkt.length < dnsIhl pkt + dnsUlen pkt)

def dnsAnswer (w : DnsWait) (dns : List UInt8) : Option TargetAddr :=
  let flags := dns16 dns 2
  if dns16 dns 0 ≠ w.dnsId then none
  else if flags &&& 0x8000 = 0 ∨ flags &&& 0x000F ≠ 0 then none
  else if byteAt dns 4 ≠ 0 ∨ byteAt dns 5 < 1 then none
  else
    match dnsEncodeQname w.domain (300 - 4) with
    | none => none
    | some qname =>
      let q := qname ++ [0x00, w.qtype, 0x00, 0x01]
      if dns.length < 12 + q.length ∨ (dns.drop 12).take q.length ≠ q then none
      else
        match dnsSkipQuestions dns ((dns16 dns 4).toNat - 1) (12 + q.length) with
        | none => none
        | some off => dnsFindAnswer dns w.qtype (dns16 dns 6).toNat off

/-- The event loop's session: the resolver, the inner address, the generation. -/
structure DnsSession where
  serverIp4 : UInt32
  ip : UInt32
  gen : UInt32
deriving DecidableEq, Repr

def dnsMatch (s : DnsSession) (w : DnsWait) (pkt : List UInt8) : Option TargetAddr :=
  if dns16 pkt (dnsIhl pkt) ≠ 53 then none
  else if ip4U32 (ip4At pkt 12) ≠ s.serverIp4 then none
  else if ip4U32 (ip4At pkt 16) ≠ s.ip then none
  else dnsAnswer w (dnsPayload pkt)

def dnsLookup (t : DnsTable) (dport : UInt16) : Option Nat :=
  t.waits.findIdx? fun w => w.inUse && w.sport == dport

def dnsStillWaits (t : DnsTable) (slot : Nat) (sport dnsId : UInt16) : Bool :=
  match t.waits[slot]? with
  | none => false
  | some w => w.inUse && w.sport == sport && w.dnsId == dnsId

/-- What dns_try_handle_response makes of a packet. -/
structure DnsOutcome where
  consumed : Bool
  table : DnsTable
  pushed : Option DnsResult
deriving DecidableEq, Repr

def dnsConsumeAnswer (s : DnsSession) (t : DnsTable) (slot : Nat) (w : DnsWait)
    (addr : TargetAddr) : DnsOutcome :=
  if dnsStillWaits t slot w.sport w.dnsId then
    ⟨true, t.retire slot, some ⟨s.gen, w.flowId, some addr, w.port⟩⟩
  else ⟨true, t, none⟩

def dnsTryHandleResponse (s : DnsSession) (t : DnsTable) (pkt : List UInt8) : DnsOutcome :=
  if !dnsUdpOk pkt then ⟨false, t, none⟩
  else if t.waitN = 0 then ⟨false, t, none⟩
  else
    match dnsLookup t (dnsDport pkt) with
    | none => ⟨false, t, none⟩
    | some slot =>
      match t.waits[slot]? with
      | none => ⟨false, t, none⟩
      | some w =>
        match dnsMatch s w pkt with
        | none => ⟨true, t, none⟩
        | some addr => dnsConsumeAnswer s t slot w addr

theorem dnsPutLabels_fits (outsz : Nat) (rest out label : List UInt8)
    (fits : out.length + label.length + rest.length + 2 ≤ outsz) :
    ∃ done, (∀ size, out.length + label.length + rest.length + 2 ≤ size →
        dnsPutLabels size out label rest = some done) ∧
      done.length ≤ out.length + label.length + rest.length + 1 := by
  have put : ∀ out label : List UInt8, ∃ done,
      (∀ size, out.length + label.length + 2 ≤ size →
        dnsPutLabel size out label = some done) ∧
      done.length ≤ out.length + label.length + 1 := by
    intro out label
    by_cases empty : label = []
    · refine ⟨out, fun size room => ?_, by omega⟩
      rw [dnsPutLabel, if_neg (by omega), if_pos empty]
    · refine ⟨out ++ UInt8.ofNat label.length :: label, fun size room => ?_, ?_⟩
      · rw [dnsPutLabel, if_neg (by omega), if_neg empty]
      · rw [List.length_append, List.length_cons]
        omega
  induction rest generalizing out label with
  | nil =>
    obtain ⟨done, written, short⟩ := put out label
    exact ⟨done, fun size room => written size (by simpa using room), by simpa using short⟩
  | cons c rest ih =>
    rw [List.length_cons] at fits
    by_cases dot : c = 0x2E
    · obtain ⟨mid, written, short⟩ := put out label
      have next : mid.length + ([] : List UInt8).length + rest.length + 2 ≤ outsz := by
        simp only [List.length_nil]
        omega
      obtain ⟨done, later, bound⟩ := ih mid [] next
      simp only [List.length_nil] at later bound
      refine ⟨done, fun size room => ?_, by rw [List.length_cons]; omega⟩
      rw [List.length_cons] at room
      simp only [dnsPutLabels, if_pos dot, written size (by omega)]
      exact later size (by omega)
    · have next : out.length + (label ++ [c]).length + rest.length + 2 ≤ outsz := by
        rw [List.length_append, List.length_singleton]
        omega
      obtain ⟨done, later, bound⟩ := ih out (label ++ [c]) next
      rw [List.length_append, List.length_singleton] at later bound
      refine ⟨done, fun size room => ?_, by rw [List.length_cons]; omega⟩
      rw [List.length_cons] at room
      simp only [dnsPutLabels, if_neg dot]
      exact later size (by omega)

theorem dnsEncodeQname_size (domain : List UInt8) (size other : Nat) (large : 255 ≤ size)
    (enough : 255 ≤ other) : dnsEncodeQname domain size = dnsEncodeQname domain other := by
  simp only [dnsEncodeQname]
  by_cases bad : (domain.rdropWhile (· = 0x2E)).length = 0 ∨
      253 < (domain.rdropWhile (· = 0x2E)).length
  · rw [if_pos bad, if_pos bad]
  rw [if_neg bad, if_neg bad]
  push Not at bad
  obtain ⟨done, written, short⟩ :=
    dnsPutLabels_fits 255 (domain.rdropWhile (· = 0x2E)) [] []
      (by simp only [List.length_nil]; omega)
  simp only [List.length_nil] at written short
  rw [written size (by omega), written other (by omega)]
  have room : ∀ n, 255 ≤ n → ¬ n < done.length + 1 := fun n enough => by omega
  simp only [room size large, room other enough, ↓reduceIte]

theorem dnsBuildQuery_question (id : UInt16) (domain : List UInt8) (qtype : UInt8)
    (question : List UInt8) :
    (∃ query, dnsBuildQuery id domain qtype 512 = some query ∧ query.drop 12 = question) ↔
      ∃ qname, dnsEncodeQname domain (300 - 4) = some qname ∧
        question = qname ++ [0x00, qtype, 0x00, 0x01] := by
  have same := dnsEncodeQname_size domain (512 - 12) (300 - 4) (by omega) (by omega)
  simp only [dnsBuildQuery, same, show ¬ 512 < 12 + 5 by omega, ↓reduceIte]
  cases encoded : dnsEncodeQname domain (300 - 4) with
  | none => simp
  | some qname =>
    simp only [Option.some.injEq, exists_eq_left', List.append_assoc]
    exact eq_comm

/-- A resource record. -/
structure DnsRecord where
  typ : UInt16
  cls : UInt16
  rdata : List UInt8

/-- A record stands at an offset, inside the message. -/
structure DnsRecord.At (dns : List UInt8) (off : Nat) (r : DnsRecord) (next : Nat) : Prop where
  named : ∃ o, dnsSkipName dns off = some o ∧ o + 10 + r.rdata.length ≤ dns.length ∧
    dns16 dns o = r.typ ∧ dns16 dns (o + 2) = r.cls ∧
    (dns16 dns (o + 8)).toNat = r.rdata.length ∧
    (dns.drop (o + 10)).take r.rdata.length = r.rdata ∧ next = o + 10 + r.rdata.length

/-- Records that follow each other in a message. -/
inductive DnsRecords (dns : List UInt8) : Nat → List DnsRecord → Nat → Prop where
  | nil (off : Nat) : DnsRecords dns off [] off
  | cons {off next stop : Nat} {r : DnsRecord} {rest : List DnsRecord} (here : r.At dns off next)
      (later : DnsRecords dns next rest stop) : DnsRecords dns off (r :: rest) stop

/-- Questions that follow each other in a message. -/
inductive DnsQuestions (dns : List UInt8) : Nat → Nat → Nat → Prop where
  | nil (off : Nat) : DnsQuestions dns off 0 off
  | cons {off o stop count : Nat} (named : dnsSkipName dns off = some o)
      (inside : o + 4 ≤ dns.length) (later : DnsQuestions dns (o + 4) count stop) :
      DnsQuestions dns off (count + 1) stop

def DnsRecord.Answers (qtype : UInt8) (r : DnsRecord) : Prop :=
  r.typ = qtype.toUInt16 ∧ r.cls = 1 ∧
    ((qtype = 1 ∧ r.rdata.length = 4) ∨ (qtype = 28 ∧ r.rdata.length = 16))

def DnsRecord.addr (r : DnsRecord) : TargetAddr :=
  if r.rdata.length = 4 then .v4 (ip4U32 (ip4At r.rdata 0)) else .v6 r.rdata

theorem dnsSkipQuestions_iff (dns : List UInt8) (count off stop : Nat) :
    dnsSkipQuestions dns count off = some stop ↔ DnsQuestions dns off count stop := by
  induction count generalizing off with
  | zero =>
    simp only [dnsSkipQuestions, Option.some.injEq]
    constructor
    · rintro rfl
      exact .nil off
    · intro none
      cases none
      rfl
  | succ count ih =>
    constructor
    · intro skipped
      simp only [dnsSkipQuestions] at skipped
      cases named : dnsSkipName dns off with
      | none => rw [named] at skipped; cases skipped
      | some o =>
        rw [named] at skipped
        dsimp only at skipped
        by_cases outside : dns.length < o + 4
        · rw [if_pos outside] at skipped
          cases skipped
        · rw [if_neg outside] at skipped
          exact .cons named (by omega) ((ih (o + 4)).mp skipped)
    · intro questions
      cases questions with
      | cons named inside later =>
        simp only [dnsSkipQuestions, named]
        rw [if_neg (by omega)]
        exact (ih _).mpr later

theorem ip4At_take (dns : List UInt8) (off : Nat) :
    ip4At dns off = ip4At ((dns.drop off).take 4) 0 := by
  have byte : ∀ k, k < 4 → byteAt ((dns.drop off).take 4) k = byteAt dns (off + k) := by
    intro k small
    rw [← byteAt_drop]
    unfold byteAt
    rw [List.getD_eq_getElem?_getD, List.getD_eq_getElem?_getD, List.getElem?_take_of_lt small]
  simp only [ip4At, Nat.zero_add, byte 0 (by omega), byte 1 (by omega), byte 2 (by omega),
    byte 3 (by omega), Nat.add_zero]

def dnsRecordAt (dns : List UInt8) (o : Nat) : DnsRecord :=
  ⟨dns16 dns o, dns16 dns (o + 2), (dns.drop (o + 10)).take (dns16 dns (o + 8)).toNat⟩

variable {dns : List UInt8}

theorem dnsRecordAt_length {o : Nat} (inside : o + 10 + (dns16 dns (o + 8)).toNat ≤ dns.length) :
    (dnsRecordAt dns o).rdata.length = (dns16 dns (o + 8)).toNat := by
  simp only [dnsRecordAt, List.length_take, List.length_drop]
  omega

variable {off : Nat}

theorem dnsRecordAt_at {o : Nat} (named : dnsSkipName dns off = some o)
    (inside : o + 10 + (dns16 dns (o + 8)).toNat ≤ dns.length) :
    (dnsRecordAt dns o).At dns off (o + 10 + (dns16 dns (o + 8)).toNat) := by
  have length := dnsRecordAt_length inside
  refine ⟨o, named, by rw [length]; exact inside, rfl, rfl, length.symm, ?_, by rw [length]⟩
  rw [length]
  rfl

theorem DnsRecord.At.eq {next : Nat} {r : DnsRecord}
    (here : r.At dns off next) : ∃ o, dnsSkipName dns off = some o ∧
      o + 10 + (dns16 dns (o + 8)).toNat ≤ dns.length ∧ r = dnsRecordAt dns o ∧
      next = o + 10 + (dns16 dns (o + 8)).toNat := by
  obtain ⟨o, named, inside, typ, cls, length, data, stop⟩ := here.named
  refine ⟨o, named, by omega, ?_, by omega⟩
  rw [← length] at data
  cases r
  simp only [dnsRecordAt, DnsRecord.mk.injEq]
  exact ⟨typ.symm, cls.symm, data.symm⟩

theorem dnsFindAnswer_succ (qtype : UInt8) (an : Nat) {o : Nat}
    (named : dnsSkipName dns off = some o)
    (inside : o + 10 + (dns16 dns (o + 8)).toNat ≤ dns.length) :
    ((dnsRecordAt dns o).Answers qtype →
        dnsFindAnswer dns qtype (an + 1) off = some (dnsRecordAt dns o).addr) ∧
      (¬ (dnsRecordAt dns o).Answers qtype →
        dnsFindAnswer dns qtype (an + 1) off =
          dnsFindAnswer dns qtype an (o + 10 + (dns16 dns (o + 8)).toNat)) := by
  have length := dnsRecordAt_length inside
  have answers : (dnsRecordAt dns o).Answers qtype ↔
      dns16 dns o = qtype.toUInt16 ∧ dns16 dns (o + 2) = 1 ∧
        ((qtype = 1 ∧ (dns16 dns (o + 8)).toNat = 4) ∨
          (qtype = 28 ∧ (dns16 dns (o + 8)).toNat = 16)) := by
    rw [DnsRecord.Answers, length]
    rfl
  rw [answers]
  simp only [dnsFindAnswer, named, if_neg (show ¬ dns.length < o + 10 by omega),
    if_neg (show ¬ dns.length < o + 10 + (dns16 dns (o + 8)).toNat by omega)]
  constructor
  · rintro ⟨typ, cls, ⟨four, size⟩ | ⟨six, size⟩⟩
    · rw [if_pos ⟨typ, cls, four, size⟩, DnsRecord.addr, if_pos (length.trans size),
        ip4At_take dns (o + 10)]
      simp only [dnsRecordAt, size]
    · have notFour : ¬ (dns16 dns o = qtype.toUInt16 ∧ dns16 dns (o + 2) = 1 ∧ qtype = 1 ∧
          (dns16 dns (o + 8)).toNat = 4) := by
        rintro ⟨-, -, -, four⟩
        omega
      rw [if_neg notFour, if_pos ⟨typ, cls, six, size⟩, DnsRecord.addr, if_neg (by omega)]
      simp only [dnsRecordAt, size]
  · intro other
    rw [if_neg (fun h => other ⟨h.1, h.2.1, .inl h.2.2⟩),
      if_neg (fun h => other ⟨h.1, h.2.1, .inr h.2.2⟩)]

def DnsFirst (dns : List UInt8) (qtype : UInt8) (an off : Nat) (r : DnsRecord) : Prop :=
  ∃ before at_ next, before.length < an ∧ DnsRecords dns off before at_ ∧
    (∀ b ∈ before, ¬ b.Answers qtype) ∧ r.At dns at_ next ∧ r.Answers qtype

theorem dnsFindAnswer_first {qtype : UInt8} {an : Nat} {addr : TargetAddr}
    (found : dnsFindAnswer dns qtype an off = some addr) :
    ∃ r, DnsFirst dns qtype an off r ∧ addr = r.addr := by
  induction an generalizing off with
  | zero => cases found
  | succ an ih =>
    cases named : dnsSkipName dns off with
    | none => simp only [dnsFindAnswer, named] at found; cases found
    | some o =>
      by_cases inside : o + 10 + (dns16 dns (o + 8)).toNat ≤ dns.length
      · obtain ⟨yes, no⟩ := dnsFindAnswer_succ qtype an named inside
        by_cases answers : (dnsRecordAt dns o).Answers qtype
        · rw [yes answers, Option.some.injEq] at found
          exact ⟨dnsRecordAt dns o, ⟨[], off, _, Nat.succ_pos an, .nil off, nofun,
            dnsRecordAt_at named inside, answers⟩, found.symm⟩
        · rw [no answers] at found
          obtain ⟨r, ⟨before, at_, next, few, walk, none, here, last⟩, same⟩ := ih found
          refine ⟨r, ⟨dnsRecordAt dns o :: before, at_, next, by simpa using few,
            .cons (dnsRecordAt_at named inside) walk, ?_, here, last⟩, same⟩
          intro b member
          rcases List.mem_cons.mp member with rfl | later
          · exact answers
          · exact none b later
      · simp only [dnsFindAnswer, named] at found
        by_cases short : dns.length < o + 10
        · rw [if_pos short] at found
          cases found
        · rw [if_neg short, if_pos (by omega)] at found
          cases found

theorem dnsFindAnswer_of_first {qtype : UInt8} {an : Nat} {r : DnsRecord}
    (first : DnsFirst dns qtype an off r) : dnsFindAnswer dns qtype an off = some r.addr := by
  obtain ⟨before, at_, next, few, walk, none, here, last⟩ := first
  induction walk generalizing an with
  | nil off =>
    obtain ⟨o, named, inside, rfl, -⟩ := here.eq
    obtain ⟨an, rfl⟩ := Nat.exists_eq_add_of_lt few
    simp only [List.length_nil, Nat.zero_add]
    exact (dnsFindAnswer_succ _ _ named inside).1 last
  | cons at_' walk ih =>
    obtain ⟨o, named, inside, rfl, rfl⟩ := at_'.eq
    obtain ⟨an, rfl⟩ : ∃ k, an = k + 1 := ⟨an - 1, by omega⟩
    rw [(dnsFindAnswer_succ _ _ named inside).2 (none _ List.mem_cons_self)]
    rw [List.length_cons] at few
    exact ih (by omega) (fun b member => none b (List.mem_cons_of_mem _ member)) here

def dnsQdcount (pkt : List UInt8) : Nat := (dns16 (dnsPayload pkt) 4).toNat

/-- The packet is the reply to a pending query: from the resolver's port 53 to the query's port,
with its id and its question, and the record is its first answer. -/
structure DnsReply (s : DnsSession) (w : DnsWait) (pkt : List UInt8) (r : DnsRecord) : Prop where
  udp : byteAt pkt 9 = 17
  framed : 20 ≤ dnsUlen pkt ∧ dnsIhl pkt + dnsUlen pkt ≤ pkt.length
  server : dns16 pkt (dnsIhl pkt) = 53 ∧ ip4U32 (ip4At pkt 12) = s.serverIp4
  session : ip4U32 (ip4At pkt 16) = s.ip
  port : dnsDport pkt = w.sport
  id : dns16 (dnsPayload pkt) 0 = w.dnsId
  response : dns16 (dnsPayload pkt) 2 &&& 0x8000 ≠ 0
  rcode : dns16 (dnsPayload pkt) 2 &&& 0x000F = 0
  asked : 1 ≤ dnsQdcount pkt
  message : ∃ question stop,
    (∃ query, dnsBuildQuery w.dnsId w.domain w.qtype 512 = some query ∧
      query.drop 12 = question) ∧
    question <+: (dnsPayload pkt).drop 12 ∧
    DnsQuestions (dnsPayload pkt) (12 + question.length) (dnsQdcount pkt - 1) stop ∧
    DnsFirst (dnsPayload pkt) w.qtype (dns16 (dnsPayload pkt) 6).toNat stop r

variable {pkt : List UInt8}

theorem dnsUdpOk_iff {src dst : UInt32} (accepted : ipv4PktOk pkt = some (src, dst)) :
    dnsUdpOk pkt = true ↔ byteAt pkt 9 = 17 ∧ 20 ≤ dnsUlen pkt ∧
      dnsIhl pkt + dnsUlen pkt ≤ pkt.length := by
  have version := (ipv4PktOk_some pkt src dst accepted).2.1
  have header : 20 ≤ dnsIhl pkt := by
    simp only [ipv4PktOk] at accepted
    split_ifs at accepted with _ _ small
    unfold dnsIhl
    omega
  simp only [dnsUdpOk, version, ne_eq, not_true, decide_false, Bool.or_false, Bool.and_eq_true,
    Bool.not_eq_true', Bool.or_eq_false_iff, decide_eq_false_iff_not, not_not]
  constructor
  · rintro ⟨⟨⟨-, udp⟩, -⟩, long, inside⟩
    exact ⟨udp, by omega, by omega⟩
  · rintro ⟨udp, long, inside⟩
    exact ⟨⟨⟨by omega, udp⟩, by omega, by omega⟩, by omega, by omega⟩

theorem qdcount_iff (hi lo : UInt8) :
    ¬ (hi ≠ 0 ∨ lo < 1) ↔ 1 ≤ (be16 hi lo).toNat ∧ (be16 hi lo).toNat < 256 := by
  have low : lo < 1 ↔ lo.toNat < 1 := UInt8.lt_iff_toNat_lt
  have high : hi = 0 ↔ hi.toNat = 0 := by rw [← UInt8.toNat_inj]; rfl
  have bound := lo.toNat_lt
  rw [be16_toNat, low, ne_eq, high]
  omega

theorem dnsAnswer_iff (w : DnsWait) (dns : List UInt8) (addr : TargetAddr) :
    dnsAnswer w dns = some addr ↔
      dns16 dns 0 = w.dnsId ∧ dns16 dns 2 &&& 0x8000 ≠ 0 ∧ dns16 dns 2 &&& 0x000F = 0 ∧
        (1 ≤ (dns16 dns 4).toNat ∧ (dns16 dns 4).toNat < 256) ∧
        ∃ question stop r,
          (∃ query, dnsBuildQuery w.dnsId w.domain w.qtype 512 = some query ∧
            query.drop 12 = question) ∧
          question <+: dns.drop 12 ∧
          DnsQuestions dns (12 + question.length) ((dns16 dns 4).toNat - 1) stop ∧
          DnsFirst dns w.qtype (dns16 dns 6).toNat stop r ∧ addr = r.addr := by
  have count := qdcount_iff (byteAt dns 4) (byteAt dns 5)
  rw [show be16 (byteAt dns 4) (byteAt dns 5) = dns16 dns 4 from rfl] at count
  simp only [dnsAnswer, dnsBuildQuery_question]
  by_cases id : dns16 dns 0 = w.dnsId
  swap
  · simp only [id, ne_eq, not_false_eq_true, ↓reduceIte, reduceCtorEq, false_and]
  by_cases flags : dns16 dns 2 &&& 0x8000 = 0 ∨ dns16 dns 2 &&& 0x000F ≠ 0
  · rw [if_neg (not_not.mpr id), if_pos flags]
    refine ⟨nofun, fun reply => ?_⟩
    rcases flags with query | error
    · exact absurd query reply.2.1
    · exact absurd reply.2.2.1 error
  rw [if_neg (not_not.mpr id), if_neg flags]
  push Not at flags
  by_cases asked : byteAt dns 4 ≠ 0 ∨ byteAt dns 5 < 1
  · rw [if_pos asked]
    exact ⟨nofun, fun reply => absurd asked (count.mpr reply.2.2.2.1)⟩
  rw [if_neg asked]
  have counted := count.mp asked
  cases encoded : dnsEncodeQname w.domain (300 - 4) with
  | none => simp
  | some qname =>
    dsimp only
    generalize same : qname ++ [0x00, w.qtype, 0x00, 0x01] = question
    have sized : 4 ≤ question.length := by
      rw [← same, List.length_append]
      simp
    have matches_ : ¬ (dns.length < 12 + question.length ∨
        (dns.drop 12).take question.length ≠ question) ↔ question <+: dns.drop 12 := by
      rw [List.prefix_iff_eq_take]
      constructor
      · intro whole
        push Not at whole
        exact whole.2.symm
      · intro front
        have length := congrArg List.length front
        rw [List.length_take, List.length_drop] at length
        push Not
        exact ⟨by omega, front.symm⟩
    by_cases bad : dns.length < 12 + question.length ∨
        (dns.drop 12).take question.length ≠ question
    · rw [if_pos bad]
      refine ⟨nofun, ?_⟩
      rintro ⟨-, -, -, -, other, stop, r, ⟨name, written, rfl⟩, front, -⟩
      cases written
      rw [same] at front
      exact absurd bad (matches_.mpr front)
    rw [if_neg bad]
    have front := matches_.mp bad
    constructor
    · intro found
      cases skipped : dnsSkipQuestions dns ((dns16 dns 4).toNat - 1) (12 + question.length) with
      | none => rw [skipped] at found; cases found
      | some stop =>
        rw [skipped] at found
        obtain ⟨r, first, address⟩ := dnsFindAnswer_first found
        exact ⟨id, flags.1, flags.2, counted, question, stop, r, ⟨qname, rfl, same.symm⟩,
          front, (dnsSkipQuestions_iff _ _ _ _).mp skipped, first, address⟩
    · rintro ⟨-, -, -, -, other, stop, r, ⟨name, written, rfl⟩, -, questions, first, address⟩
      cases written
      rw [same] at questions
      rw [(dnsSkipQuestions_iff _ _ _ _).mpr questions]
      dsimp only
      rw [dnsFindAnswer_of_first first, address]

theorem dnsMatch_iff (s : DnsSession) (w : DnsWait) {src dst : UInt32}
    (accepted : ipv4PktOk pkt = some (src, dst)) (addr : TargetAddr) :
    (dnsUdpOk pkt = true ∧ dnsDport pkt = w.sport ∧ dnsMatch s w pkt = some addr) ↔
      ∃ r, DnsReply s w pkt r ∧ dnsQdcount pkt < 256 ∧ addr = r.addr := by
  rw [dnsUdpOk_iff accepted]
  simp only [dnsMatch]
  constructor
  · rintro ⟨⟨udp, framed⟩, port, matched⟩
    by_cases from53 : dns16 pkt (dnsIhl pkt) = 53
    swap
    · rw [if_pos from53] at matched
      cases matched
    by_cases server : ip4U32 (ip4At pkt 12) = s.serverIp4
    swap
    · rw [if_neg (not_not.mpr from53), if_pos server] at matched
      cases matched
    by_cases session : ip4U32 (ip4At pkt 16) = s.ip
    swap
    · rw [if_neg (not_not.mpr from53), if_neg (not_not.mpr server), if_pos session] at matched
      cases matched
    rw [if_neg (not_not.mpr from53), if_neg (not_not.mpr server), if_neg (not_not.mpr session),
      dnsAnswer_iff] at matched
    obtain ⟨id, response, rcode, counted, question, stop, r, encoded, front, questions, first,
      address⟩ := matched
    exact ⟨r, ⟨udp, framed, ⟨from53, server⟩, session, port, id, response, rcode, counted.1,
      question, stop, encoded, front, questions, first⟩, counted.2, address⟩
  · rintro ⟨r, reply, few, address⟩
    obtain ⟨question, stop, encoded, front, questions, first⟩ := reply.message
    refine ⟨⟨reply.udp, reply.framed⟩, reply.port, ?_⟩
    rw [if_neg (not_not.mpr reply.server.1), if_neg (not_not.mpr reply.server.2),
      if_neg (not_not.mpr reply.session), dnsAnswer_iff]
    exact ⟨reply.id, reply.response, reply.rcode, ⟨reply.asked, few⟩, question, stop, r, encoded,
      front, questions, first, address⟩

variable {t : DnsTable}

theorem dnsLookup_some {dport : UInt16} {slot : Nat} (found : dnsLookup t dport = some slot) :
    ∃ w, t.waits[slot]? = some w ∧ w.inUse = true ∧ w.sport = dport := by
  obtain ⟨inside, test, -⟩ := List.findIdx?_eq_some_iff_getElem.mp found
  rw [Bool.and_eq_true, beq_iff_eq] at test
  exact ⟨t.waits[slot], List.getElem?_eq_getElem inside, test⟩

theorem dnsLookup_none {dport : UInt16} (absent : dnsLookup t dport = none) :
    ∀ w ∈ t.waits, w.inUse = true → w.sport ≠ dport := by
  intro w member used same
  have test := List.findIdx?_eq_none_iff.mp absent w member
  rw [used, same, Bool.true_and, beq_self_eq_true] at test
  cases test

variable {w : DnsWait}

theorem DnsTable.Distinct.lookup (distinct : t.Distinct) {slot : Nat}
    (here : t.waits[slot]? = some w) (used : w.inUse = true) :
    dnsLookup t w.sport = some slot := by
  cases found : dnsLookup t w.sport with
  | none => exact absurd rfl (dnsLookup_none found w (List.mem_of_getElem? here) used)
  | some other =>
    obtain ⟨v, there, inUse, same⟩ := dnsLookup_some found
    rw [distinct other slot v w there here inUse used same]

theorem DnsTable.Counted.waiting (counted : t.Counted)
    (member : w ∈ t.waits) (used : w.inUse = true) : t.waitN ≠ 0 := by
  have positive : 0 < t.pending := List.countP_pos_iff.mpr ⟨w, member, used⟩
  rw [counted]
  omega

theorem dnsTryHandleResponse_at {s : DnsSession}
    (counted : t.Counted) {slot : Nat} (framed : dnsUdpOk pkt = true)
    (found : dnsLookup t (dnsDport pkt) = some slot) (here : t.waits[slot]? = some w) :
    dnsTryHandleResponse s t pkt =
      match dnsMatch s w pkt with
      | none => ⟨true, t, none⟩
      | some addr => ⟨true, t.retire slot, some ⟨s.gen, w.flowId, some addr, w.port⟩⟩ := by
  obtain ⟨v, there, used, -⟩ := dnsLookup_some found
  rw [here, Option.some.injEq] at there
  subst there
  have waiting := counted.waiting (List.mem_of_getElem? here) used
  simp only [dnsTryHandleResponse, framed, Bool.not_true, Bool.false_eq_true, ↓reduceIte, waiting,
    found, here]
  cases dnsMatch s w pkt with
  | none => rfl
  | some addr =>
    simp only [dnsConsumeAnswer, dnsStillWaits, here, used, beq_self_eq_true, Bool.and_self,
      ↓reduceIte]

theorem dnsTryHandleResponse_left {s : DnsSession}
    (left : dnsUdpOk pkt = false ∨ dnsLookup t (dnsDport pkt) = none) :
    dnsTryHandleResponse s t pkt = ⟨false, t, none⟩ := by
  simp only [dnsTryHandleResponse]
  rcases left with unframed | absent
  · rw [unframed]
    rfl
  · rw [absent]
    split_ifs <;> rfl

/-- A success is pushed only for the reply to a pending query, with the first answering record. -/
theorem dnsTryHandleResponse_answers (s : DnsSession) (t : DnsTable) (pkt : List UInt8)
    (counted : t.Counted) (distinct : t.Distinct) (src dst : UInt32)
    (accepted : ipv4PktOk pkt = some (src, dst)) :
    (∀ res, (dnsTryHandleResponse s t pkt).pushed = some res →
        ∃ slot w r, t.waits[slot]? = some w ∧ w.inUse = true ∧ DnsReply s w pkt r ∧
          res = ⟨s.gen, w.flowId, some r.addr, w.port⟩ ∧
          dnsTryHandleResponse s t pkt = ⟨true, t.retire slot, some res⟩) ∧
      (∀ slot w r, t.waits[slot]? = some w → w.inUse = true → DnsReply s w pkt r →
        dnsQdcount pkt < 256 →
          dnsTryHandleResponse s t pkt =
            ⟨true, t.retire slot, some ⟨s.gen, w.flowId, some r.addr, w.port⟩⟩) ∧
      ((byteAt pkt 9 = 17 → ∀ w ∈ t.waits, w.inUse = true → w.sport ≠ dnsDport pkt) →
        dnsTryHandleResponse s t pkt = ⟨false, t, none⟩) := by
  refine ⟨fun res pushed => ?_, fun slot w r here used reply few => ?_, fun unasked => ?_⟩
  · cases framed : dnsUdpOk pkt with
    | false => rw [dnsTryHandleResponse_left (.inl framed)] at pushed; cases pushed
    | true =>
      cases found : dnsLookup t (dnsDport pkt) with
      | none => rw [dnsTryHandleResponse_left (.inr found)] at pushed; cases pushed
      | some slot =>
        obtain ⟨w, here, used, port⟩ := dnsLookup_some found
        have handled := dnsTryHandleResponse_at (s := s) counted framed found here
        cases matched : dnsMatch s w pkt with
        | none => rw [handled, matched] at pushed; cases pushed
        | some addr =>
          rw [matched] at handled
          obtain ⟨r, reply, -, address⟩ :=
            (dnsMatch_iff s w accepted addr).mp ⟨framed, port.symm, matched⟩
          rw [handled, Option.some.injEq] at pushed
          exact ⟨slot, w, r, here, used, reply, by rw [← pushed, address],
            by rw [handled, ← pushed]⟩
  · obtain ⟨framed, port, matched⟩ := (dnsMatch_iff s w accepted r.addr).mpr ⟨r, reply, few, rfl⟩
    have found : dnsLookup t (dnsDport pkt) = some slot := by
      rw [port]
      exact distinct.lookup here used
    rw [dnsTryHandleResponse_at counted framed found here, matched]
  · apply dnsTryHandleResponse_left
    cases framed : dnsUdpOk pkt with
    | false => exact .inl rfl
    | true =>
      refine .inr ?_
      cases found : dnsLookup t (dnsDport pkt) with
      | none => rfl
      | some slot =>
        obtain ⟨w, here, used, port⟩ := dnsLookup_some found
        exact absurd port
          (unasked ((dnsUdpOk_iff accepted).mp framed).1 w (List.mem_of_getElem? here) used)

def sampleWait : DnsWait :=
  ⟨true, 1, 49152, 0, 1500, dnsMaxResend, [0x61], 7, 443, 1⟩

def sampleDnsSession : DnsSession := ⟨0x0A000001, 0x0A000002, 1⟩

/-- A reply with the name's question, more questions and one record. -/
def sampleReply (total udp : UInt16) (qdcount : UInt16) (more : Nat) : List UInt8 :=
  [0x45, 0] ++ bytes16 total ++ [0, 0, 0, 0, 64, 17, 0, 0, 10, 0, 0, 1, 10, 0, 0, 2] ++
    [0, 53, 0xC0, 0] ++ bytes16 udp ++ [0, 0] ++
    [0, 1, 0x81, 0x80] ++ bytes16 qdcount ++ [0, 1, 0, 0, 0, 0] ++
    [1, 0x61, 0, 0, 1, 0, 1] ++ (List.replicate more [0, 0, 1, 0, 1]).flatten ++
    [0, 0, 1, 0, 1, 0, 0, 0, 0, 0, 4, 1, 2, 3, 4]

theorem sampleTable_distinct : DnsTable.Distinct ⟨[sampleWait], 1⟩ := by
  have only : ∀ (i : Nat) (w : DnsWait), [sampleWait][i]? = some w → i = 0 := by
    intro i w here
    have inside := (List.getElem?_eq_some_iff.mp here).1
    rw [List.length_singleton] at inside
    omega
  intro i j w v first second _ _ _
  rw [only i w first, only j v second]

def sampleRecord : DnsRecord := ⟨1, 1, [1, 2, 3, 4]⟩

theorem sampleReply_reply (pkt : List UInt8) (stop o : Nat)
    (header : byteAt pkt 9 = 17 ∧ 20 ≤ dnsUlen pkt ∧ dnsIhl pkt + dnsUlen pkt ≤ pkt.length ∧
      dns16 pkt (dnsIhl pkt) = 53 ∧ ip4U32 (ip4At pkt 12) = sampleDnsSession.serverIp4 ∧
      ip4U32 (ip4At pkt 16) = sampleDnsSession.ip ∧ dnsDport pkt = sampleWait.sport)
    (fixed : dns16 (dnsPayload pkt) 0 = sampleWait.dnsId ∧
      dns16 (dnsPayload pkt) 2 &&& 0x8000 ≠ 0 ∧ dns16 (dnsPayload pkt) 2 &&& 0x000F = 0 ∧
      1 ≤ dnsQdcount pkt)
    (question : [1, 0x61, 0, 0, 1, 0, 1] <+: (dnsPayload pkt).drop 12)
    (questions : dnsSkipQuestions (dnsPayload pkt) (dnsQdcount pkt - 1) 19 = some stop)
    (answered : 0 < (dns16 (dnsPayload pkt) 6).toNat)
    (named : dnsSkipName (dnsPayload pkt) stop = some o)
    (record : o + 14 ≤ (dnsPayload pkt).length ∧ dns16 (dnsPayload pkt) o = 1 ∧
      dns16 (dnsPayload pkt) (o + 2) = 1 ∧ (dns16 (dnsPayload pkt) (o + 8)).toNat = 4 ∧
      ((dnsPayload pkt).drop (o + 10)).take 4 = [1, 2, 3, 4]) :
    DnsReply sampleDnsSession sampleWait pkt sampleRecord := by
  obtain ⟨udp17, long, inside, from53, server, session, port⟩ := header
  obtain ⟨id, response, rcode, asked⟩ := fixed
  obtain ⟨room, typ, cls, length, data⟩ := record
  refine ⟨udp17, ⟨long, inside⟩, ⟨from53, server⟩, session, port, id, response, rcode, asked,
    [1, 0x61, 0, 0, 1, 0, 1], stop, ?_, question, (dnsSkipQuestions_iff _ _ _ _).mp questions, ?_⟩
  · exact ⟨_, rfl, by decide +kernel⟩
  · exact ⟨[], stop, o + 14, answered, .nil stop, nofun,
      ⟨o, named, room, typ, cls, length, data, rfl⟩, rfl, rfl, .inl ⟨rfl, rfl⟩⟩

theorem dnsSkipName_root (front back : List UInt8) :
    dnsSkipName (front ++ 0 :: back) front.length = some (front.length + 1) := by
  have size : (front ++ 0 :: back).length - front.length = back.length + 1 := by simp
  have root : byteAt (front ++ 0 :: back) front.length = 0 := by simp [byteAt]
  rw [dnsSkipName, size, dnsSkipNameLoop, if_neg (by simp)]
  dsimp only
  rw [root]
  rfl

theorem dnsSkipQuestions_roots (front back : List UInt8) (count : Nat) :
    dnsSkipQuestions (front ++ ((List.replicate count [0, 0, 1, 0, 1]).flatten ++ back)) count
      front.length = some (front.length + 5 * count) := by
  induction count generalizing front with
  | zero => rfl
  | succ count ih =>
    have later := ih (front ++ [0, 0, 1, 0, 1])
    rw [List.replicate_succ, List.flatten_cons]
    rw [List.append_assoc front, List.length_append, ← List.append_assoc _ _ back] at later
    have named : dnsSkipName (front ++ ([0, 0, 1, 0, 1] ++
        (List.replicate count [0, 0, 1, 0, 1]).flatten ++ back)) front.length =
          some (front.length + 1) := dnsSkipName_root front _
    have inside : ¬ (front ++ ([0, 0, 1, 0, 1] ++
        (List.replicate count [0, 0, 1, 0, 1]).flatten ++ back)).length <
          front.length + 1 + 4 := by
      simp only [List.length_append, List.length_cons, List.length_nil]
      omega
    rw [dnsSkipQuestions, named]
    dsimp only
    rw [if_neg inside]
    refine later.trans (congrArg some ?_)
    simp only [List.length_cons, List.length_nil]
    omega

/-- A reply with 256 well-formed questions is dropped. -/
theorem dnsTryHandleResponse_crowded :
    DnsTable.Counted ⟨[sampleWait], 1⟩ ∧ DnsTable.Distinct ⟨[sampleWait], 1⟩ ∧
      ipv4PktOk (sampleReply 1337 1317 256 255) = some (0x0A000001, 0x0A000002) ∧
      DnsReply sampleDnsSession sampleWait (sampleReply 1337 1317 256 255) sampleRecord ∧
      dnsTryHandleResponse sampleDnsSession ⟨[sampleWait], 1⟩ (sampleReply 1337 1317 256 255) =
        ⟨true, ⟨[sampleWait], 1⟩, none⟩ := by
  have payload : dnsPayload (sampleReply 1337 1317 256 255) =
      [0, 1, 0x81, 0x80, 1, 0, 0, 1, 0, 0, 0, 0, 1, 0x61, 0, 0, 1, 0, 1] ++
        ((List.replicate 255 [0, 0, 1, 0, 1]).flatten ++
          [0, 0, 1, 0, 1, 0, 0, 0, 0, 0, 4, 1, 2, 3, 4]) := by decide +kernel
  have count : dnsQdcount (sampleReply 1337 1317 256 255) - 1 = 255 := by decide +kernel
  have questions : dnsSkipQuestions (dnsPayload (sampleReply 1337 1317 256 255))
      (dnsQdcount (sampleReply 1337 1317 256 255) - 1) 19 = some 1294 := by
    rw [count, payload]
    exact dnsSkipQuestions_roots _ _ 255
  refine ⟨rfl, sampleTable_distinct, by decide +kernel, ?_, by decide +kernel⟩
  exact sampleReply_reply (sampleReply 1337 1317 256 255) 1294 1295 (by decide +kernel)
    (by decide +kernel) (by decide +kernel) questions (by decide +kernel) (by decide +kernel)
    (by decide +kernel)

theorem dnsTryHandleResponse_answers_sample :
    ipv4PktOk (sampleReply 62 42 1 0) = some (0x0A000001, 0x0A000002) ∧
      dnsTryHandleResponse sampleDnsSession ⟨[sampleWait], 1⟩ (sampleReply 62 42 1 0) =
        ⟨true, DnsTable.retire ⟨[sampleWait], 1⟩ 0, some ⟨1, 7, some sampleRecord.addr, 443⟩⟩ := by
  have accepted : ipv4PktOk (sampleReply 62 42 1 0) = some (0x0A000001, 0x0A000002) := by
    decide +kernel
  have reply := sampleReply_reply (sampleReply 62 42 1 0) 19 20 (by decide +kernel)
    (by decide +kernel) (by decide +kernel) (by decide +kernel) (by decide +kernel)
    (by decide +kernel)
    (by decide +kernel)
  have handled := dnsTryHandleResponse_answers sampleDnsSession ⟨[sampleWait], 1⟩
    (sampleReply 62 42 1 0) rfl sampleTable_distinct _ _ accepted
  exact ⟨accepted, handled.2.1 0 sampleWait sampleRecord rfl rfl reply (by decide +kernel)⟩

end Iwan
