import Iwan.Client.Auth

/- What the client accepts as an acknowledgement (auth.c). -/
namespace Iwan

open BigEndian

def tlvBytes (list : List Tlv) : List UInt8 := list.flatMap Tlv.bytes

@[simp] theorem tlvBytes_nil : tlvBytes [] = [] := rfl

theorem tlvBytes_cons (t : Tlv) (list : List Tlv) :
    tlvBytes (t :: list) = t.bytes ++ tlvBytes list :=
  List.flatMap_cons

def TlvBroken : List UInt8 → Prop
  | _ :: l :: rest => l < 2 ∨ rest.length + 2 < l.toNat
  | _ => True

section

variable {σ : Type} (cb : UInt8 → List UInt8 → σ → σ × Bool)

theorem parseTlvs_broken {data : List UInt8} (broken : TlvBroken data) (ud : σ) :
    parseTlvs cb data ud = (ud, data.isEmpty) := by
  match data with
  | [] => rfl
  | [_] => rfl
  | t :: l :: rest =>
    have stop : l < 2 ∨ rest.length + 2 < l.toNat := broken
    unfold parseTlvs
    rw [List.length_cons, parseTlvsLoop, if_pos stop]
    rfl

theorem tlvs_split (data : List UInt8) :
    ∃ (list : List Tlv) (tail : List UInt8), data = tlvBytes list ++ tail ∧ TlvBroken tail := by
  induction length : data.length using Nat.strong_induction_on generalizing data with
  | _ size ih =>
    match data with
    | [] => exact ⟨[], [], rfl, trivial⟩
    | [byte] => exact ⟨[], [byte], rfl, trivial⟩
    | typ :: l :: rest =>
      by_cases broken : l < 2 ∨ rest.length + 2 < l.toNat
      · exact ⟨[], typ :: l :: rest, rfl, broken⟩
      · have lower : 2 ≤ l.toNat := by
          rw [UInt8.lt_iff_toNat_lt] at broken
          simp only [UInt8.reduceToNat] at broken
          omega
        have upper : l.toNat - 2 ≤ rest.length := by omega
        have byte := l.toNat_lt
        have taken : (rest.take (l.toNat - 2)).length = l.toNat - 2 :=
          List.length_take_of_le upper
        have short : (rest.take (l.toNat - 2)).length ≤ iwanTlvVlenMax := by
          rw [taken, iwanTlvVlenMax]
          omega
        have smaller : (rest.drop (l.toNat - 2)).length < size := by
          rw [← length, List.length_drop, List.length_cons, List.length_cons]
          omega
        obtain ⟨list, tail, split, broken'⟩ := ih _ smaller _ rfl
        refine ⟨⟨typ, ⟨rest.take (l.toNat - 2), short⟩⟩ :: list, tail, ?_, broken'⟩
        have header : UInt8.ofNat ((rest.take (l.toNat - 2)).length + 2) = l := by
          rw [taken, Nat.sub_add_cancel lower, UInt8.ofNat_toNat]
        rw [tlvBytes_cons, List.append_assoc, ← split, Tlv.bytes, header]
        change typ :: l :: rest = typ :: l :: (_ ++ _)
        rw [List.take_append_drop]

theorem parseTlvs_tlvBytes (list : List Tlv) (seen : List (UInt8 × List UInt8)) :
    parseTlvs (fun typ val seen => (seen ++ [(typ, val)], true)) (tlvBytes list) seen =
      (seen ++ list.map fun t => (t.typ, t.val.bytes), true) := by
  induction list generalizing seen with
  | nil =>
    rw [tlvBytes_nil, parseTlvs_nil, List.map_nil, List.append_nil]
  | cons t list ih =>
    rw [tlvBytes_cons, parseTlvs_bytes, if_pos rfl, ih, List.map_cons, List.append_assoc]
    rfl

end

def lastOf (list : List Tlv) (typ : TlvType) : Option (List UInt8) :=
  (list.reverse.find? fun t => t.typ == typ.code).map fun t => t.val.bytes

def ackMtu (m : UInt16) : UInt16 :=
  if m < iwanMtuMin then iwanMtuMin else if iwanMtuMax < m then iwanMtuMax else m

def ackIp (val : List UInt8) : List UInt8 := ipToString (ip4At val 0)

def ackFields (sid : UInt16) (tok : UInt32) (list : List Tlv) : AuthResult where
  sid := sid
  tok := tok
  tun := (lastOf list .tIp).elim [] ackIp
  gw := (lastOf list .tGateway).elim [] ackIp
  dns := (lastOf list .tDns).elim [] ackIp
  mtu := (lastOf list .tMtu).elim iwanDefaultMtu
    fun val => ackMtu (be16 (byteAt val 0) (byteAt val 1))
  enc := (lastOf list .tEncrypt).elim 1 fun val => if byteAt val 0 ≠ 0 then 1 else 0

def ackWidths : List (TlvType × Nat) :=
  [(.tIp, 4), (.tGateway, 4), (.tDns, 4), (.tMtu, 2), (.tEncrypt, 1)]

def ackMandatory : List TlvType := [.tIp, .tGateway, .tDns, .tMtu]

def Tlv.Fine (t : Tlv) (nonce : UInt32) : Prop :=
  (∀ entry ∈ ackWidths, t.typ = entry.1.code → entry.2 ≤ t.val.bytes.length) ∧
    (t.typ = TlvType.tAuthVerify.code → t.val.bytes = bytes32 nonce)

/-- A signed OPEN_ACK of an allowed length. -/
structure AckHeader (crypto : Crypto) (buf : List UInt8) : Prop where
  type : hdrTyp buf = FrameType.ptOpenAck.code
  long : iwanCtrlLen ≤ buf.length
  short : buf.length ≤ iwanCtrlLen + 31
  signed : verifySig crypto buf = true
  token : hdrTok buf ≠ 0

/-- The header and the values that parse_ack asks for. -/
structure AckAccepts (crypto : Crypto) (buf : List UInt8) (nonce : UInt32) (list : List Tlv) :
    Prop where
  header : AckHeader crypto buf
  tlvs : buf.drop iwanCtrlLen = tlvBytes list
  mandatory : ∀ typ ∈ ackMandatory, ∃ t ∈ list, t.typ = typ.code
  fine : ∀ t ∈ list, t.Fine nonce

theorem TlvType.ofCode_iff (code : UInt8) (typ : TlvType) :
    TlvType.ofCode code = some typ ↔ code = typ.code := by
  constructor
  · intro found
    have named := List.find?_some found
    exact (beq_iff_eq.mp named).symm
  · rintro rfl
    exact TlvType.ofCode_code typ

theorem lastOf_snoc (list : List Tlv) (t : Tlv) (typ : TlvType) :
    lastOf (list ++ [t]) typ =
      if TlvType.ofCode t.typ = some typ then some t.val.bytes else lastOf list typ := by
  unfold lastOf
  rw [List.reverse_append, List.reverse_singleton, List.singleton_append, List.find?_cons]
  by_cases same : t.typ = typ.code
  · rw [if_pos ((TlvType.ofCode_iff _ _).mpr same), beq_iff_eq.mpr same]
    rfl
  · rw [if_neg fun found => same ((TlvType.ofCode_iff _ _).mp found), beq_eq_false_iff_ne.mpr same]

theorem lastOf_isSome (list : List Tlv) (typ : TlvType) :
    (lastOf list typ).isSome = true ↔ ∃ t ∈ list, t.typ = typ.code := by
  unfold lastOf
  rw [Option.isSome_map, List.find?_isSome]
  simp only [List.mem_reverse, beq_iff_eq]

def gotBits (ip gateway dns mtu : Bool) : UInt8 :=
  (if ip then 1 else 0) ||| (if gateway then 2 else 0) ||| (if dns then 4 else 0) |||
    if mtu then 8 else 0

theorem gotBits_ip (ip gateway dns mtu : Bool) :
    gotBits ip gateway dns mtu ||| 1 = gotBits true gateway dns mtu := by
  cases ip <;> cases gateway <;> cases dns <;> cases mtu <;> rfl

theorem gotBits_gateway (ip gateway dns mtu : Bool) :
    gotBits ip gateway dns mtu ||| 2 = gotBits ip true dns mtu := by
  cases ip <;> cases gateway <;> cases dns <;> cases mtu <;> rfl

theorem gotBits_dns (ip gateway dns mtu : Bool) :
    gotBits ip gateway dns mtu ||| 4 = gotBits ip gateway true mtu := by
  cases ip <;> cases gateway <;> cases dns <;> cases mtu <;> rfl

theorem gotBits_mtu (ip gateway dns mtu : Bool) :
    gotBits ip gateway dns mtu ||| 8 = gotBits ip gateway dns true := by
  cases ip <;> cases gateway <;> cases dns <;> cases mtu <;> rfl

def ackGot (list : List Tlv) : UInt8 :=
  gotBits (lastOf list .tIp).isSome (lastOf list .tGateway).isSome (lastOf list .tDns).isSome
    (lastOf list .tMtu).isSome

theorem ackGot_full (list : List Tlv) :
    ackGot list &&& 0x0F = 0x0F ↔ ∀ typ ∈ ackMandatory, ∃ t ∈ list, t.typ = typ.code := by
  simp only [← lastOf_isSome, ackMandatory, List.forall_mem_cons, List.not_mem_nil,
    false_imp_iff, implies_true, and_true, ackGot]
  cases (lastOf list .tIp).isSome <;> cases (lastOf list .tGateway).isSome <;>
    cases (lastOf list .tDns).isSome <;> cases (lastOf list .tMtu).isSome <;> decide

section

variable {sid : UInt16} {tok nonce : UInt32}

def ackState (sid : UInt16) (tok nonce : UInt32) (list : List Tlv) : AckCtx :=
  ⟨ackFields sid tok list, nonce, none, ackGot list⟩

theorem Tlv.Fine.width {t : Tlv} (fine : t.Fine nonce) {typ : TlvType} {width : Nat}
    (entry : (typ, width) ∈ ackWidths) (code : TlvType.ofCode t.typ = some typ) :
    ¬ t.val.bytes.length < width :=
  Nat.not_lt.mpr (fine.1 _ entry ((TlvType.ofCode_iff _ _).mp code))

theorem verify_iff (val : List UInt8) (nonce : UInt32) :
    val = bytes32 nonce ↔ val.length = 4 ∧
      be32 (byteAt val 0) (byteAt val 1) (byteAt val 2) (byteAt val 3) = nonce := by
  constructor
  · rintro rfl
    exact ⟨rfl, be32_bytes32 nonce⟩
  · rintro ⟨length, rfl⟩
    match val, length with
    | [a, b, c, d], _ => exact (bytes32_be32 a b c d).symm

theorem ackTlv_fine {t : Tlv} (fine : t.Fine nonce) (list : List Tlv) :
    ackTlv t.typ t.val.bytes (ackState sid tok nonce list) =
      (ackState sid tok nonce (list ++ [t]), true) := by
  unfold ackTlv
  cases code : TlvType.ofCode t.typ with
  | none => simp [ackState, ackFields, ackGot, lastOf_snoc, code]
  | some typ =>
    cases typ with
    | tIp =>
      have wide := fine.width (List.mem_of_elem_eq_true rfl : (.tIp, 4) ∈ ackWidths) code
      simp [ackState, ackFields, ackGot, lastOf_snoc, code, wide, gotBits_ip, ackIp]
    | tGateway =>
      have wide := fine.width (List.mem_of_elem_eq_true rfl : (.tGateway, 4) ∈ ackWidths) code
      simp [ackState, ackFields, ackGot, lastOf_snoc, code, wide, gotBits_gateway, ackIp]
    | tDns =>
      have wide := fine.width (List.mem_of_elem_eq_true rfl : (.tDns, 4) ∈ ackWidths) code
      simp [ackState, ackFields, ackGot, lastOf_snoc, code, wide, gotBits_dns, ackIp]
    | tMtu =>
      have wide := fine.width (List.mem_of_elem_eq_true rfl : (.tMtu, 2) ∈ ackWidths) code
      simp [ackState, ackFields, ackGot, lastOf_snoc, code, wide, gotBits_mtu, ackMtu]
    | tEncrypt =>
      have wide := fine.width (List.mem_of_elem_eq_true rfl : (.tEncrypt, 1) ∈ ackWidths) code
      dsimp only
      rw [if_neg wide]
      simp [ackState, ackFields, ackGot, lastOf_snoc, code]
    | tAuthVerify =>
      have echo := (verify_iff _ _).mp (fine.2 ((TlvType.ofCode_iff _ _).mp code))
      simp [ackState, ackFields, ackGot, lastOf_snoc, code, echo]
    | _ => simp [ackState, ackFields, ackGot, lastOf_snoc, code]

theorem ackTlv_refused {t : Tlv} (refused : ¬ t.Fine nonce) (c : AckCtx)
    (expect : c.expect = nonce) :
    (ackTlv t.typ t.val.bytes c).2 = false ∧ (ackTlv t.typ t.val.bytes c).1.err ≠ none := by
  simp only [Tlv.Fine, ackWidths, List.forall_mem_cons, ← TlvType.ofCode_iff] at refused
  unfold ackTlv
  cases code : TlvType.ofCode t.typ with
  | none => simp [code] at refused
  | some typ =>
    cases typ with
    | tIp | tGateway | tDns | tMtu | tEncrypt =>
      have narrow := by simpa [code] using refused
      simp [AckCtx.short, narrow]
    | tAuthVerify =>
      have differs := by simpa [code] using refused
      rw [verify_iff, ← expect] at differs
      dsimp only
      split
      · exact ⟨rfl, Option.some_ne_none _⟩
      · rename_i length
        rw [if_pos fun echo => differs ⟨not_not.mp length, echo⟩]
        exact ⟨rfl, Option.some_ne_none _⟩
    | _ => simp [code] at refused

theorem parseTlvs_fine (list before : List Tlv) (tail : List UInt8)
    (fine : ∀ t ∈ list, t.Fine nonce) :
    parseTlvs ackTlv (tlvBytes list ++ tail) (ackState sid tok nonce before) =
      parseTlvs ackTlv tail (ackState sid tok nonce (before ++ list)) := by
  induction list generalizing before with
  | nil => rw [tlvBytes_nil, List.nil_append, List.append_nil]
  | cons t list ih =>
    have first : ackTlv t.typ t.val.bytes (ackState sid tok nonce before) = _ :=
      ackTlv_fine (fine t List.mem_cons_self) before
    rw [tlvBytes_cons, List.append_assoc, parseTlvs_bytes, first, if_pos rfl,
      ih _ fun t member => fine t (List.mem_cons_of_mem _ member), List.append_assoc]
    rfl

theorem parseTlvs_refused (list before : List Tlv) (tail : List UInt8)
    (refused : ¬ ∀ t ∈ list, t.Fine nonce) :
    (parseTlvs ackTlv (tlvBytes list ++ tail) (ackState sid tok nonce before)).1.err ≠ none := by
  induction list generalizing before with
  | nil => exact absurd (fun t member => nomatch member) refused
  | cons t list ih =>
    rw [tlvBytes_cons, List.append_assoc, parseTlvs_bytes]
    by_cases first : t.Fine nonce
    · have rest : ¬ ∀ t ∈ list, t.Fine nonce := fun fine =>
        refused (List.forall_mem_cons.mpr ⟨first, fine⟩)
      rw [ackTlv_fine first, if_pos rfl]
      exact ih _ rest
    · obtain ⟨stop, err⟩ := ackTlv_refused first (ackState sid tok nonce before) rfl
      rw [stop, if_neg Bool.false_ne_true]
      exact err

end

def ackVerdict (walk : AckCtx × Bool) : Except AckError AuthResult :=
  if !walk.2 then .error .malformedTlvs
  else if walk.1.got &&& 0x0F ≠ 0x0F then .error .missingTlvs
  else
    match walk.1.err with
    | some err => .error err
    | none => .ok walk.1.r

theorem parseAck_header {crypto : Crypto} {buf : List UInt8} (nonce : UInt32)
    (header : AckHeader crypto buf) :
    parseAck crypto buf nonce =
      ackVerdict (parseTlvs ackTlv (buf.drop iwanCtrlLen)
        (ackState (hdrSid buf) (hdrTok buf) nonce [])) := by
  have ack : FrameType.ptOpenAck.code ≠ FrameType.ptOpenReject.code := by decide
  unfold parseAck
  rw [if_neg (Nat.not_lt.mpr header.long), header.type, if_neg ack, if_neg (not_not_intro rfl),
    if_neg (Nat.not_lt.mpr header.short), header.signed, Bool.not_true, if_neg Bool.false_ne_true,
    if_neg header.token]
  rfl

theorem parseAck_header_of_ok {crypto : Crypto} {buf : List UInt8} {nonce : UInt32}
    {r : AuthResult} (given : parseAck crypto buf nonce = .ok r) : AckHeader crypto buf := by
  unfold parseAck at given
  by_cases long : buf.length < iwanCtrlLen
  · rw [if_pos long] at given
    cases given
  rw [if_neg long] at given
  by_cases reject : hdrTyp buf = FrameType.ptOpenReject.code
  · rw [if_pos reject] at given
    split at given <;> cases given
  rw [if_neg reject] at given
  by_cases type : hdrTyp buf = FrameType.ptOpenAck.code
  · rw [if_neg (not_not_intro type)] at given
    by_cases short : iwanCtrlLen + 31 < buf.length
    · rw [if_pos short] at given
      cases given
    rw [if_neg short] at given
    cases signed : verifySig crypto buf with
    | false =>
      rw [signed] at given
      cases given
    | true =>
      rw [signed, Bool.not_true, if_neg Bool.false_ne_true] at given
      by_cases token : hdrTok buf = 0
      · rw [if_pos token] at given
        cases given
      · exact ⟨type, Nat.not_lt.mp long, Nat.not_lt.mp short, signed, token⟩
  · rw [if_pos type] at given
    cases given

theorem ackVerdict_ok {walk : AckCtx × Bool} {r : AuthResult} (given : ackVerdict walk = .ok r) :
    walk.2 = true ∧ walk.1.got &&& 0x0F = 0x0F ∧ walk.1.err = none ∧ r = walk.1.r := by
  unfold ackVerdict at given
  cases formed : walk.2 with
  | false =>
    rw [formed] at given
    cases given
  | true =>
    rw [formed, Bool.not_true, if_neg Bool.false_ne_true] at given
    by_cases full : walk.1.got &&& 0x0F = 0x0F
    · rw [if_neg (not_not_intro full)] at given
      cases err : walk.1.err with
      | some err' =>
        rw [err] at given
        cases given
      | none =>
        rw [err] at given
        exact ⟨rfl, full, rfl, (Except.ok.inj given).symm⟩
    · rw [if_pos full] at given
      cases given

/-- An acknowledgement is accepted when it is one; of each TLV type the last one counts. -/
theorem parseAck_iff (crypto : Crypto) (buf : List UInt8) (nonce : UInt32) :
    (∀ r, parseAck crypto buf nonce = .ok r ↔
        ∃ list, AckAccepts crypto buf nonce list ∧
          r = ackFields (hdrSid buf) (hdrTok buf) list) ∧
      ∀ list : List Tlv,
        parseTlvs (fun typ val seen => (seen ++ [(typ, val)], true)) (tlvBytes list) [] =
          (list.map fun t => (t.typ, t.val.bytes), true) := by
  refine ⟨fun r => ⟨fun given => ?_, ?_⟩, fun list => parseTlvs_tlvBytes list []⟩
  · have header := parseAck_header_of_ok given
    obtain ⟨list, tail, split, broken⟩ := tlvs_split (buf.drop iwanCtrlLen)
    rw [parseAck_header nonce header, split] at given
    obtain ⟨formed, full, clean, fields⟩ := ackVerdict_ok given
    have fine : ∀ t ∈ list, t.Fine nonce := by
      by_contra refused
      exact parseTlvs_refused list [] tail refused clean
    rw [parseTlvs_fine list [] tail fine, parseTlvs_broken ackTlv broken] at formed full fields
    obtain rfl := List.isEmpty_iff.mp formed
    rw [List.append_nil] at split
    exact ⟨list, ⟨header, split, (ackGot_full list).mp full, fine⟩, fields⟩
  · rintro ⟨list, accepts, rfl⟩
    have full := (ackGot_full list).mpr accepts.mandatory
    rw [parseAck_header nonce accepts.header, accepts.tlvs, ← List.append_nil (tlvBytes list),
      parseTlvs_fine _ _ _ accepts.fine, parseTlvs_nil, List.nil_append]
    exact if_neg (not_not_intro full)

end Iwan
