import Iwan.Server.Pool

/- Both halves of the handshake, and the keys of the two ends. -/
namespace Iwan

open BigEndian

section

variable (a : OpenCtx)

@[simp] theorem openTlv_mtu (mtu : UInt16) :
    openTlv TlvType.tMtu.code (bytes16 mtu) a = ({ a with mtu }, true) := by
  have read : be16 (byteAt (bytes16 mtu) 0) (byteAt (bytes16 mtu) 1) = mtu := be16_bytes16 mtu
  simp only [openTlv, TlvType.ofCode_code, bytes16_length, le_refl, ↓reduceIte, read]

@[simp] theorem openTlv_encrypt (enc : UInt8) :
    openTlv TlvType.tEncrypt.code [enc] a = ({ a with enc := if enc ≠ 0 then 1 else 0 }, true) := by
  simp only [openTlv, TlvType.ofCode_code, List.length_singleton, le_refl, ↓reduceIte, byteAt_zero]
  rfl

@[simp] theorem openTlv_authVerify (nonce : UInt32) :
    openTlv TlvType.tAuthVerify.code (bytes32 nonce) a =
      ({ a with nonce, haveAv := true }, true) := by
  have read : be32 (byteAt (bytes32 nonce) 0) (byteAt (bytes32 nonce) 1)
      (byteAt (bytes32 nonce) 2) (byteAt (bytes32 nonce) 3) = nonce := be32_bytes32 nonce
  simp only [openTlv, TlvType.ofCode_code, bytes32_length, ↓reduceIte, read]

@[simp] theorem openTlv_password (ct : Vector UInt8 16) :
    openTlv TlvType.tPassword.code ct.toList a = ({ a with ct }, true) := by
  have read : (Vector.ofFn fun i : Fin 16 => byteAt ct.toList i) = ct := by
    apply Vector.ext
    intro i _
    simp [byteAt]
  simp only [openTlv, TlvType.ofCode_code, Vector.length_toList, le_refl, ↓reduceIte, read]

@[simp] theorem openTlv_username (u : ServerUser) :
    openTlv TlvType.tUsername.code u.name a = ({ a with user := u.name }, true) := by
  have fits := u.nameFits
  have kept : cString (u.name.take serverUserMax) = u.name := by
    rw [List.take_of_length_le fits]
    exact cString_of_text u.nameText
  simp only [openTlv, TlvType.ofCode_code, kept, Nat.not_lt.mpr fits, decide_false, Bool.or_false]
  split
  · rfl
  · rename_i empty
    rw [List.eq_nil_of_length_eq_zero (Nat.eq_zero_of_not_pos empty)]

end

def openFields (u : ServerUser) (ct : Vector UInt8 16) (mtu : UInt16) (enc : UInt8)
    (nonce : UInt32) : OpenCtx :=
  ⟨u.name, ct, mtu, if enc ≠ 0 then 1 else 0, nonce, true, false⟩

variable (crypto : Crypto)

theorem drop_ctrlHdr (typ : FrameType) (enc : UInt8) (sid : UInt16)
    (tok : UInt32) (rest : List UInt8) :
    (ctrlHdr crypto typ enc sid tok ++ rest).drop iwanCtrlLen = rest :=
  List.drop_left' (ctrlHdr_length crypto typ enc sid tok)

theorem ctrlHdr_long (typ : FrameType) (enc : UInt8) (sid : UInt16)
    (tok : UInt32) (rest : List UInt8) :
    ¬ (ctrlHdr crypto typ enc sid tok ++ rest).length < iwanCtrlLen := by
  simp only [List.length_append, ctrlHdr_length, iwanCtrlLen, iwanHdrLen, iwanSigLen]
  omega

theorem openRead_buildOpen (u : ServerUser) (ct : Vector UInt8 16)
    (mtu : UInt16) (enc : UInt8) (nonce : UInt32) :
    ∃ raw, buildOpen crypto u.name ct mtu enc nonce = some raw ∧
      openRead crypto raw = .ok (openFields u ct mtu enc nonce) := by
  have fits : u.name.length ≤ iwanTlvVlenMax := u.nameFits.trans (by decide)
  refine ⟨ctrlHdr crypto .ptOpen enc 0 0 ++ openTlvs ⟨u.name, fits⟩ ct mtu enc nonce, ?_, ?_⟩
  · rw [buildOpen, dif_pos fits]
  · have walk : parseTlvs openTlv (openTlvs ⟨u.name, fits⟩ ct mtu enc nonce) OpenCtx.start =
        (openFields u ct mtu enc nonce, true) := by
      rw [openTlvs, ← List.append_nil (tlvPut .tAuthVerify _)]
      simp only [parseTlvs_tlvPut, openTlv_mtu, openTlv_username, openTlv_password,
        openTlv_encrypt, openTlv_authVerify, ↓reduceIte, parseTlvs_nil]
      rfl
    simp only [openRead, ctrlHdr_long, verifySig_ctrlHdr, decide_false, Bool.not_true,
      Bool.or_self, Bool.false_eq_true, ↓reduceIte, drop_ctrlHdr, walk, openFields]

section

variable (c : AckCtx)

@[simp] theorem clampMtu_clampMtu (mtu : UInt16) : clampMtu (clampMtu mtu) = clampMtu mtu := by
  unfold clampMtu
  split_ifs <;> first | rfl | contradiction

theorem clampMtu_toNat (mtu : UInt16) : (clampMtu mtu).toNat = max 576 (min 1500 mtu.toNat) := by
  unfold clampMtu iwanMtuMin iwanMtuMax
  split_ifs with low high
  · have := UInt16.lt_iff_toNat_lt.mp low
    simp only [UInt16.reduceToNat] at this ⊢
    omega
  · have := UInt16.lt_iff_toNat_lt.mp high
    simp only [UInt16.reduceToNat] at this ⊢
    omega
  · have := UInt16.le_iff_toNat_le.mp (UInt16.not_lt.mp low)
    have := UInt16.le_iff_toNat_le.mp (UInt16.not_lt.mp high)
    simp only [UInt16.reduceToNat] at *
    omega

@[simp] theorem ackTlv_mtu (mtu : UInt16) :
    ackTlv TlvType.tMtu.code (bytes16 mtu) c =
      ({ c with r := { c.r with mtu := clampMtu mtu }, got := c.got ||| 8 }, true) := by
  have read : be16 (byteAt (bytes16 mtu) 0) (byteAt (bytes16 mtu) 1) = mtu := be16_bytes16 mtu
  simp only [ackTlv, TlvType.ofCode_code, bytes16_length, lt_irrefl, ↓reduceIte, read, clampMtu]

@[simp] theorem ackTlv_ip (ip : Ip4) :
    ackTlv TlvType.tIp.code ip.bytes c =
      ({ c with r := { c.r with tun := ipToString ip }, got := c.got ||| 1 }, true) := rfl

@[simp] theorem ackTlv_gateway (ip : Ip4) :
    ackTlv TlvType.tGateway.code ip.bytes c =
      ({ c with r := { c.r with gw := ipToString ip }, got := c.got ||| 2 }, true) := rfl

@[simp] theorem ackTlv_dns (ip : Ip4) :
    ackTlv TlvType.tDns.code ip.bytes c =
      ({ c with r := { c.r with dns := ipToString ip }, got := c.got ||| 4 }, true) := rfl

@[simp] theorem ackTlv_encrypt (enc : UInt8) :
    ackTlv TlvType.tEncrypt.code [enc] c =
      ({ c with r := { c.r with enc := if enc ≠ 0 then 1 else 0 } }, true) := rfl

@[simp] theorem ackTlv_authVerify (nonce : UInt32) (expected : c.expect = nonce) :
    ackTlv TlvType.tAuthVerify.code (bytes32 nonce) c = (c, true) := by
  have read : be32 (byteAt (bytes32 nonce) 0) (byteAt (bytes32 nonce) 1)
      (byteAt (bytes32 nonce) 2) (byteAt (bytes32 nonce) 3) = nonce := be32_bytes32 nonce
  simp only [ackTlv, TlvType.ofCode_code, bytes32_length, ne_eq, not_true_eq_false, ↓reduceIte,
    read, expected]

end

theorem parseAck_openAck (ctx : ServerCtx) (a : OpenCtx) (sid : UInt16)
    (tok ipu : UInt32) (nonzero : tok ≠ 0) :
    parseAck crypto (openAck crypto ctx a sid tok ipu) a.nonce =
      .ok ⟨sid, tok, ipToString (u32Ip4 ipu), ipToString ctx.serverIp, ipToString ctx.dns,
        clampMtu a.mtu, if a.enc ≠ 0 then 1 else 0⟩ := by
  have width : ¬ iwanCtrlLen + 31 < (openAck crypto ctx a sid tok ipu).length := by
    simp only [openAck, ackTlvs, List.length_append, ctrlHdr_length, tlvPut_length, bytes16_length,
      bytes32_length, Ip4.bytes, List.length_cons, List.length_nil, iwanCtrlLen, iwanHdrLen,
      iwanSigLen]
    omega
  have typ : hdrTyp (openAck crypto ctx a sid tok ipu) = FrameType.ptOpenAck.code := rfl
  have header : hdrSid (openAck crypto ctx a sid tok ipu) = sid ∧
      hdrTok (openAck crypto ctx a sid tok ipu) = tok := by
    rw [openAck, ctrlHdr, List.append_assoc]
    exact ⟨hdrSid_pktHdr _ _ _ _ _, hdrTok_pktHdr _ _ _ _ _⟩
  have walk : parseTlvs ackTlv (ackTlvs ctx a ipu)
      ⟨⟨sid, tok, [], [], [], iwanDefaultMtu, 1⟩, a.nonce, none, 0⟩ =
      (⟨⟨sid, tok, ipToString (u32Ip4 ipu), ipToString ctx.serverIp, ipToString ctx.dns,
        clampMtu a.mtu, if a.enc ≠ 0 then 1 else 0⟩, a.nonce, none, 0x0F⟩, true) := by
    rw [ackTlvs, ← List.append_nil (tlvPut .tAuthVerify _)]
    simp only [parseTlvs_tlvPut, ackTlv_mtu, ackTlv_ip, ackTlv_gateway, ackTlv_dns,
      ackTlv_encrypt, ackTlv_authVerify, clampMtu_clampMtu, ↓reduceIte, parseTlvs_nil]
    rfl
  have accepted : ¬ (0x0F : UInt8) &&& 0x0F ≠ 0x0F := by decide
  have other : FrameType.ptOpenAck.code ≠ FrameType.ptOpenReject.code := by decide
  rw [parseAck, typ, header.1, header.2]
  rw [openAck] at width
  simp only [width, openAck, ctrlHdr_long, verifySig_ctrlHdr, drop_ctrlHdr, ↓reduceIte, other,
    ne_eq, not_true_eq_false, Bool.not_true, Bool.false_eq_true, nonzero, walk, accepted]

def Session.announced (s : Session) (ctx : ServerCtx) (mtu : UInt16) : AuthResult :=
  ⟨s.sid, s.token, ipToString s.ip, ipToString ctx.serverIp, ipToString ctx.dns, mtu, s.enc⟩

theorem parseAck_granted (crypto : Crypto) (ctx : ServerCtx) (peer : SockaddrIn) (clock : Clock)
    (draws : Draws) (u owner : ServerUser) (ct : Vector UInt8 16) (mtu : UInt16) (enc : UInt8)
    (nonce : UInt32) (sid : UInt16) (ipu : UInt32) :
    let a := openFields u ct mtu enc nonce
    parseAck crypto (openAck crypto ctx a sid (mintToken draws) ipu) nonce =
      .ok ((grantedSession crypto peer clock draws a owner sid ipu).announced ctx
        (clampMtu mtu)) := by
  intro a
  have flag : (if a.enc ≠ 0 then (1 : UInt8) else 0) = a.enc := by
    change (if (if enc ≠ 0 then (1 : UInt8) else 0) ≠ 0 then (1 : UInt8) else 0) =
      if enc ≠ 0 then 1 else 0
    split <;> rfl
  have read := parseAck_openAck crypto ctx a sid (mintToken draws) ipu (mintToken_ne_zero draws)
  rw [flag] at read
  exact read

def OpenRefused (ctx : ServerCtx) (peer : SockaddrIn) (out : ServerCtx × List Effect) : Prop :=
  out.1 = ctx ∧
    ∃ reject, out.2 = [.udpSend peer reject] ∧ hdrTyp reject = FrameType.ptOpenReject.code

/-- A session is installed in the slot, and the client accepts the acknowledgement of it. -/
structure OpenAcked (crypto : Crypto) (ctx : ServerCtx) (user : List UInt8) (mtu : UInt16)
    (nonce : UInt32) (peer : SockaddrIn) (out : ServerCtx × List Effect) (slot : Slot)
    (ack : List UInt8) : Prop where
  sent : out.2 = [.install slot, .udpSend peer ack] ∨
    out.2 = [.wipe slot, .install slot, .udpSend peer ack]
  live : (out.1.sess slot).valid = true
  user : (out.1.sess slot).user = user
  peer : (out.1.sess slot).peer = peer
  accepted : ∃ mtu', mtu'.toNat = max iwanMtuMin.toNat (min iwanMtuMax.toNat mtu.toNat) ∧
    parseAck crypto ack nonce = .ok ((out.1.sess slot).announced ctx mtu')

/-- In every reachable state a client's OPEN is refused without a change, or answered with an
acknowledgement of the session just installed, which the client accepts. -/
theorem handleOpen_buildOpen (crypto : Crypto) (machine : Machine) (users : List ServerUser)
    (w : World) (boot : Booted w.ctx) (events : List Event) (u : ServerUser) (mtu : UInt16)
    (enc : UInt8) (nonce : UInt32) (peer : SockaddrIn) (clock : Clock) (draws : Draws) :
    let ctx := (serverRun crypto machine users w events).ctx
    ∃ ct raw, getCt crypto u.name u.pass [] = some ct ∧
      buildOpen crypto u.name ct mtu enc nonce = some raw ∧
      let out := handleOpen crypto users ctx raw peer clock draws
      (OpenRefused ctx peer out ∨
        ∃ slot ack, OpenAcked crypto ctx u.name mtu nonce peer out slot ack) := by
  intro ctx
  obtain ⟨raw, built, read⟩ :=
    openRead_buildOpen crypto u (encryptPassword crypto u.pass u.name) mtu enc nonce
  refine ⟨encryptPassword crypto u.pass u.name, raw, rfl, built, ?_⟩
  have step : OpenStep crypto users ctx raw peer clock draws _ _ :=
    handleOpen_step (serverRun_tableInv w events boot.tableInv)
  intro out
  change OpenStep crypto users ctx raw peer clock draws out.1 out.2 at step
  obtain ⟨ctx', fx⟩ := out
  dsimp only at step
  cases step with
  | silent unread => cases unread.symm.trans read
  | refused reason => exact .inl ⟨rfl, _, rfl, rfl⟩
  | fresh a owner slot ipu granted free newUser narrow probed =>
    obtain rfl := Except.ok.inj (granted.read.symm.trans read)
    refine .inr ⟨slot, _, .inl rfl, ?_, ?_, ?_, clampMtu mtu, clampMtu_toNat mtu, ?_⟩ <;>
      rw [install_self]
    · rfl
    · rfl
    · rfl
    · exact parseAck_granted crypto ctx peer clock draws u owner _ mtu enc nonce ipu.toUInt16 ipu
  | reopened a owner slot granted live sameUser near =>
    obtain rfl := Except.ok.inj (granted.read.symm.trans read)
    refine .inr ⟨slot, _, .inr rfl, ?_, ?_, ?_, clampMtu mtu, clampMtu_toNat mtu, ?_⟩ <;>
      rw [install_self]
    · rfl
    · rfl
    · rfl
    · exact parseAck_granted crypto ctx peer clock draws u owner _ mtu enc nonce _ _

theorem handleOpen_buildOpen_again :
    let u := sampleUser 0x61 0x70 (by decide) (by decide)
    let ctx := (serverRun sampleCrypto sampleMachine sampleUsers
      (sampleWorld 0x0A000002 0x0A0000FE 0x0A000002) sampleOpens).ctx
    ∃ ct raw, getCt sampleCrypto u.name u.pass [] = some ct ∧
      buildOpen sampleCrypto u.name ct 9000 1 7 = some raw ∧
      let out := handleOpen sampleCrypto sampleUsers ctx raw ⟨0x01010101, 4001⟩ (Clock.at 6000)
        ⟨[0], 0x05060708, by decide⟩
      (OpenRefused ctx ⟨0x01010101, 4001⟩ out ∨
        ∃ slot ack, OpenAcked sampleCrypto ctx u.name 9000 7 ⟨0x01010101, 4001⟩ out slot ack) :=
  handleOpen_buildOpen sampleCrypto sampleMachine sampleUsers _ (sampleWorld_booted _ _ _)
    sampleOpens (sampleUser 0x61 0x70 (by decide) (by decide)) 9000 1 7 ⟨0x01010101, 4001⟩
    (Clock.at 6000) ⟨[0], 0x05060708, by decide⟩

/-- A refused OPEN changes nothing, a granted one no session of another user. -/
structure OpenContained (ctx : ServerCtx) (out : ServerCtx × List Effect) : Prop where
  refused : (∀ slot, .install slot ∉ out.2) → out.1 = ctx
  others : ∀ slot, .install slot ∈ out.2 → ∀ j, (ctx.sess j).valid = true →
    (ctx.sess j).user ≠ (out.1.sess slot).user →
    out.1.sess j = ctx.sess j ∧ out.1.sidMap (ctx.sess j).sid = ctx.sidMap (ctx.sess j).sid

theorem install_contained (ctx : ServerCtx) (slot : Slot) (s : Session) (j : Slot)
    (other : j ≠ slot) (apart : (ctx.sess j).sid ≠ s.sid) :
    (ctx.install slot s).sess j = ctx.sess j ∧
      (ctx.install slot s).sidMap (ctx.sess j).sid = ctx.sidMap (ctx.sess j).sid := by
  refine ⟨install_other ctx slot s j other, ?_⟩
  simp only [ServerCtx.install, Function.update_of_ne apart]

theorem OpenStep.contained {crypto : Crypto} {users : List ServerUser} {ctx ctx' : ServerCtx}
    {raw : List UInt8} {peer : SockaddrIn} {clock : Clock} {draws : Draws} {fx : List Effect}
    (inv : TableInv ctx) (step : OpenStep crypto users ctx raw peer clock draws ctx' fx) :
    OpenContained ctx (ctx', fx) := by
  cases step with
  | silent unread => exact ⟨fun _ => rfl, fun slot installs => absurd installs List.not_mem_nil⟩
  | refused reason =>
    refine ⟨fun _ => rfl, fun slot installs => ?_⟩
    cases List.mem_singleton.mp installs
  | fresh a u slot ipu granted free newUser narrow probed =>
    refine ⟨fun none => absurd List.mem_cons_self (none slot), ?_⟩
    intro slot' installs j live _
    have other : j ≠ slot := fun here => by
      rw [here, free] at live
      cases live
    have unused := openProbe_free ctx _ _ ipu probed
    exact install_contained { ctx with nextIp := _ } slot _ j other
      ((findSession_none_iff inv _).mp unused j live)
  | reopened a u slot granted live sameUser near =>
    refine ⟨fun none => absurd (List.mem_cons_of_mem _ List.mem_cons_self) (none slot), ?_⟩
    intro slot' installs j live' foreign
    simp only [List.mem_cons, reduceCtorEq, Effect.install.injEq, List.not_mem_nil, or_false,
      false_or] at installs
    subst slot'
    rw [install_self] at foreign
    have other : j ≠ slot := by
      rintro rfl
      exact foreign sameUser
    exact install_contained ctx slot _ j other
      fun same => other (inv.sid_inj j slot live' live same)

/-- A refused OPEN changes nothing, and an accepted one no other user's session. -/
theorem handleOpen_contained (crypto : Crypto) (machine : Machine) (users : List ServerUser)
    (w : World) (boot : Booted w.ctx) (events : List Event) (raw : List UInt8)
    (peer : SockaddrIn) (clock : Clock) (draws : Draws) :
    let ctx := (serverRun crypto machine users w events).ctx
    OpenContained ctx (handleOpen crypto users ctx raw peer clock draws) := by
  intro ctx
  have inv : TableInv ctx := serverRun_tableInv w events boot.tableInv
  have step : OpenStep crypto users ctx raw peer clock draws _ _ := handleOpen_step inv
  exact step.contained inv

theorem handleOpen_contained_again :
    let ctx := (serverRun sampleCrypto sampleMachine sampleUsers
      (sampleWorld 0x0A000002 0x0A0000FE 0x0A000002) sampleOpens).ctx
    OpenContained ctx (handleOpen sampleCrypto sampleUsers ctx
      (sampleOpen (sampleUser 0x62 0x71 (by decide) (by decide)) 1) ⟨0x02020202, 4001⟩
      (Clock.at 6000) ⟨[0], 0x05060708, by decide⟩) :=
  handleOpen_contained sampleCrypto sampleMachine sampleUsers _ (sampleWorld_booted _ _ _)
    sampleOpens _ _ _ _

theorem handleOpen_installs (users : List ServerUser) (ctx : ServerCtx)
    (raw : List UInt8) (peer : SockaddrIn) (clock : Clock) (draws : Draws) (slot : Slot)
    (installs : .install slot ∈ (handleOpen crypto users ctx raw peer clock draws).2) :
    ∃ a u sid ipu, OpenGranted crypto users raw a u ∧
      (handleOpen crypto users ctx raw peer clock draws).1.sess slot =
        grantedSession crypto peer clock draws a u sid ipu := by
  have noReject : ∀ reason, Effect.install slot ∉ [openReject crypto peer reason] :=
    fun reason member => by cases List.mem_singleton.mp member
  unfold handleOpen at installs ⊢
  cases read : openRead crypto raw with
  | error reason =>
    rw [read] at installs
    cases reason with
    | none => cases installs
    | some reason => exact absurd installs (noReject reason)
  | ok a =>
    simp only [read] at installs ⊢
    cases auth : openAuth crypto users a with
    | none =>
      rw [auth] at installs
      exact absurd installs (noReject _)
    | some pass =>
      obtain ⟨u, listed, block, rfl⟩ := openAuth_some a pass auth
      simp only [auth] at installs ⊢
      cases chosen : openSlot ctx a.user with
      | none =>
        rw [chosen] at installs
        exact absurd installs (noReject _)
      | some i =>
        simp only [chosen] at installs ⊢
        split at installs
        · exact absurd installs (noReject _)
        · rename_i allowed
          rw [if_neg allowed]
          rcases address : openAddress ctx i with ⟨ctx', _ | ⟨ipu, sid⟩⟩
          · rw [address] at installs
            exact absurd installs (noReject _)
          · rw [address] at installs
            simp only [wipeWhere_effects, List.mem_append, List.mem_map, reduceCtorEq,
              and_false, exists_false, List.mem_cons, List.not_mem_nil, or_false, false_or,
              Effect.install.injEq] at installs
            subst slot
            exact ⟨a, u, sid, ipu, ⟨read, listed, block⟩, install_self _ _ _⟩

theorem passwordBlock_inj (p q : List UInt8) (text : 0 ∉ p) (text' : 0 ∉ q)
    (same : passwordBlock p = passwordBlock q) : p.take 16 = q.take 16 := by
  have bytes : ∀ i < 16, p.getD i 0 = q.getD i 0 := by
    intro i inside
    have entry := congrArg (fun block : Vector UInt8 16 => block[i]) same
    simpa only [passwordBlock, Vector.getElem_ofFn] using entry
  -- without NUL, a zero in the block marks the end of the password
  have present : ∀ r : List UInt8, 0 ∉ r → ∀ i,
      r[i]? = if r.getD i 0 = 0 then none else some (r.getD i 0) := by
    intro r free i
    rw [List.getD_eq_getElem?_getD]
    cases entry : r[i]? with
    | none => rfl
    | some byte =>
      have nonzero : byte ≠ 0 := fun zero => free (zero ▸ List.mem_of_getElem? entry)
      simp only [Option.getD_some, nonzero, ↓reduceIte]
  apply List.ext_getElem?
  intro i
  by_cases inside : i < 16
  · rw [List.getElem?_take_of_lt inside, List.getElem?_take_of_lt inside, present p text,
      present q text', bytes i inside]
  · rw [List.getElem?_eq_none (by rw [List.length_take]; omega),
      List.getElem?_eq_none (by rw [List.length_take]; omega)]

/-- When an OPEN with the block of `pass` is accepted, the passwords agree on 16 bytes. -/
theorem handleOpen_key_agreement (crypto : Crypto)
    (permutation : ∀ key, Function.Injective (crypto.aes128Ecb key)) (users : List ServerUser)
    (u : ServerUser) (pass : List UInt8) (text : 0 ∉ pass)
    (listed : users.find? (fun v => v.name == u.name) = some u)
    (noCollision : xorKeyOf (crypto.md5 (u.name ++ pass)) =
      xorKeyOf (crypto.md5 (u.name ++ u.pass)) → u.name ++ pass = u.name ++ u.pass)
    (ctx : ServerCtx) (raw : List UInt8) (peer : SockaddrIn) (clock : Clock) (draws : Draws)
    (a : OpenCtx) (read : openRead crypto raw = .ok a) (user : a.user = u.name)
    (block : a.ct = encryptPassword crypto pass u.name) (slot : Slot)
    (accepted : .install slot ∈ (handleOpen crypto users ctx raw peer clock draws).2) :
    let key := xorKeyOf (sessionKey crypto u.name pass)
    let s := (handleOpen crypto users ctx raw peer clock draws).1.sess slot
    pass.take 16 = u.pass.take 16 ∧
      (key = s.xorKey ↔ pass.drop 16 = u.pass.drop 16) ∧
      (pass.drop 16 = u.pass.drop 16 → ∀ client server data,
        xorCrypt server (xorCrypt client data key.toList) s.xorKey.toList = data) := by
  intro key s
  obtain ⟨b, v, sid, ipu, granted, filled⟩ :=
    handleOpen_installs crypto users ctx raw peer clock draws slot accepted
  obtain rfl := Except.ok.inj (granted.read.symm.trans read)
  have same : u = v := by
    have found := granted.listed
    rw [user] at found
    exact Option.some.inj (listed.symm.trans found)
  subst v
  have stored : s.xorKey = xorKeyOf (sessionKey crypto u.name u.pass) := by
    rw [← user]
    exact congrArg Session.xorKey filled
  have front : pass.take 16 = u.pass.take 16 := by
    have blocks := block.symm.trans granted.block
    rw [user] at blocks
    exact passwordBlock_inj pass u.pass text u.passText (permutation _ blocks)
  have whole : pass.drop 16 = u.pass.drop 16 → pass = u.pass := by
    intro back
    rw [← List.take_append_drop 16 pass, front, back, List.take_append_drop]
  have keys : pass.drop 16 = u.pass.drop 16 → key = s.xorKey := by
    intro back
    rw [stored, ← whole back]
  refine ⟨front, ⟨fun agree => ?_, keys⟩, fun back client server data => ?_⟩
  · rw [List.append_cancel_left (noCollision (agree.trans stored))]
  · rw [keys back, xorCrypt_xorCrypt]

def longPass (last : UInt8) : List UInt8 := ascii "0123456789abcdef" ++ [last]

def longCrypto : Crypto where
  md5 bytes :=
    if bytes = 0x61 :: longPass 0x58 then
      #v[0x7D, 0x4B, 0x9A, 0xF9, 0x0E, 0x3E, 0x12, 0x2D, 0xD0, 0xB9, 0xD3, 0x41, 0x3F, 0x6E, 0xBD,
        0x60]
    else if bytes = 0x61 :: longPass 0x59 then
      #v[0x14, 0x98, 0x65, 0x65, 0xDD, 0x4E, 0x1A, 0xDE, 0xC6, 0xE5, 0x5C, 0x7D, 0xF1, 0xE3, 0xCC,
        0xA4]
    else sampleCrypto.md5 bytes
  aes128Ecb _ block :=
    Equiv.swap (passwordBlock (longPass 0x58))
      #v[0xDE, 0x7C, 0x49, 0x91, 0x7C, 0x2C, 0x15, 0x36, 0xD2, 0x2F, 0x9D, 0x6D, 0x48, 0xF1, 0x0B,
        0xB3] block

theorem longCrypto_permutation (key : Vector UInt8 16) :
    Function.Injective (longCrypto.aes128Ecb key) :=
  Equiv.injective _

def longUser : ServerUser :=
  ⟨[0x61], longPass 0x58, by decide, by decide, by decide, by decide⟩

def longOpen (last : UInt8) : List UInt8 :=
  (buildOpen longCrypto [0x61] (encryptPassword longCrypto (longPass last) [0x61]) 1400 1 7).getD []

def longDraws : Draws := ⟨[], 0x01020304, sampleTok_ne⟩

def longOpened (last : UInt8) : ServerCtx × List Effect :=
  handleOpen longCrypto [longUser] (sampleCtx 0x0A000002 0x0A0000FE 0x0A000002)
    (longOpen last) ⟨0x01010101, 4000⟩ (Clock.at 5000) longDraws

/-- The client that uses Y is let in under a key it does not have. -/
theorem longPassword_key_mismatch :
    (∀ key, Function.Injective (longCrypto.aes128Ecb key)) ∧ 0 ∉ longPass 0x59 ∧
      (openRead longCrypto (longOpen 0x59)).toOption.map OpenCtx.ct =
        some (encryptPassword longCrypto (longPass 0x59) longUser.name) ∧
      .install 0 ∈ (longOpened 0x59).2 ∧
      xorKeyOf (sessionKey longCrypto longUser.name (longPass 0x59)) ≠
        ((longOpened 0x59).1.sess 0).xorKey :=
  ⟨longCrypto_permutation, by decide, by decide +kernel, by decide +kernel, by decide +kernel⟩

theorem handleOpen_key_agreement_long :
    let key := xorKeyOf (sessionKey longCrypto longUser.name (longPass 0x58))
    let s := (longOpened 0x58).1.sess 0
    key = s.xorKey ∧ ∀ client server data,
      xorCrypt server (xorCrypt client data key.toList) s.xorKey.toList = data := by
  obtain ⟨_, keys, decrypts⟩ := handleOpen_key_agreement longCrypto longCrypto_permutation
    [longUser] longUser (longPass 0x58) (by decide) rfl (fun _ => rfl)
    (sampleCtx 0x0A000002 0x0A0000FE 0x0A000002) (longOpen 0x58) ⟨0x01010101, 4000⟩
    (Clock.at 5000) longDraws
    (openFields longUser (encryptPassword longCrypto (longPass 0x58) longUser.name) 1400 1 7)
    (by decide +kernel) rfl rfl 0 (by decide +kernel)
  rw [← longOpened] at keys decrypts
  exact ⟨keys.mpr rfl, decrypts rfl⟩

end Iwan
