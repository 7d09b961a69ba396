import Iwan.Lib.BigEndian
import Iwan.Wire.Cipher

/- Outer header, header signature and TLV list of the wire protocol (protocol.c). -/
namespace Iwan

open BigEndian

/-- The frame types on the wire. -/
inductive FrameType where
  | ptOpenReject
  | ptOpenAck
  | ptOpen
  | ptData
  | ptEchoReq
  | ptEchoRes
  | ptClose
  | ptDataEnc
  | ptPingReq
  | ptPingRsp
deriving DecidableEq, Repr

def FrameType.code : FrameType → UInt8
  | .ptOpenReject => 0x11
  | .ptOpenAck => 0x12
  | .ptOpen => 0x13
  | .ptData => 0x14
  | .ptEchoReq => 0x15
  | .ptEchoRes => 0x16
  | .ptClose => 0x17
  | .ptDataEnc => 0x18
  | .ptPingReq => 0x29
  | .ptPingRsp => 0x2A

def FrameType.all : List FrameType :=
  [.ptOpenReject, .ptOpenAck, .ptOpen, .ptData, .ptEchoReq, .ptEchoRes, .ptClose, .ptDataEnc,
    .ptPingReq, .ptPingRsp]

def FrameType.ofCode (code : UInt8) : Option FrameType :=
  FrameType.all.find? (fun typ => typ.code == code)

@[simp] theorem FrameType.ofCode_code (typ : FrameType) : FrameType.ofCode typ.code = some typ := by
  cases typ <;> rfl

theorem FrameType.ofCode_eq_some (code : UInt8) (typ : FrameType) :
    FrameType.ofCode code = some typ ↔ code = typ.code := by
  constructor
  · intro found
    have named := List.find?_some found
    exact (beq_iff_eq.mp named).symm
  · rintro rfl
    exact FrameType.ofCode_code typ

/-- The types of values. -/
inductive TlvType where
  | tUsername
  | tPassword
  | tMtu
  | tIp
  | tDns
  | tGateway
  | tEncrypt
  | tAuthVerify
  | tErrMsg
deriving DecidableEq, Repr

def TlvType.code : TlvType → UInt8
  | .tUsername => 0x01
  | .tPassword => 0x02
  | .tMtu => 0x03
  | .tIp => 0x04
  | .tDns => 0x05
  | .tGateway => 0x06
  | .tEncrypt => 0x08
  | .tAuthVerify => 0x0F
  | .tErrMsg => 0x10

def TlvType.all : List TlvType :=
  [.tUsername, .tPassword, .tMtu, .tIp, .tDns, .tGateway, .tEncrypt, .tAuthVerify, .tErrMsg]

def TlvType.ofCode (code : UInt8) : Option TlvType :=
  TlvType.all.find? (fun typ => typ.code == code)

@[simp] theorem TlvType.ofCode_code (typ : TlvType) : TlvType.ofCode typ.code = some typ := by
  cases typ <;> rfl

def iwanHdrLen : Nat := 8
def iwanSigLen : Nat := 16
def iwanCtrlLen : Nat := iwanHdrLen + iwanSigLen
def iwanPingSid : UInt16 := 0xFFFF
def iwanPingTok : UInt32 := 0xFFFFFFFF
def iwanMtuMin : UInt16 := 576
def iwanMtuMax : UInt16 := 1500
def iwanDefaultMtu : UInt16 := 1400
def iwanTlvVlenMax : Nat := 253

def pktHdr (typ : FrameType) (enc : UInt8) (sid : UInt16) (tok : UInt32) : List UInt8 :=
  [typ.code, enc] ++ bytes16 sid ++ bytes32 tok

def hdrTyp (raw : List UInt8) : UInt8 := byteAt raw 0
def hdrEnc (raw : List UInt8) : UInt8 := byteAt raw 1
def hdrSid (raw : List UInt8) : UInt16 := be16 (byteAt raw 2) (byteAt raw 3)
def hdrTok (raw : List UInt8) : UInt32 :=
  be32 (byteAt raw 4) (byteAt raw 5) (byteAt raw 6) (byteAt raw 7)

section

variable (typ : FrameType) (enc : UInt8) (sid : UInt16) (tok : UInt32) (rest : List UInt8)

@[simp] theorem pktHdr_length : (pktHdr typ enc sid tok).length = 8 := rfl

@[simp] theorem hdrTyp_pktHdr : hdrTyp (pktHdr typ enc sid tok ++ rest) = typ.code := rfl

@[simp] theorem hdrSid_pktHdr : hdrSid (pktHdr typ enc sid tok ++ rest) = sid :=
  be16_bytes16 sid

@[simp] theorem hdrTok_pktHdr : hdrTok (pktHdr typ enc sid tok ++ rest) = tok :=
  be32_bytes32 tok

@[simp] theorem drop_pktHdr : (pktHdr typ enc sid tok ++ rest).drop iwanHdrLen = rest := rfl

end

def pktSig (crypto : Crypto) (h8 : List UInt8) : Vector UInt8 16 := crypto.md5 (h8 ++ iwanMw)

def ctrlHdr (crypto : Crypto) (typ : FrameType) (enc : UInt8) (sid : UInt16) (tok : UInt32) :
    List UInt8 :=
  pktHdr typ enc sid tok ++ (pktSig crypto (pktHdr typ enc sid tok)).toList

def verifySig (crypto : Crypto) (buf : List UInt8) : Bool :=
  if buf.length < iwanCtrlLen then false
  else (pktSig crypto (buf.take iwanHdrLen)).toList == (buf.drop iwanHdrLen).take iwanSigLen

@[simp] theorem ctrlHdr_length (crypto : Crypto) (typ : FrameType) (enc : UInt8) (sid : UInt16)
    (tok : UInt32) : (ctrlHdr crypto typ enc sid tok).length = 24 := by
  simp only [ctrlHdr, List.length_append, pktHdr_length, Vector.length_toList]

theorem verifySig_ctrlHdr (crypto : Crypto) (typ : FrameType) (enc : UInt8) (sid : UInt16)
    (tok : UInt32) (rest : List UInt8) :
    verifySig crypto (ctrlHdr crypto typ enc sid tok ++ rest) = true := by
  have long : ¬ (ctrlHdr crypto typ enc sid tok ++ rest).length < iwanCtrlLen := by
    simp only [List.length_append, ctrlHdr_length, iwanCtrlLen, iwanHdrLen, iwanSigLen]
    omega
  have front : (ctrlHdr crypto typ enc sid tok ++ rest).take iwanHdrLen =
      pktHdr typ enc sid tok := by
    rw [ctrlHdr, List.append_assoc]
    exact List.take_left' (pktHdr_length typ enc sid tok)
  have back : ((ctrlHdr crypto typ enc sid tok ++ rest).drop iwanHdrLen).take iwanSigLen =
      (pktSig crypto (pktHdr typ enc sid tok)).toList := by
    rw [ctrlHdr, List.append_assoc, iwanHdrLen, List.drop_left' (pktHdr_length typ enc sid tok)]
    exact List.take_left' (Vector.length_toList)
  simp only [verifySig, long, ↓reduceIte, front, back, beq_self_eq_true]

/-- A value that a length byte can carry. -/
structure TlvValue where
  bytes : List UInt8
  short : bytes.length ≤ iwanTlvVlenMax

def tlvPut (typ : TlvType) (val : TlvValue) : List UInt8 :=
  typ.code :: UInt8.ofNat (val.bytes.length + 2) :: val.bytes

@[simp] theorem tlvPut_length (typ : TlvType) (val : TlvValue) :
    (tlvPut typ val).length = val.bytes.length + 2 := rfl

structure Tlv where
  typ : UInt8
  val : TlvValue

def Tlv.bytes (t : Tlv) : List UInt8 :=
  t.typ :: UInt8.ofNat (t.val.bytes.length + 2) :: t.val.bytes

theorem TlvValue.length_byte (val : TlvValue) :
    (UInt8.ofNat (val.bytes.length + 2)).toNat = val.bytes.length + 2 := by
  have short := val.short
  unfold iwanTlvVlenMax at short
  rw [UInt8.toNat_ofNat']
  exact Nat.mod_eq_of_lt (by omega)

section

variable {σ : Type} (cb : UInt8 → List UInt8 → σ → σ × Bool)

def parseTlvsLoop : Nat → List UInt8 → σ → σ × Bool
  | fuel + 1, t :: l :: rest, ud =>
    if l < 2 ∨ rest.length + 2 < l.toNat then (ud, false)
    else
      let value := rest.take (l.toNat - 2)
      let (ud', go) := cb t value ud
      -- A callback that stops the walk is no parse error.
      if go then parseTlvsLoop fuel (rest.drop (l.toNat - 2)) ud' else (ud', true)
  | _, rest, ud => (ud, rest.isEmpty)

def parseTlvs (data : List UInt8) (ud : σ) : σ × Bool := parseTlvsLoop cb data.length data ud

@[simp] theorem parseTlvs_nil (ud : σ) : parseTlvs cb [] ud = (ud, true) := rfl

theorem parseTlvsLoop_fuel (fuel : Nat) (data : List UInt8) (ud : σ)
    (enough : data.length ≤ fuel) : parseTlvsLoop cb fuel data ud = parseTlvs cb data ud := by
  have step : ∀ (bound fuel fuel' : Nat) (data : List UInt8) (ud : σ), data.length ≤ bound →
      data.length ≤ fuel → data.length ≤ fuel' →
      parseTlvsLoop cb fuel data ud = parseTlvsLoop cb fuel' data ud := by
    intro bound
    induction bound with
    | zero =>
      intro fuel fuel' data ud small _ _
      obtain rfl : data = [] := List.eq_nil_of_length_eq_zero (by omega)
      cases fuel <;> cases fuel' <;> rfl
    | succ bound ih =>
      intro fuel fuel' data ud small room room'
      match fuel, fuel', data with
      | fuel, fuel', [] => cases fuel <;> cases fuel' <;> rfl
      | fuel, fuel', [t] => cases fuel <;> cases fuel' <;> rfl
      | 0, _, _ :: _ :: _ => simp only [List.length_cons] at room; omega
      | _, 0, _ :: _ :: _ => simp only [List.length_cons] at room'; omega
      | fuel + 1, fuel' + 1, t :: l :: rest =>
        simp only [List.length_cons] at small room room'
        simp only [parseTlvsLoop]
        have shorter : (rest.drop (l.toNat - 2)).length ≤ rest.length := by
          rw [List.length_drop]
          omega
        rw [ih fuel fuel' (rest.drop (l.toNat - 2)) _ (by omega) (by omega) (by omega)]
  exact step data.length fuel data.length data ud (Nat.le_refl _) enough (Nat.le_refl _)

theorem parseTlvs_step {t : UInt8} {l : UInt8} {rest : List UInt8}
    (formed : ¬ (l < 2 ∨ rest.length + 2 < l.toNat)) (ud : σ) :
    parseTlvs cb (t :: l :: rest) ud =
      if (cb t (rest.take (l.toNat - 2)) ud).2 then
        parseTlvs cb (rest.drop (l.toNat - 2)) (cb t (rest.take (l.toNat - 2)) ud).1
      else ((cb t (rest.take (l.toNat - 2)) ud).1, true) := by
  have room : (rest.drop (l.toNat - 2)).length ≤ rest.length + 1 := by
    rw [List.length_drop]
    omega
  have unfolded : parseTlvs cb (t :: l :: rest) ud =
      parseTlvsLoop cb (rest.length + 1 + 1) (t :: l :: rest) ud := rfl
  rw [unfolded, parseTlvsLoop, if_neg formed]
  simp only [parseTlvsLoop_fuel cb _ _ _ room]

theorem parseTlvs_bytes (t : Tlv) (rest : List UInt8) (ud : σ) :
    parseTlvs cb (t.bytes ++ rest) ud =
      if (cb t.typ t.val.bytes ud).2 then parseTlvs cb rest (cb t.typ t.val.bytes ud).1
      else ((cb t.typ t.val.bytes ud).1, true) := by
  have width := t.val.length_byte
  have formed : ¬ (UInt8.ofNat (t.val.bytes.length + 2) < 2 ∨
      (t.val.bytes ++ rest).length + 2 < (UInt8.ofNat (t.val.bytes.length + 2)).toNat) := by
    rw [UInt8.lt_iff_toNat_lt, width, List.length_append]
    simp only [UInt8.reduceToNat]
    omega
  have step := parseTlvs_step cb (t := t.typ) formed ud
  rwa [width, Nat.add_sub_cancel, List.take_left, List.drop_left] at step

theorem parseTlvs_tlvPut (typ : TlvType) (val : TlvValue) (rest : List UInt8) (ud : σ) :
    parseTlvs cb (tlvPut typ val ++ rest) ud =
      if (cb typ.code val.bytes ud).2 then parseTlvs cb rest (cb typ.code val.bytes ud).1
      else ((cb typ.code val.bytes ud).1, true) :=
  parseTlvs_bytes cb ⟨typ.code, val⟩ rest ud

end

end Iwan
