import Iwan.Wire.Frame
import Iwan.Wire.Packet

/- The client's half of the handshake (auth.c). -/
namespace Iwan

open BigEndian

def getCt (crypto : Crypto) (user pass ctPassHex : List UInt8) : Option (Vector UInt8 16) :=
  if ctPassHex ≠ [] then
    let digits :=
      if byteAt ctPassHex 0 = 0x30 ∧ (byteAt ctPassHex 1 = 0x78 ∨ byteAt ctPassHex 1 = 0x58) then
        ctPassHex.drop 2
      else ctPassHex
    if digits.length ≠ 32 then none
    else (hexDecode digits 16).map fun bytes => Vector.ofFn fun i => byteAt bytes i
  else some (encryptPassword crypto pass user)

def openTlvs (name : TlvValue) (ct : Vector UInt8 16) (mtu : UInt16) (enc : UInt8)
    (nonce : UInt32) : List UInt8 :=
  tlvPut .tMtu ⟨bytes16 mtu, by simp [iwanTlvVlenMax]⟩ ++
    (tlvPut .tUsername name ++
    (tlvPut .tPassword ⟨ct.toList, by simp [iwanTlvVlenMax]⟩ ++
    (tlvPut .tEncrypt ⟨[enc], by simp [iwanTlvVlenMax]⟩ ++
    tlvPut .tAuthVerify ⟨bytes32 nonce, by simp [iwanTlvVlenMax]⟩)))

def buildOpen (crypto : Crypto) (user : List UInt8) (ct : Vector UInt8 16) (mtu : UInt16)
    (enc : UInt8) (nonce : UInt32) : Option (List UInt8) :=
  if fits : user.length ≤ iwanTlvVlenMax then
    some (ctrlHdr crypto .ptOpen enc 0 0 ++ openTlvs ⟨user, fits⟩ ct mtu enc nonce)
  else none

/-- The session that an OPEN_ACK grants. -/
structure AuthResult where
  sid : UInt16
  tok : UInt32
  tun : List UInt8
  gw : List UInt8
  dns : List UInt8
  mtu : UInt16
  enc : UInt8
deriving DecidableEq, Repr

/-- Why an answer to OPEN is no grant. -/
inductive AckError where
  | tooShort
  | badSig
  | openReject (reason : List UInt8)
  | unexpectedType (typ : UInt8) (tlvs : List UInt8)
  | oversizedAck
  | degenerateToken
  | malformedTlvs
  | missingTlvs
  | avWrongLen
  | avMismatch (echo : UInt32)
  | shortTlv
deriving DecidableEq, Repr

def AckError.text : AckError → List UInt8
  | .tooShort => ascii "too short"
  | .badSig => ascii "bad sig"
  | .openReject [] => ascii "OPEN_REJECT"
  | .openReject reason => ascii "OPEN_REJECT: " ++ reason
  | .unexpectedType typ tlvs =>
    ascii "unexpected type 0x" ++ hexEncode [typ] ++ ascii " tlvs=" ++ hexEncode tlvs
  | .oversizedAck => ascii "oversized ACK"
  | .degenerateToken => ascii "degenerate zero token"
  | .malformedTlvs => ascii "malformed TLVs"
  | .missingTlvs => ascii "ACK missing mandatory TLVs"
  | .avWrongLen => ascii "AV wrong len"
  | .avMismatch echo => ascii "AV mismatch " ++ hexEncode (bytes32 echo)
  | .shortTlv => ascii "short TLV"

/-- The state of the walk over the values of an OPEN_ACK. -/
structure AckCtx where
  r : AuthResult
  expect : UInt32
  err : Option AckError
  got : UInt8
deriving DecidableEq, Repr

def AckCtx.short (c : AckCtx) : AckCtx × Bool := ({ c with err := some .shortTlv }, false)

def ackTlv (typ : UInt8) (val : List UInt8) (c : AckCtx) : AckCtx × Bool :=
  match TlvType.ofCode typ with
  | some .tIp =>
    if val.length < 4 then c.short
    else ({ c with r := { c.r with tun := ipToString (ip4At val 0) }, got := c.got ||| 1 }, true)
  | some .tGateway =>
    if val.length < 4 then c.short
    else ({ c with r := { c.r with gw := ipToString (ip4At val 0) }, got := c.got ||| 2 }, true)
  | some .tDns =>
    if val.length < 4 then c.short
    else ({ c with r := { c.r with dns := ipToString (ip4At val 0) }, got := c.got ||| 4 }, true)
  | some .tMtu =>
    if val.length < 2 then c.short
    else
      let m := be16 (byteAt val 0) (byteAt val 1)
      let mtu := if m < iwanMtuMin then iwanMtuMin else if iwanMtuMax < m then iwanMtuMax else m
      ({ c with r := { c.r with mtu }, got := c.got ||| 8 }, true)
  | some .tEncrypt =>
    if val.length < 1 then c.short
    else ({ c with r := { c.r with enc := if byteAt val 0 ≠ 0 then 1 else 0 } }, true)
  | some .tAuthVerify =>
    if val.length ≠ 4 then ({ c with err := some .avWrongLen }, false)
    else
      let echo := be32 (byteAt val 0) (byteAt val 1) (byteAt val 2) (byteAt val 3)
      if echo ≠ c.expect then ({ c with err := some (.avMismatch echo) }, false)
      else (c, true)
  | _ => (c, true)

def rejectReason : Nat → List UInt8 → List UInt8 → List UInt8
  | fuel + 1, lt :: ll :: rest, reason =>
    if ll < 2 ∨ rest.length + 2 < ll.toNat then reason
    else
      let value := rest.take (ll.toNat - 2)
      let reason := if lt = TlvType.tErrMsg.code ∧ ll.toNat - 2 < 128 then value else reason
      rejectReason fuel (rest.drop (ll.toNat - 2)) reason
  | _, _, reason => reason

def sanitizeReason (reason : List UInt8) : List UInt8 :=
  reason.map fun c => if c < 0x20 ∨ (0x7F ≤ c ∧ c ≤ 0x9F) then 0x3F else c

def parseAck (crypto : Crypto) (buf : List UInt8) (expectNonce : UInt32) :
    Except AckError AuthResult :=
  if buf.length < iwanCtrlLen then .error .tooShort
  else if hdrTyp buf = FrameType.ptOpenReject.code then
    if !verifySig crypto buf then .error .badSig
    else
      let tlvs := buf.drop iwanCtrlLen
      .error (.openReject (sanitizeReason (rejectReason tlvs.length tlvs [])))
  else if hdrTyp buf ≠ FrameType.ptOpenAck.code then
    .error (.unexpectedType (hdrTyp buf) (buf.drop iwanCtrlLen))
  else if iwanCtrlLen + 31 < buf.length then .error .oversizedAck
  else if !verifySig crypto buf then .error .badSig
  else if hdrTok buf = 0 then .error .degenerateToken
  else
    let r : AuthResult := ⟨hdrSid buf, hdrTok buf, [], [], [], iwanDefaultMtu, 1⟩
    let (c, formed) := parseTlvs ackTlv (buf.drop iwanCtrlLen) ⟨r, expectNonce, none, 0⟩
    if !formed then .error .malformedTlvs
    else if c.got &&& 0x0F ≠ 0x0F then .error .missingTlvs
    else
      match c.err with
      | some err => .error err
      | none => .ok c.r

/-- What the data plane keeps of a session. -/
structure ClientSession where
  sid : UInt16
  token : UInt32
  enc : UInt8
  xorKey : Vector UInt8 8
  innerIp : UInt32
deriving DecidableEq, Repr

def AuthResult.session (r : AuthResult) (sk : Vector UInt8 16) (innerIp : UInt32) :
    ClientSession :=
  ⟨r.sid, r.tok, r.enc, xorKeyOf sk, innerIp⟩

end Iwan
