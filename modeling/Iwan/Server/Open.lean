import Iwan.Server.Session

/- OPEN on the server (server.c, open_tlv and handle_open). -/
namespace Iwan

open BigEndian

/-- The clock readings of one handle_udp call, in the order it makes them. -/
structure Clock where
  entry : UInt64
  rate : UInt64
  check : UInt64
  stamp : UInt64
  stall : UInt64
  entry_le_rate : entry ≤ rate
  rate_le_check : rate ≤ check
  check_le_stamp : check ≤ stamp
  stamp_le_stall : stamp ≤ stall

def Clock.at (now : UInt64) : Clock :=
  ⟨now, now, now, now, now, UInt64.le_refl now, UInt64.le_refl now, UInt64.le_refl now,
    UInt64.le_refl now⟩

/-- The random tokens that are drawn, the last one not zero. -/
structure Draws where
  tries : List UInt32
  last : UInt32
  last_ne_zero : last ≠ 0

def mintToken (draws : Draws) : UInt32 := (draws.tries.find? (· ≠ 0)).getD draws.last

theorem mintToken_ne_zero (draws : Draws) : mintToken draws ≠ 0 := by
  unfold mintToken
  cases found : draws.tries.find? (· ≠ 0) with
  | none => exact draws.last_ne_zero
  | some tok =>
    have nonzero := List.find?_some found
    simpa only [Option.getD_some, decide_eq_true_eq] using nonzero

/-- Why an OPEN is refused. -/
inductive RejectReason where
  | malformedTlvs
  | usernameTooLong
  | missingAv
  | invalidCredentials
  | serverFull
  | sessionActiveElsewhere
deriving DecidableEq, Repr

def RejectReason.text : RejectReason → List UInt8
  | .malformedTlvs => ascii "malformed TLVs"
  | .usernameTooLong => ascii "username too long"
  | .missingAv => ascii "missing AV"
  | .invalidCredentials => ascii "invalid credentials"
  | .serverFull => ascii "server full"
  | .sessionActiveElsewhere => ascii "session active elsewhere"

def rejectValue (msg : List UInt8) : TlvValue :=
  ⟨msg.take iwanTlvVlenMax, by rw [List.length_take]; exact Nat.min_le_left _ _⟩

def sendReject (crypto : Crypto) (peer : SockaddrIn) (msg : List UInt8) : Effect :=
  .udpSend peer (ctrlHdr crypto .ptOpenReject 0 0 0 ++ tlvPut .tErrMsg (rejectValue msg))

def openReject (crypto : Crypto) (peer : SockaddrIn) (reason : RejectReason) : Effect :=
  sendReject crypto peer reason.text

/-- What the values of an OPEN say. -/
structure OpenCtx where
  user : List UInt8
  ct : Vector UInt8 16
  mtu : UInt16
  enc : UInt8
  nonce : UInt32
  haveAv : Bool
  userTooLong : Bool
deriving DecidableEq, Repr

def OpenCtx.start : OpenCtx := ⟨[], Vector.replicate 16 0, iwanDefaultMtu, 1, 0, false, false⟩

def openTlv (typ : UInt8) (val : List UInt8) (a : OpenCtx) : OpenCtx × Bool :=
  match TlvType.ofCode typ with
  | some .tUsername =>
    if 0 < val.length then
      ({ a with
        user := cString (val.take serverUserMax)
        userTooLong := a.userTooLong || serverUserMax < val.length }, true)
    else ({ a with user := [] }, true)
  | some .tPassword =>
    if 16 ≤ val.length then ({ a with ct := Vector.ofFn fun i => byteAt val i }, true)
    else (a, true)
  | some .tMtu =>
    if 2 ≤ val.length then ({ a with mtu := be16 (byteAt val 0) (byteAt val 1) }, true)
    else (a, true)
  | some .tEncrypt =>
    if 1 ≤ val.length then ({ a with enc := if byteAt val 0 ≠ 0 then 1 else 0 }, true)
    else (a, true)
  | some .tAuthVerify =>
    if val.length = 4 then
      ({ a with
        nonce := be32 (byteAt val 0) (byteAt val 1) (byteAt val 2) (byteAt val 3)
        haveAv := true }, true)
    else (a, true)
  | _ => (a, true)

def openRead (crypto : Crypto) (raw : List UInt8) : Except (Option RejectReason) OpenCtx :=
  if raw.length < iwanCtrlLen || !verifySig crypto raw then .error none
  else
    let (a, formed) := parseTlvs openTlv (raw.drop iwanCtrlLen) OpenCtx.start
    if !formed then .error (some .malformedTlvs)
    else if a.userTooLong then .error (some .usernameTooLong)
    else if !a.haveAv then .error (some .missingAv)
    else .ok a

def openAuth (crypto : Crypto) (users : List ServerUser) (a : OpenCtx) : Option (List UInt8) :=
  match users.find? (fun u => u.name == a.user) with
  | none => none
  | some u => if encryptPassword crypto u.pass a.user = a.ct then some u.pass else none

def openSlot (ctx : ServerCtx) (user : List UInt8) : Option Slot :=
  match ctx.scan (fun s => s.valid && s.user == user) with
  | some i => some i
  | none => ctx.scan (fun s => !s.valid)

def openElsewhere (s : Session) (peer : SockaddrIn) (now : UInt64) : Bool :=
  s.valid && s.peer.sinAddr ≠ peer.sinAddr && now - s.lastActiveMs ≤ idleTimeoutMs

def openProbe (ctx : ServerCtx) : Nat → UInt32 → Option UInt32
  | 0, _ => none
  | tries + 1, probe =>
    let probe := if ctx.ipEnd < probe then ctx.ipBase else probe
    if (findSession ctx probe.toUInt16).isNone then some probe
    else openProbe ctx tries (probe + 1)

/-- A re-OPEN keeps its address, a fresh one takes the next whose sid is free. -/
def openAddress (ctx : ServerCtx) (slot : Slot) : ServerCtx × Option (UInt32 × UInt16) :=
  let s := ctx.sess slot
  if s.valid then (ctx, some (ip4U32 s.ip, s.sid))
  else
    let pool := ctx.ipEnd - ctx.ipBase + 1
    if 65536 < pool then (ctx, none)
    else
      match openProbe ctx pool.toNat ctx.nextIp with
      | none => (ctx, none)
      | some ipu =>
        ({ ctx with nextIp := if ipu = ctx.ipEnd then ctx.ipBase else ipu + 1 },
          some (ipu, ipu.toUInt16))

def wipeLoop (test : Session → Bool) : List Slot → ServerCtx → ServerCtx × List Effect
  | [], ctx => (ctx, [])
  | i :: rest, ctx =>
    if test (ctx.sess i) then
      let (ctx', wipes) := wipeLoop test rest (sessWipe ctx i)
      (ctx', .wipe i :: wipes)
    else wipeLoop test rest ctx

def wipeWhere (ctx : ServerCtx) (test : Session → Bool) : ServerCtx × List Effect :=
  wipeLoop test (List.finRange serverMaxSessions) ctx

def openSession (a : OpenCtx) (sid : UInt16) (tok ipu : UInt32) (peer : SockaddrIn)
    (sk : Vector UInt8 16) (now : UInt64) : Session :=
  { Session.zero with
    valid := true
    sid := sid
    token := tok
    peer := peer
    ip := u32Ip4 ipu
    xorKey := xorKeyOf sk
    enc := a.enc
    lastActiveMs := now
    user := a.user }

def ServerCtx.install (ctx : ServerCtx) (slot : Slot) (s : Session) : ServerCtx :=
  { ctx with
    sess := Function.update ctx.sess slot s
    sidMap := Function.update ctx.sidMap s.sid slot.val }

def clampMtu (mtu : UInt16) : UInt16 :=
  if mtu < iwanMtuMin then iwanMtuMin else if iwanMtuMax < mtu then iwanMtuMax else mtu

theorem ackMtu_fits (a : OpenCtx) : (bytes16 (clampMtu a.mtu)).length ≤ iwanTlvVlenMax := by
  simp [iwanTlvVlenMax]

theorem ackNonce_fits (a : OpenCtx) : (bytes32 a.nonce).length ≤ iwanTlvVlenMax := by
  simp [iwanTlvVlenMax]

def ackTlvs (ctx : ServerCtx) (a : OpenCtx) (ipu : UInt32) : List UInt8 :=
  tlvPut .tMtu ⟨bytes16 (clampMtu a.mtu), ackMtu_fits a⟩ ++
    (tlvPut .tIp ⟨(u32Ip4 ipu).bytes, by simp [iwanTlvVlenMax, Ip4.bytes]⟩ ++
    (tlvPut .tGateway ⟨ctx.serverIp.bytes, by simp [iwanTlvVlenMax, Ip4.bytes]⟩ ++
    (tlvPut .tDns ⟨ctx.dns.bytes, by simp [iwanTlvVlenMax, Ip4.bytes]⟩ ++
    (tlvPut .tEncrypt ⟨[a.enc], by simp [iwanTlvVlenMax]⟩ ++
    tlvPut .tAuthVerify ⟨bytes32 a.nonce, ackNonce_fits a⟩))))

def openAck (crypto : Crypto) (ctx : ServerCtx) (a : OpenCtx) (sid : UInt16) (tok ipu : UInt32) :
    List UInt8 :=
  ctrlHdr crypto .ptOpenAck a.enc sid tok ++ ackTlvs ctx a ipu

def handleOpen (crypto : Crypto) (users : List ServerUser) (ctx : ServerCtx) (raw : List UInt8)
    (peer : SockaddrIn) (clock : Clock) (draws : Draws) : ServerCtx × List Effect :=
  match openRead crypto raw with
  | .error none => (ctx, [])
  | .error (some reason) => (ctx, [openReject crypto peer reason])
  | .ok a =>
    match openAuth crypto users a with
    | none => (ctx, [openReject crypto peer .invalidCredentials])
    | some pass =>
      let sk := sessionKey crypto a.user pass
      match openSlot ctx a.user with
      | none => (ctx, [openReject crypto peer .serverFull])
      | some slot =>
        if openElsewhere (ctx.sess slot) peer clock.check then
          (ctx, [openReject crypto peer .sessionActiveElsewhere])
        else
          match openAddress ctx slot with
          | (ctx, none) => (ctx, [openReject crypto peer .serverFull])
          | (ctx, some (ipu, sid)) =>
            let tok := mintToken draws
            -- replace any existing session with the same sid
            let (ctx, wipes) := wipeWhere ctx (·.hasSid sid)
            let ctx := ctx.install slot (openSession a sid tok ipu peer sk clock.stamp)
            (ctx, wipes ++ [.install slot,
              .udpSend peer (openAck crypto ctx a sid tok ipu)])

end Iwan
