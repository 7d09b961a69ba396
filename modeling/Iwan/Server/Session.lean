import Iwan.Lib.SlotIndex
import Iwan.Wire.Packet
import Iwan.Server.Rate

/- The session table and the per-session token budget (server.h, server.c). -/
namespace Iwan

def serverMaxSessions : Nat := 256
def serverUserMax : Nat := 63
def idleTimeoutMs : UInt64 := 120000
def rateTokenMismatchMax : UInt32 := 4
def rateTokenMismatchBoundMax : UInt32 := 64

abbrev Slot := Fin serverMaxSessions

instance : NeZero serverMaxSessions := ⟨by decide⟩

/-- A datagram's source; address and port decide a comparison of the structure. -/
structure SockaddrIn where
  sinAddr : UInt32
  sinPort : UInt16
deriving DecidableEq, Repr

/-- A slot of the session table. -/
structure Session where
  valid : Bool
  sid : UInt16
  token : UInt32
  peer : SockaddrIn
  ip : Ip4
  xorKey : Vector UInt8 8
  enc : UInt8
  lastActiveMs : UInt64
  tokMisCnt : UInt32
  tokMisBound : UInt32
  tokMisWin : UInt64
  throttleUntilMs : UInt64
  user : List UInt8
deriving DecidableEq, Repr

def Session.zero : Session where
  valid := false
  sid := 0
  token := 0
  peer := ⟨0, 0⟩
  ip := ⟨0, 0, 0, 0⟩
  xorKey := Vector.replicate 8 0
  enc := 0
  lastActiveMs := 0
  tokMisCnt := 0
  tokMisBound := 0
  tokMisWin := 0
  throttleUntilMs := 0
  user := []

def Session.frameType (s : Session) : FrameType := if s.enc ≠ 0 then .ptDataEnc else .ptData

/-- The session table, the sid map and the address pool. -/
structure ServerCtx where
  sess : Slot → Session
  sidMap : UInt16 → Int
  serverIp : Ip4
  dns : Ip4
  nextIp : UInt32
  ipBase : UInt32
  ipEnd : UInt32
  subnetBase : UInt32
  subnetMask : UInt32
  subnetSet : Bool
  tunFd : Int
  -- qpool is set and IWAN_SRV_TUN_SINGLE is not
  tunPool : Bool

/-- A configured user. -/
structure ServerUser where
  name : List UInt8
  pass : List UInt8
  nameText : 0 ∉ name
  passText : 0 ∉ pass
  nameFits : name.length ≤ serverUserMax
  passFits : pass.length ≤ serverUserMax

/-- What the server does to the outside, and to a slot. -/
inductive Effect where
  | udpSend (peer : SockaddrIn) (frame : List UInt8)
  | tunWrite (pool : Bool) (pkt : List UInt8)
  | echoMirror (pkt : List UInt8)
  | tokenCompare (slot : Slot) (bound equal : Bool)
  | tokenCharge (slot : Slot) (bound : Bool)
  | wipe (slot : Slot)
  | install (slot : Slot)
deriving DecidableEq, Repr

def ServerCtx.modify (ctx : ServerCtx) (i : Slot) (f : Session → Session) : ServerCtx :=
  { ctx with sess := Function.update ctx.sess i (f (ctx.sess i)) }

def ServerCtx.scan (ctx : ServerCtx) (test : Session → Bool) : Option Slot :=
  Fin.find? fun i => test (ctx.sess i)

def mapSlot (entry : Int) : Option Slot :=
  if inside : 0 ≤ entry ∧ entry < 256 then
    some ⟨entry.toNat, by unfold serverMaxSessions; omega⟩
  else none

def Session.hasSid (s : Session) (sid : UInt16) : Bool := s.valid && s.sid == sid

def Session.hasIp (s : Session) (ip : Ip4) : Bool := s.valid && s.ip == ip

def findSession (ctx : ServerCtx) (sid : UInt16) : Option Slot :=
  let slot := ctx.sidMap sid
  if slot < 0 then none
  else
    match mapSlot slot with
    | some i => if (ctx.sess i).hasSid sid then some i else ctx.scan (·.hasSid sid)
    | none => ctx.scan (·.hasSid sid)

def findSessionByIp (ctx : ServerCtx) (ip : Ip4) : Option Slot :=
  let sid := BigEndian.be16 ip.b2 ip.b3
  let slot := ctx.sidMap sid
  if slot < 0 then none
  else
    match mapSlot slot with
    | some i =>
      if (ctx.sess i).hasSid sid && (ctx.sess i).ip == ip then some i
      else ctx.scan (·.hasIp ip)
    | none => ctx.scan (·.hasIp ip)

def sessWipe (ctx : ServerCtx) (i : Slot) : ServerCtx :=
  let s := ctx.sess i
  if !s.valid then ctx
  else
    { ctx with
      sess := Function.update ctx.sess i
        { s with valid := false, xorKey := Vector.replicate 8 0, token := 0 }
      sidMap := Function.update ctx.sidMap s.sid (-1) }

def tokWinLive (s : Session) (now : UInt64) : Bool :=
  s.tokMisWin ≠ 0 && now - s.tokMisWin < rateWindowMs

def tokBudgetOver (s : Session) (now : UInt64) : Bool :=
  tokWinLive s now && rateTokenMismatchMax ≤ s.tokMisCnt

def tokRebindAllowed (s : Session) (now : UInt64) : Bool :=
  !tokWinLive s now || s.tokMisCnt = 0

def saturate (cnt max : UInt32) : UInt32 := if cnt < max then cnt + 1 else cnt

def tokBudgetCharge (s : Session) (bound : Bool) (now : UInt64) : Session :=
  let s :=
    if tokWinLive s now then s
    else { s with tokMisWin := now, tokMisCnt := 0, tokMisBound := 0 }
  if bound then { s with tokMisBound := saturate s.tokMisBound rateTokenMismatchBoundMax }
  else { s with tokMisCnt := saturate s.tokMisCnt rateTokenMismatchMax }

section

variable (ctx : ServerCtx) (i : Slot) (f : Session → Session)

@[simp] theorem modify_self : (ctx.modify i f).sess i = f (ctx.sess i) := by
  simp only [ServerCtx.modify, Function.update_self]

theorem modify_other (j : Slot) (other : j ≠ i) : (ctx.modify i f).sess j = ctx.sess j := by
  simp only [ServerCtx.modify, Function.update_of_ne other]

@[simp] theorem modify_sidMap : (ctx.modify i f).sidMap = ctx.sidMap := rfl

@[simp] theorem modify_tunFd : (ctx.modify i f).tunFd = ctx.tunFd := rfl

@[simp] theorem modify_tunPool : (ctx.modify i f).tunPool = ctx.tunPool := rfl

@[simp] theorem modify_modify (g : Session → Session) :
    (ctx.modify i f).modify i g = ctx.modify i (fun s => g (f s)) := by
  simp only [ServerCtx.modify, Function.update_self, Function.update_idem]

end

theorem Session.frameType_isData (s : Session) :
    s.frameType = .ptData ∨ s.frameType = .ptDataEnc := by
  unfold Session.frameType
  split
  · exact .inr rfl
  · exact .inl rfl

theorem tokBudgetCharge_frame (s : Session) (bound : Bool) (now : UInt64) :
    tokBudgetCharge s bound now =
      { s with
        tokMisCnt := (tokBudgetCharge s bound now).tokMisCnt
        tokMisBound := (tokBudgetCharge s bound now).tokMisBound
        tokMisWin := (tokBudgetCharge s bound now).tokMisWin } := by
  unfold tokBudgetCharge
  dsimp only
  split_ifs <;> rfl

end Iwan
