import Iwan.Proxy.Flow

/- The handshakes of the kernel relay (relay_proxy.c). A read that returns nothing is the end of the
stream. -/
namespace Iwan

open BigEndian Incremental

def rpHsInputMax : Nat := 65536

def rpSocksBuf : Nat := 4096

def rpHttpBuf : Nat := 8192

/-- The replies, the results for the lockout, the target with the bytes behind it, and the socket.
-/
structure RelayRun where
  sent : List UInt8
  notes : List Bool
  connect : Bool
  handed : Option (PpTarget × List UInt8)
  src : Source UInt8

def RelayRun.closed (sent : List UInt8) (notes : List Bool) (src : Source UInt8) : RelayRun :=
  ⟨sent, notes, false, none, src⟩

def rpReadFull (want : Nat) (b : List UInt8) (src : Source UInt8) :
    Option (List UInt8 × Source UInt8) :=
  (src.readUntil (fun b => if want ≤ b.length then some () else none) rpHsInputMax want b).map
    Prod.snd

def rpSocksReply (rep : UInt8) : List UInt8 := [5, rep, 0, 1, 0, 0, 0, 0, 0, 0]

def rpSocksMethods (token : Option (List UInt8)) (b : List UInt8) (src : Source UInt8) :
    Option (UInt8 × List UInt8 × Source UInt8) :=
  match ppSocksGreeting b token.isSome with
  | some method => some (method, b, src)
  | none =>
    let want := 2 + (byteAt b 1).toNat
    if rpSocksBuf < want then none
    else
      (rpReadFull want b src).bind fun (b, src) =>
        (ppSocksGreeting b token.isSome).map fun method => (method, b, src)

def rpSocksGreeting (token : Option (List UInt8)) (first : List UInt8) (src : Source UInt8) :
    Option (UInt8 × List UInt8 × Source UInt8) :=
  let head := if first.length = 1 then rpReadFull 2 first src else some (first, src)
  head.bind fun (b, src) => rpSocksMethods token b src

def rpSocksRequest (sent : List UInt8) (notes : List Bool) (b : List UInt8)
    (src : Source UInt8) : RelayRun :=
  match src.readUntil ppSocksRequest rpHsInputMax rpSocksBuf b with
  | none => .closed sent notes src
  | some (.refused rep, _, src) => .closed (sent ++ rpSocksReply rep) notes src
  | some (.target t, b, src) =>
    let frameEnd :=
      if byteAt b 3 = 1 then 10 else if byteAt b 3 = 4 then 22 else 5 + (byteAt b 4).toNat + 2
    ⟨sent, notes, false, some (t, b.drop frameEnd), src⟩

def rpSocksAuth (token : Option (List UInt8)) (b : List UInt8) (src : Source UInt8) : RelayRun :=
  match src.readUntil (fun d => ppSocksAuthFrame d 64) rpHsInputMax rpSocksBuf b with
  | none => .closed [5, 2] [] src
  | some (.valid _ pass, b, src) =>
    if ppSocksAuthOk pass token then
      rpSocksRequest ([5, 2] ++ [1, 0]) (if token.isSome then [true] else [])
        (b.drop (2 + (byteAt b 1).toNat + 1 + pass.length)) src
    else .closed ([5, 2] ++ [1, 1]) [false] src
  -- a user name that does not fit counts as a failed attempt, a malformed frame does not
  | some (.oversized, _, src) => .closed ([5, 2] ++ [1, 1]) [false] src
  | some (.malformed, _, src) => .closed ([5, 2] ++ [1, 1]) [] src

def rpHandleSocks (token : Option (List UInt8)) (first : List UInt8) (src : Source UInt8) :
    RelayRun :=
  if first.length = 0 ∨ rpSocksBuf < first.length then .closed [] [] src
  else
    match rpSocksGreeting token first src with
    | none => .closed [] [] src
    | some (offered, b, src) =>
      let method := ppSocksPickMethod token.isSome offered
      if method = 0xff then .closed [5, 0xff] [] src
      else
        let b := b.drop (2 + (byteAt b 1).toNat)
        if token.isSome ∨ method = 2 then rpSocksAuth token b src
        else rpSocksRequest [5, 0] [] b src

inductive HeaderRead where
  | complete (last : Nat)
  | tooLarge
deriving DecidableEq, Repr

def headerRead (d : List UInt8) : Option HeaderRead :=
  match scanHeader (d.take (rpHttpBuf - 1)) 3 with
  | some last => some (.complete last)
  | none => if rpHttpBuf - 1 ≤ d.length then some .tooLarge else none

def headerTooLarge : List UInt8 :=
  ascii "HTTP/1.1 431 Request Header Fields Too Large\r\nContent-Length: 0\r\n\r\n"

/-- The method and the target are scanned for in the whole header block. -/
def rpHttpTarget (pton : InetPton) (buf : List UInt8) (hdrEnd : Nat) : Option (Bool × PpTarget) :=
  let mn := scan isSpace buf 0 hdrEnd
  if mn = 0 ∨ hdrEnd ≤ mn then none
  else
    let connect : Bool := mn = 7 ∧ buf.take 7 = ascii "CONNECT"
    let ts := scan notSpace buf (mn + 1) hdrEnd
    if hdrEnd ≤ ts then none
    else
      let line := scan isLineEnd buf ts hdrEnd
      let tlen := if line < hdrEnd then line - ts else 0
      if tlen = 0 then none
      else (ppHttpTarget pton ((buf.drop ts).take tlen) connect).map fun t => (connect, t)

def rpHandleHttp (pton : InetPton) (first : List UInt8) (src : Source UInt8) : RelayRun :=
  match src.readUntil headerRead rpHsInputMax (rpHttpBuf - 1) first with
  | none => .closed [] [] src
  | some (.tooLarge, _, src) => .closed headerTooLarge [] src
  | some (.complete last, buf, src) =>
    match rpHttpTarget pton buf (last + 1) with
    | none => .closed badGateway [] src
    | some (connect, t) => ⟨[], [], connect, some (t, buf.drop (last + 1)), src⟩

def rpConnMain (token : Option (List UInt8)) (pton : InetPton) (src : Source UInt8) : RelayRun :=
  match src.recv rpHsInputMax rpSocksBuf with
  | none => .closed [] [] src
  | some (first, src) =>
    if first = [] then .closed [] [] src
    else if byteAt first 0 = 5 then rpHandleSocks token first src
    else if token.isSome then .closed [] [] src
    else rpHandleHttp pton first src

end Iwan
