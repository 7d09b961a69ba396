import Iwan.Proxy.Parse

/- The parser of HTTPS responses (http_parser.c); but for the transfer coding, without NUL bytes. -/
namespace Iwan

def httpsChunkSzCap : Nat := 0x7FFFFFFF

def httpEol (c : UInt8) : Bool := c == 0x0D || c == 0x0A
def httpBlank (c : UInt8) : Bool := c == 0x20 || c == 0x09

def httpTrim (s : List UInt8) : List UInt8 := (s.dropWhile httpBlank).rdropWhile httpBlank

def teElementChunked (elem : List UInt8) : Bool :=
  (((httpTrim elem).takeWhile (· ≠ 0x3B)).rdropWhile httpBlank).map asciiLower == ascii "chunked"

/-- A call of sbuf_app: where the text starts, and the length as the C expression gives it. -/
structure SbufApp where
  bytes : List UInt8
  len : Int
deriving DecidableEq, Repr

def httpSkipEol (s : List UInt8) : List UInt8 :=
  let s := if s.head? = some 0x0D then s.drop 1 else s
  if s.head? = some 0x0A then s.drop 1 else s

/-- The loop over continuation lines. `leol` is taken before the line end is passed, so the length
is negative; such a call ends the process (`none`). -/
def teFoldLoop : Nat → List UInt8 → List UInt8 → List SbufApp → Option (List UInt8) × List SbufApp
  | 0, _, _, calls => (none, calls)
  | fuel + 1, s, v, calls =>
    if s = [] then (some v, calls)
    else
      let j := httpSkipEol s
      if ¬ j.head?.any httpBlank then (some v, calls)
      else
        let leol := s.dropWhile (!httpEol ·)
        -- Blanks are passed only in front of leol.
        let lp := (j.take (j.length - leol.length)).dropWhile httpBlank ++
          j.drop (j.length - leol.length)
        let len : Int := lp.length - leol.length
        let calls := calls ++ [⟨[0x20], 1⟩, ⟨lp, len⟩]
        if len < 0 then (none, calls)
        else teFoldLoop fuel leol (v ++ 0x20 :: lp.take len.toNat) calls

/-- The answer of https_te_header_chunked, if it returns, and its calls of sbuf_app. -/
structure TeScan where
  result : Option Bool
  calls : List SbufApp
deriving DecidableEq, Repr

/-- The elements of a value; strchr and strlen see it up to its first NUL. -/
def teValueChunked (v : List UInt8) : Bool :=
  ((cString (v.rdropWhile httpBlank)).splitOn 0x2C).any teElementChunked

def httpsTeHeaderChunkedLoop : Nat → List UInt8 → List SbufApp → TeScan
  | 0, _, calls => ⟨none, calls⟩
  | fuel + 1, hdrs, calls =>
    if hdrs = [] then ⟨some false, calls⟩
    else
      let line := hdrs.takeWhile (!httpEol ·)
      let after := hdrs.dropWhile (!httpEol ·)
      if hasScheme line (ascii "transfer-encoding:") then
        let p := (line.drop 18).dropWhile httpBlank
        match teFoldLoop (after.length + 1) after p (calls ++ [⟨p ++ after, p.length⟩]) with
        | (none, calls) => ⟨none, calls⟩
        | (some v, calls) =>
          if teValueChunked v then ⟨some true, calls⟩
          else httpsTeHeaderChunkedLoop fuel (after.dropWhile httpEol) calls
      else httpsTeHeaderChunkedLoop fuel (after.dropWhile httpEol) calls

/-- Every turn passes a byte at least, so the length of the block is fuel enough. -/
def httpsTeHeaderChunked (hdrs : List UInt8) : TeScan :=
  httpsTeHeaderChunkedLoop (hdrs.length + 1) hdrs []

def httpsHdrLines (name : List UInt8) : List (List UInt8) → Bool → List UInt8 → List UInt8
  | [], _, val => val
  | line :: rest, matched, val =>
    let line := if line.getLast? = some 0x0D then line.dropLast else line
    if line = [] then val
    else if line.head?.any httpBlank then
      httpsHdrLines name rest matched
        (if matched then val ++ 0x20 :: line.dropWhile httpBlank else val)
    else if 0x3A ∈ line ∧ (line.takeWhile (· ≠ 0x3A)).map asciiLower = name then
      let field := ((line.dropWhile (· ≠ 0x3A)).drop 1).dropWhile httpBlank
      httpsHdrLines name rest true ((if val = [] then [] else val ++ ascii ", ") ++ field)
    else httpsHdrLines name rest matched val

def httpsHdrValue (hdr name : List UInt8) : Option (List UInt8) :=
  let val := httpsHdrLines name (hdr.splitOn 0x0A) false []
  if val = [] then none else some (val.rdropWhile httpBlank)

def hexParseSzLoop : List UInt8 → Nat → Option Nat
  | [], v => some v
  | c :: rest, v =>
    match hexNibble c with
    | none => none
    | some h =>
      if (httpsChunkSzCap - h.toNat) / 16 < v then none
      else hexParseSzLoop rest (v * 16 + h.toNat)

def hexParseSz (s : List UInt8) : Option Nat := hexParseSzLoop s 0

/-- Where a chunked body breaks off. -/
inductive ChunkError where
  | badSize (offset : Nat)
  | overruns (offset : Nat)
  | missingTerminal
deriving DecidableEq, Repr

/-- The loop of chunk_decode with the offset of the error texts: its verdict and what it has
appended to `out` by then. -/
def chunkDecodeLoop :
    Nat → Nat → List UInt8 → List UInt8 → Except ChunkError Unit × List UInt8
  | 0, _, _, out => (.error .missingTerminal, out)
  | fuel + 1, i, input, out =>
    if input = [] then (.error .missingTerminal, out)
    else
      match hexParseSz (input.takeWhile fun c => !httpEol c && c != 0x3B) with
      | none => (.error (.badSize i), out)
      | some sz =>
        let rest := (input.dropWhile (!httpEol ·)).dropWhile httpEol
        if sz = 0 then (.ok (), out)
        else if rest.length < sz then (.error (.overruns i), out)
        else
          let next := (rest.drop sz).dropWhile httpEol
          chunkDecodeLoop fuel (i + (input.length - next.length)) next (out ++ rest.take sz)

/-- Every turn takes a byte at least, so the length of the input is fuel enough. -/
def chunkDecode (input : List UInt8) : Except ChunkError Unit × List UInt8 :=
  chunkDecodeLoop input.length 0 input []

end Iwan
