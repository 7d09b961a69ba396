import Iwan.Lib.XorStream

/- Password block, session key and XOR cipher (crypto.c). MD5 and AES-128-ECB stay parameters. -/
namespace Iwan

open XorStream (ByteOrder stream xorWords xorMoves load64)

/-- The two primitives. -/
structure Crypto where
  md5 : List UInt8 → Vector UInt8 16
  aes128Ecb : Vector UInt8 16 → Vector UInt8 16 → Vector UInt8 16

/-- What the word-wise cipher depends on. -/
structure Machine where
  order : ByteOrder
  aligned : Bool
deriving DecidableEq, Repr

def iwanMw : List UInt8 := [0x6D, 0x77]

/-- The bytes that a C function reads as a string: those before the first NUL. -/
def cString (bytes : List UInt8) : List UInt8 := bytes.takeWhile (· ≠ 0)

theorem cString_of_text {bytes : List UInt8} (text : 0 ∉ bytes) : cString bytes = bytes := by
  refine List.takeWhile_eq_self_iff.mpr fun byte member => decide_eq_true ?_
  rintro rfl
  exact text member

def ascii (text : String) : List UInt8 := text.toList.map fun c => UInt8.ofNat c.toNat

def crlf : List UInt8 := [0x0D, 0x0A]

def passwordBlock (plain : List UInt8) : Vector UInt8 16 :=
  Vector.ofFn fun index => plain.getD index 0

def encryptPassword (crypto : Crypto) (plain username : List UInt8) : Vector UInt8 16 :=
  crypto.aes128Ecb (crypto.md5 (iwanMw ++ username)) (passwordBlock plain)

def sessionKey (crypto : Crypto) (username password : List UInt8) : Vector UInt8 16 :=
  crypto.md5 (username ++ password)

def xorKeyOf (sk : Vector UInt8 16) : Vector UInt8 8 := (sk.take 8).cast rfl

def hexDigit (nibble : UInt8) : UInt8 := if nibble < 10 then 0x30 + nibble else 0x57 + nibble

def hexEncode (bytes : List UInt8) : List UInt8 :=
  bytes.flatMap fun (byte : UInt8) => [hexDigit (byte >>> 4), hexDigit (byte &&& 0x0F)]

def hexNibble (c : UInt8) : Option UInt8 :=
  if 0x30 ≤ c ∧ c ≤ 0x39 then some (c - 0x30)
  else if 0x61 ≤ c ∧ c ≤ 0x66 then some (c - 0x61 + 10)
  else if 0x41 ≤ c ∧ c ≤ 0x46 then some (c - 0x41 + 10)
  else none

def hexPairs : List UInt8 → Option (List UInt8)
  | [] => some []
  | [_] => none
  | hi :: lo :: rest =>
    match hexNibble hi, hexNibble lo, hexPairs rest with
    | some hi, some lo, some bytes => some ((hi <<< 4 ||| lo) :: bytes)
    | _, _, _ => none

def hexDecode (hex : List UInt8) (outcap : Nat) : Option (List UInt8) :=
  if hex.length % 2 ≠ 0 then none
  else if outcap < hex.length / 2 then none
  else hexPairs hex

def xorCrypt (machine : Machine) (data key : List UInt8) : List UInt8 :=
  if key.length = 0 then data
  else if key.length = 8 ∧ 8 ≤ data.length then
    let key64 := load64 machine.order key
    let words := data.length / 8
    let head := data.take (8 * words)
    let crypted :=
      if machine.aligned then xorWords machine.order key64 words head
      else xorMoves machine.order key64 words 0 head
    crypted ++ stream key (8 * words) (data.drop (8 * words))
  else stream key 0 data

theorem xorCrypt_eq_stream (machine : Machine) (data key : List UInt8) (nonempty : key ≠ []) :
    xorCrypt machine data key = stream key 0 data := by
  have positive : key.length ≠ 0 := fun empty => nonempty (List.eq_nil_of_length_eq_zero empty)
  have moves (words : Nat) (bytes : List UInt8) : xorMoves machine.order
      (load64 machine.order key) words 0 bytes =
        xorWords machine.order (load64 machine.order key) words bytes :=
    XorStream.xorMoves_append machine.order _ words [] bytes
  simp only [xorCrypt, positive, ↓reduceIte, moves, ite_self]
  split
  · rename_i wide
    have inside : 8 * (data.length / 8) ≤ data.length := by omega
    have front : (data.take (8 * (data.length / 8))).length = 8 * (data.length / 8) := by
      rw [List.length_take, Nat.min_eq_left inside]
    rw [XorStream.xorWords_eq_stream machine.order key wide.1 _ _ 0 rfl front]
    have joined := XorStream.stream_append key 0 (data.take (8 * (data.length / 8)))
      (data.drop (8 * (data.length / 8)))
    rw [front, Nat.zero_add, List.take_append_drop] at joined
    exact joined.symm
  · rfl

theorem xorCrypt_key (machine : Machine) (data : List UInt8) (key : Vector UInt8 8) :
    xorCrypt machine data key.toList = stream key.toList 0 data := by
  apply xorCrypt_eq_stream
  intro empty
  have width := key.length_toList
  rw [empty] at width
  cases width

@[simp] theorem xorCrypt_length (machine : Machine) (data : List UInt8) (key : Vector UInt8 8) :
    (xorCrypt machine data key.toList).length = data.length := by
  rw [xorCrypt_key, XorStream.stream_length]

@[simp] theorem xorCrypt_xorCrypt (sender receiver : Machine) (data : List UInt8)
    (key : Vector UInt8 8) :
    xorCrypt receiver (xorCrypt sender data key.toList) key.toList = data := by
  rw [xorCrypt_key, xorCrypt_key, XorStream.stream_stream]

end Iwan
