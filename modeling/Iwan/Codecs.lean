import Iwan.Lib.Span
import Iwan.Oidc.Jwt

/- The cipher and the text codecs of crypto.c. -/
namespace Iwan

open XorStream (stream stream_append stream_start_mod)

theorem stream_eq_mapIdx (key : List UInt8) (start : Nat) (data : List UInt8) :
    stream key start data =
      data.mapIdx fun i byte => byte ^^^ key.getD ((start + i) % key.length) 0 := by
  induction data generalizing start with
  | nil => rfl
  | cons byte rest ih =>
    rw [stream, ih, List.mapIdx_cons]
    simp [Nat.add_assoc, Nat.add_comm 1]

/-- Every machine changes byte `i` by byte `i % 8` of the key, so the cipher undoes itself. -/
theorem xorCrypt_bytewise (machine machine' : Machine) (data : List UInt8)
    (key : Vector UInt8 8) (k : Nat) :
    xorCrypt machine data key.toList =
      data.mapIdx (fun i byte => byte ^^^ key.toList.getD (i % 8) 0) ∧
    xorCrypt machine' (xorCrypt machine data key.toList) key.toList = data ∧
    xorCrypt machine (data.take (8 * k)) key.toList ++
      xorCrypt machine' (data.drop (8 * k)) key.toList = xorCrypt machine data key.toList := by
  refine ⟨?_, xorCrypt_xorCrypt machine machine' data key, ?_⟩
  · rw [xorCrypt_key, stream_eq_mapIdx, Vector.length_toList]
    simp
  · rw [xorCrypt_key, xorCrypt_key, xorCrypt_key]
    by_cases inside : 8 * k ≤ data.length
    · have joined := stream_append key.toList 0 (data.take (8 * k)) (data.drop (8 * k))
      rw [List.take_append_drop, Nat.zero_add, List.length_take, Nat.min_eq_left inside,
        ← stream_start_mod key.toList (8 * k), Vector.length_toList, Nat.mul_mod_right] at joined
      exact joined.symm
    · rw [List.take_of_length_le (by omega), List.drop_of_length_le (by omega)]
      exact List.append_nil _

def b64Table : List UInt8 :=
  ascii "ABCDEFGHIJKLMNOPQRSTUVWXYZabcdefghijklmnopqrstuvwxyz0123456789+/"

def b64Char (n : Nat) : UInt8 := b64Table.getD n 0

/-- Standard base64 with padding, which EVP_EncodeBlock is taken to give. -/
def base64 : List UInt8 → List UInt8
  | [] => []
  | [a] => [b64Char (a.toNat / 4), b64Char (a.toNat % 4 * 16), 0x3D, 0x3D]
  | [a, b] =>
    [b64Char (a.toNat / 4), b64Char (a.toNat % 4 * 16 + b.toNat / 16),
      b64Char (b.toNat % 16 * 4), 0x3D]
  | a :: b :: c :: data =>
    b64Char (a.toNat / 4) :: b64Char (a.toNat % 4 * 16 + b.toNat / 16) ::
      b64Char (b.toNat % 16 * 4 + c.toNat / 64) :: b64Char (c.toNat % 64) :: base64 data

def b64urlChar (c : UInt8) : UInt8 := if c = 0x2B then 0x2D else if c = 0x2F then 0x5F else c

/-- The function b64url_no_pad over OpenSSL's encoder. -/
def b64urlNoPad (evpEncodeBlock : List UInt8 → List UInt8) (data : List UInt8) : List UInt8 :=
  ((evpEncodeBlock data).map b64urlChar).rdropWhile (· = 0x3D)

def b64Alphabets : List UInt8 := b64Table ++ ascii "-_"

-- The string is decoded here only: over all bytes that would take the kernel seconds.
theorem b64Table_eq : b64Table =
    (List.range' 65 26 ++ List.range' 97 26 ++ List.range' 48 10 ++ [43, 47]).map UInt8.ofNat := by
  decide +kernel

theorem b64CharVal_isSome (c : UInt8) : (b64CharVal c).isSome = decide (c ∈ b64Alphabets) := by
  rw [b64Alphabets, b64Table_eq, show ascii "-_" = [0x2D, 0x5F] from rfl]
  revert c
  decide +kernel

theorem b64urlChar_value :
    ∀ n < 64, b64CharVal (b64urlChar (b64Char n)) = some n ∧ b64urlChar (b64Char n) ≠ 0x3D := by
  simp only [b64Char, b64Table_eq]
  decide +kernel

theorem b64Groups_spec (s : List UInt8) :
    ((b64Groups s).isSome = true ↔
      s.length % 4 ≠ 1 ∧ ∀ c ∈ s, (b64CharVal c).isSome = true) ∧
    ∀ out, b64Groups s = some out → out.length = 6 * s.length / 8 := by
  induction size : s.length using Nat.strong_induction_on generalizing s with
  | _ n ih =>
    subst size
    rcases s with _ | ⟨a, _ | ⟨b, _ | ⟨c, _ | ⟨d, s⟩⟩⟩⟩
    · simp [b64Groups]
    · simp [b64Groups]
    · rcases first : b64CharVal a with _ | x
      · simp [b64Groups, first]
      rcases second : b64CharVal b with _ | y
      · simp [b64Groups, second]
      simp [b64Groups, first, second]
    · rcases first : b64CharVal a with _ | x
      · simp [b64Groups, first]
      rcases second : b64CharVal b with _ | y
      · simp [b64Groups, second]
      rcases third : b64CharVal c with _ | z
      · simp [b64Groups, third]
      simp [b64Groups, first, second, third]
    · have later := ih s.length (by simp; omega) s rfl
      have count : (s.length + 1 + 1 + 1 + 1) % 4 = s.length % 4 := by omega
      rcases first : b64CharVal a with _ | x
      · simp [b64Groups, first]
      rcases second : b64CharVal b with _ | y
      · simp [b64Groups, second]
      rcases third : b64CharVal c with _ | z
      · simp [b64Groups, third]
      rcases fourth : b64CharVal d with _ | w
      · simp [b64Groups, fourth]
      rcases rest : b64Groups s with _ | out
      · rw [rest] at later
        simp only [b64Groups, first, second, third, fourth, rest]
        simpa [first, second, third, fourth, count] using later.1
      · rw [rest] at later
        have tail := later.2 out rfl
        simp only [b64Groups, first, second, third, fourth, rest]
        refine ⟨by simpa [first, second, third, fourth, count] using later.1, ?_⟩
        rintro _ ⟨rfl⟩
        simp only [List.length_cons, tail]
        omega

theorem shiftLeft_or (x : Nat) {y k : Nat} (low : y < 2 ^ k) : x <<< k ||| y = x * 2 ^ k + y := by
  rw [← Nat.shiftLeft_add_eq_or_of_lt low, Nat.shiftLeft_eq]

theorem b64_bytes {a b c : Nat} (y : b < 256) (z : c < 256) :
    (a / 4) <<< 2 ||| (a % 4 * 16 + b / 16) >>> 4 = a ∧
    ((a % 4 * 16 + b / 16) &&& 0x0F) <<< 4 ||| (b % 16 * 4 + c / 64) >>> 2 = b ∧
    ((b % 16 * 4 + c / 64) &&& 0x03) <<< 6 ||| c % 64 = c := by
  have four (n : Nat) : n &&& 0x0F = n % 16 := Nat.and_two_pow_sub_one_eq_mod n 4
  have two (n : Nat) : n &&& 0x03 = n % 4 := Nat.and_two_pow_sub_one_eq_mod n 2
  simp only [Nat.shiftRight_eq_div_pow, four, two]
  rw [shiftLeft_or (a / 4) (by omega), shiftLeft_or _ (by omega),
    shiftLeft_or ((b % 16 * 4 + c / 64) % 4) (by omega)]
  omega

def b64urlText : List UInt8 → List UInt8
  | [] => []
  | [a] => [b64Char (a.toNat / 4), b64Char (a.toNat % 4 * 16)].map b64urlChar
  | [a, b] =>
    [b64Char (a.toNat / 4), b64Char (a.toNat % 4 * 16 + b.toNat / 16),
      b64Char (b.toNat % 16 * 4)].map b64urlChar
  | a :: b :: c :: data =>
    [b64Char (a.toNat / 4), b64Char (a.toNat % 4 * 16 + b.toNat / 16),
      b64Char (b.toNat % 16 * 4 + c.toNat / 64), b64Char (c.toNat % 64)].map b64urlChar ++
      b64urlText data

theorem b64urlText_spec (data : List UInt8) :
    (∃ pad, (base64 data).map b64urlChar = b64urlText data ++ List.replicate pad 0x3D) ∧
    0x3D ∉ b64urlText data ∧ b64Groups (b64urlText data) = some data := by
  induction size : data.length using Nat.strong_induction_on generalizing data with
  | _ n ih =>
    subst size
    rcases data with _ | ⟨a, _ | ⟨b, _ | ⟨c, data⟩⟩⟩
    · exact ⟨⟨0, rfl⟩, List.not_mem_nil, rfl⟩
    · have x := a.toNat_lt
      obtain ⟨v0, n0⟩ := b64urlChar_value (a.toNat / 4) (by omega)
      obtain ⟨v1, n1⟩ := b64urlChar_value (a.toNat % 4 * 16) (by omega)
      have bytes := (b64_bytes (a := a.toNat) (b := 0) (c := 0) (by omega) (by omega)).1
      refine ⟨⟨2, rfl⟩, by simp [b64urlText, n0.symm, n1.symm], ?_⟩
      simp only [Nat.zero_div, Nat.add_zero] at bytes
      simp only [b64urlText, List.map_cons, List.map_nil, b64Groups, v0, v1, bytes,
        UInt8.ofNat_toNat]
    · have x := a.toNat_lt
      have y := b.toNat_lt
      obtain ⟨v0, n0⟩ := b64urlChar_value (a.toNat / 4) (by omega)
      obtain ⟨v1, n1⟩ := b64urlChar_value (a.toNat % 4 * 16 + b.toNat / 16) (by omega)
      obtain ⟨v2, n2⟩ := b64urlChar_value (b.toNat % 16 * 4) (by omega)
      obtain ⟨b0, b1, _⟩ := b64_bytes (a := a.toNat) (c := 0) y (by omega)
      refine ⟨⟨1, rfl⟩, by simp [b64urlText, n0.symm, n1.symm, n2.symm], ?_⟩
      simp only [Nat.zero_div, Nat.add_zero] at b1
      simp only [b64urlText, List.map_cons, List.map_nil, b64Groups, v0, v1, v2, b0, b1,
        UInt8.ofNat_toNat]
    · have x := a.toNat_lt
      have y := b.toNat_lt
      have z := c.toNat_lt
      obtain ⟨v0, n0⟩ := b64urlChar_value (a.toNat / 4) (by omega)
      obtain ⟨v1, n1⟩ := b64urlChar_value (a.toNat % 4 * 16 + b.toNat / 16) (by omega)
      obtain ⟨v2, n2⟩ := b64urlChar_value (b.toNat % 16 * 4 + c.toNat / 64) (by omega)
      obtain ⟨v3, n3⟩ := b64urlChar_value (c.toNat % 64) (by omega)
      obtain ⟨b0, b1, b2⟩ := b64_bytes (a := a.toNat) y z
      obtain ⟨⟨pad, padded⟩, plain, decoded⟩ := ih data.length (by simp; omega) data rfl
      refine ⟨⟨pad, by simp [base64, b64urlText, padded]⟩,
        by simp [b64urlText, n0.symm, n1.symm, n2.symm, n3.symm, plain], ?_⟩
      simp only [b64urlText, List.map_cons, List.map_nil, List.cons_append, List.nil_append,
        b64Groups, v0, v1, v2, v3, b0, b1, b2, decoded, UInt8.ofNat_toNat]

theorem rdropWhile_padding {text : List UInt8} (plain : 0x3D ∉ text) (pad : Nat) :
    (text ++ List.replicate pad 0x3D).rdropWhile (· = 0x3D) = text := by
  have stops : Span.Stops (fun c : UInt8 => decide (c = 0x3D)) text.reverse := by
    intro c first
    refine decide_eq_false ?_
    rintro rfl
    exact plain (List.mem_reverse.mp (List.mem_of_head? first))
  rw [List.rdropWhile, List.reverse_append, List.reverse_replicate,
    Span.dropWhile_append (fun c member => by simp [List.eq_of_mem_replicate member]) stops,
    List.reverse_reverse]

theorem b64urlDecode_noPad {data : List UInt8} (filled : data ≠ []) :
    b64urlDecode (b64urlNoPad base64 data) = some data := by
  obtain ⟨⟨pad, padded⟩, plain, decoded⟩ := b64urlText_spec data
  have again := rdropWhile_padding plain 0
  rw [List.replicate_zero, List.append_nil] at again
  have text : b64urlText data ≠ [] := by
    intro empty
    rw [empty] at decoded
    cases decoded
    exact filled rfl
  rw [b64urlNoPad, padded, rdropWhile_padding plain, b64urlDecode, again, if_neg text, decoded]

def hexAlphabet : List UInt8 := ascii "0123456789abcdefABCDEF"

theorem hexNibble_isSome (c : UInt8) : (hexNibble c).isSome = decide (c ∈ hexAlphabet) := by
  have table : hexAlphabet =
      (List.range' 48 10 ++ List.range' 97 6 ++ List.range' 65 6).map UInt8.ofNat := rfl
  rw [table]
  revert c
  decide +kernel

theorem hexDigit_pair (b : UInt8) :
    hexNibble (hexDigit (b >>> 4)) = some (b >>> 4) ∧
    hexNibble (hexDigit (b &&& 0x0F)) = some (b &&& 0x0F) ∧ (b >>> 4) <<< 4 ||| b &&& 0x0F = b := by
  revert b
  decide +kernel

theorem hexPairs_hexEncode (data : List UInt8) : hexPairs (hexEncode data) = some data := by
  induction data with
  | nil => rfl
  | cons b data ih =>
    obtain ⟨high, low, joined⟩ := hexDigit_pair b
    change hexPairs (hexDigit (b >>> 4) :: hexDigit (b &&& 0x0F) :: hexEncode data) = _
    simp only [hexPairs, high, low, ih, joined]

theorem hexEncode_length (data : List UInt8) : (hexEncode data).length = 2 * data.length := by
  simp [hexEncode, Nat.mul_comm]

theorem hexPairs_isSome (s : List UInt8) :
    (hexPairs s).isSome = true ↔ s.length % 2 = 0 ∧ ∀ c ∈ s, (hexNibble c).isSome = true := by
  induction size : s.length using Nat.strong_induction_on generalizing s with
  | _ n ih =>
    subst size
    rcases s with _ | ⟨a, _ | ⟨b, s⟩⟩
    · simp [hexPairs]
    · simp [hexPairs]
    · have later := ih s.length (by simp) s rfl
      have count : (s.length + 1 + 1) % 2 = s.length % 2 := by omega
      rcases first : hexNibble a with _ | x
      · simp [hexPairs, first]
      rcases second : hexNibble b with _ | y
      · simp [hexPairs, second]
      rcases rest : hexPairs s with _ | out
      · rw [rest] at later
        simpa [hexPairs, first, second, rest, count] using later
      · rw [rest] at later
        simpa [hexPairs, first, second, rest, count] using later

/-- Both codecs read back what they write, and each decoder takes exactly the texts of its
alphabet and lengths. -/
theorem codecs_inverse (evpEncodeBlock : List UInt8 → List UInt8)
    (standard : ∀ data, evpEncodeBlock data = base64 data) (d s : List UInt8) (outcap : Nat) :
    (d ≠ [] → b64urlDecode (b64urlNoPad evpEncodeBlock d) = some d) ∧
    ((b64urlDecode s).isSome = true ↔ s.rdropWhile (· = 0x3D) ≠ [] ∧
      (s.rdropWhile (· = 0x3D)).length % 4 ≠ 1 ∧
      ∀ c ∈ s.rdropWhile (· = 0x3D), c ∈ b64Alphabets) ∧
    (∀ out, b64urlDecode s = some out → out.length = 6 * (s.rdropWhile (· = 0x3D)).length / 8) ∧
    (d.length ≤ outcap → hexDecode (hexEncode d) outcap = some d) ∧
    ((hexDecode s outcap).isSome = true ↔
      s.length % 2 = 0 ∧ s.length / 2 ≤ outcap ∧ ∀ c ∈ s, c ∈ hexAlphabet) := by
  obtain rfl : evpEncodeBlock = base64 := funext standard
  obtain ⟨accepts, length⟩ := b64Groups_spec (s.rdropWhile (· = 0x3D))
  simp only [b64CharVal_isSome, decide_eq_true_eq] at accepts
  have pairs := hexPairs_isSome s
  simp only [hexNibble_isSome, decide_eq_true_eq] at pairs
  refine ⟨b64urlDecode_noPad, ?_, ?_, ?_, ?_⟩
  · rw [b64urlDecode]
    by_cases empty : s.rdropWhile (· = 0x3D) = []
    · simp [empty]
    · rw [if_neg empty, accepts]
      simp only [ne_eq, empty, not_false_eq_true, true_and]
  · intro out decoded
    rw [b64urlDecode] at decoded
    split_ifs at decoded
    exact length out decoded
  · intro fits
    rw [hexDecode, hexEncode_length, if_neg (by omega), if_neg (by omega), hexPairs_hexEncode]
  · rw [hexDecode]
    by_cases even : s.length % 2 = 0
    · by_cases fits : s.length / 2 ≤ outcap
      · rw [if_neg (not_not.mpr even), if_neg (Nat.not_lt.mpr fits), pairs]
        simp [even, fits]
      · rw [if_neg (not_not.mpr even), if_pos (Nat.lt_of_not_le fits)]
        simp [fits]
    · rw [if_pos even]
      simp [even]

theorem codecs_inverse_sample :
    b64urlNoPad base64 [0xFB, 0xFF] = ascii "-_8" ∧
      b64urlDecode (b64urlNoPad base64 [0xFB, 0xFF]) = some [0xFB, 0xFF] :=
  ⟨by decide +kernel, (codecs_inverse base64 (fun _ => rfl) [0xFB, 0xFF] [] 0).1 (by decide)⟩

end Iwan
