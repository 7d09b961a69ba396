import Mathlib

/- A repeating-key XOR stream, byte by byte and in 64-bit words. -/
namespace XorStream

def stream (key : List UInt8) : Nat → List UInt8 → List UInt8
  | _, [] => []
  | start, byte :: rest => (byte ^^^ key.getD (start % key.length) 0) :: stream key (start + 1) rest

variable (key : List UInt8)

@[simp] theorem stream_length (start : Nat) (data : List UInt8) :
    (stream key start data).length = data.length := by
  induction data generalizing start with
  | nil => rfl
  | cons byte rest ih => simp only [stream, List.length_cons, ih]

@[simp] theorem stream_stream (start : Nat) (data : List UInt8) :
    stream key start (stream key start data) = data := by
  induction data generalizing start with
  | nil => rfl
  | cons byte rest ih => simp only [stream, ih, UInt8.xor_assoc, UInt8.xor_self, UInt8.xor_zero]

theorem stream_append (start : Nat) (front back : List UInt8) : stream key start (front ++ back) =
      stream key start front ++ stream key (start + front.length) back := by
  induction front generalizing start with
  | nil => rfl
  | cons byte rest ih =>
    simp only [List.cons_append, stream, ih, List.length_cons]
    rw [show start + 1 + rest.length = start + (rest.length + 1) by omega]

theorem stream_start_mod (start : Nat) (data : List UInt8) :
    stream key (start % key.length) data = stream key start data := by
  induction data generalizing start with
  | nil => rfl
  | cons byte rest ih =>
    simp only [stream, Nat.mod_mod]
    rw [← ih (start % key.length + 1), ← ih (start + 1), Nat.mod_add_mod]

private theorem xor_eq_left_iff (byte mask : UInt8) : byte ^^^ mask = byte ↔ mask = 0 := by
  constructor
  · intro same
    have cancelled := congrArg (byte ^^^ ·) same
    simpa only [← UInt8.xor_assoc, UInt8.xor_self, UInt8.zero_xor] using cancelled
  · rintro rfl
    exact UInt8.xor_zero

theorem stream_eq_self_iff (start : Nat) (data : List UInt8) : stream key start data = data ↔
      ∀ index < data.length, key.getD ((start + index) % key.length) 0 = 0 := by
  induction data generalizing start with
  | nil => simp [stream]
  | cons byte rest ih =>
    simp only [stream, List.cons.injEq, ih, xor_eq_left_iff, List.length_cons]
    constructor
    · rintro ⟨first, later⟩ index inside
      cases index with
      | zero => exact first
      | succ index =>
        have tail := later index (by omega)
        rwa [show start + 1 + index = start + (index + 1) by omega] at tail
    · intro zero
      refine ⟨zero 0 (by omega), fun index inside => ?_⟩
      have tail := zero (index + 1) (by omega)
      rwa [show start + (index + 1) = start + 1 + index by omega] at tail

inductive ByteOrder where
  | little
  | big
deriving DecidableEq, Repr

def ByteOrder.arrange (order : ByteOrder) (bytes : List UInt8) : List UInt8 :=
  match order with
  | .little => bytes
  | .big => bytes.reverse

def fromLittle : List UInt8 → UInt64
  | [] => 0
  | byte :: rest => (fromLittle rest <<< 8) ||| byte.toUInt64

def toLittle : Nat → UInt64 → List UInt8
  | 0, _ => []
  | width + 1, v => v.toUInt8 :: toLittle width (v >>> 8)

def load64 (order : ByteOrder) (bytes : List UInt8) : UInt64 := fromLittle (order.arrange bytes)

def store64 (order : ByteOrder) (v : UInt64) : List UInt8 := order.arrange (toLittle 8 v)

private theorem join_xor (left right : UInt64) (x y : UInt8) :
    ((left <<< 8) ||| x.toUInt64) ^^^ ((right <<< 8) ||| y.toUInt64) =
      ((left ^^^ right) <<< 8) ||| (x ^^^ y).toUInt64 := by
  apply UInt64.eq_of_toBitVec_eq
  apply BitVec.eq_of_getLsbD_eq
  intro bit inside
  by_cases low : bit < 8
  · simp [low, inside]
  · have noX : x.toBitVec.getLsbD bit = false := BitVec.getLsbD_of_ge _ _ (by omega)
    have noY : y.toBitVec.getLsbD bit = false := BitVec.getLsbD_of_ge _ _ (by omega)
    simp [low, inside, noX, noY]

private theorem join_toNat (rest : UInt64) (byte : UInt8) (fits : rest.toNat < 2 ^ 56) :
    ((rest <<< 8) ||| byte.toUInt64).toNat = 2 ^ 8 * rest.toNat + byte.toNat := by
  have shifted : (rest <<< 8).toNat = 2 ^ 8 * rest.toNat := by
    simp [UInt64.toNat_shiftLeft, Nat.shiftLeft_eq]
    omega
  rw [UInt64.toNat_or, shifted, UInt8.toNat_toUInt64, ← Nat.two_pow_add_eq_or_of_lt byte.toNat_lt]

theorem fromLittle_xor (left right : List UInt8) (same : left.length = right.length) :
    fromLittle left ^^^ fromLittle right = fromLittle (List.zipWith (· ^^^ ·) left right) := by
  induction left generalizing right with
  | nil =>
    obtain rfl : right = [] := List.eq_nil_of_length_eq_zero same.symm
    rfl
  | cons x left ih =>
    cases right with
    | nil => cases same
    | cons y right =>
      simp only [fromLittle, List.zipWith_cons_cons, join_xor]
      rw [ih right (Nat.succ.inj same)]

private theorem fromLittle_lt (bytes : List UInt8) (short : bytes.length ≤ 8) :
    (fromLittle bytes).toNat < 2 ^ (8 * bytes.length) := by
  induction bytes with
  | nil => decide
  | cons byte rest ih =>
    simp only [List.length_cons] at short ⊢
    have below := ih (by omega)
    have room : 2 ^ (8 * rest.length) ≤ 2 ^ 56 := Nat.pow_le_pow_right (by decide) (by omega)
    have byteBound := byte.toNat_lt
    rw [fromLittle, join_toNat _ _ (by omega),
      show 8 * (rest.length + 1) = 8 * rest.length + 8 by omega,
      Nat.pow_add]
    omega

theorem toLittle_fromLittle (bytes : List UInt8) (short : bytes.length ≤ 8) :
    toLittle bytes.length (fromLittle bytes) = bytes := by
  induction bytes with
  | nil => rfl
  | cons byte rest ih =>
    simp only [List.length_cons] at short
    have below := fromLittle_lt rest (by omega)
    have room : 2 ^ (8 * rest.length) ≤ 2 ^ 56 := Nat.pow_le_pow_right (by decide) (by omega)
    have joined := join_toNat (fromLittle rest) byte (by omega)
    have byteBound := byte.toNat_lt
    have first : ((fromLittle rest <<< 8) ||| byte.toUInt64).toUInt8 = byte := by
      apply UInt8.toNat_inj.mp
      rw [UInt64.toNat_toUInt8, joined]
      omega
    have later : ((fromLittle rest <<< 8) ||| byte.toUInt64) >>> 8 = fromLittle rest := by
      apply UInt64.toNat_inj.mp
      rw [UInt64.toNat_shiftRight, joined, Nat.shiftRight_eq_div_pow]
      simp only [UInt64.reduceToNat, Nat.reduceMod]
      omega
    rw [List.length_cons, fromLittle, toLittle, first, later, ih (by omega)]

private theorem arrange_zipWith (order : ByteOrder) (left right : List UInt8)
    (same : left.length = right.length) :
    order.arrange (List.zipWith (· ^^^ ·) (order.arrange left) (order.arrange right)) =
      List.zipWith (· ^^^ ·) left right := by
  cases order with
  | little => rfl
  | big =>
    simp only [ByteOrder.arrange]
    rw [← List.reverse_zipWith same, List.reverse_reverse]

@[simp] theorem arrange_length (order : ByteOrder) (bytes : List UInt8) :
    (order.arrange bytes).length = bytes.length := by
  cases order <;> simp [ByteOrder.arrange]

theorem store64_xor_load64 (order : ByteOrder) (left right : List UInt8)
    (wide : left.length = 8) (wide' : right.length = 8) :
    store64 order (load64 order left ^^^ load64 order right) =
      List.zipWith (· ^^^ ·) left right := by
  have same : (order.arrange left).length = (order.arrange right).length := by
    simp only [arrange_length, wide, wide']
  have width : (List.zipWith (· ^^^ ·) (order.arrange left) (order.arrange right)).length = 8 := by
    simp only [List.length_zipWith, arrange_length, wide, wide', Nat.min_self]
  have back := toLittle_fromLittle (List.zipWith (· ^^^ ·) (order.arrange left)
    (order.arrange right)) (by omega)
  rw [width] at back
  rw [store64, load64, load64, fromLittle_xor _ _ same, back,
    arrange_zipWith order left right (by omega)]

def xorWords (order : ByteOrder) (key64 : UInt64) : Nat → List UInt8 → List UInt8
  | 0, data => data
  | words + 1, data =>
    store64 order (load64 order (data.take 8) ^^^ key64) ++
      xorWords order key64 words (data.drop 8)

/-- The same words by their byte offset, each moved out of the buffer and back into it. -/
def xorMoves (order : ByteOrder) (key64 : UInt64) : Nat → Nat → List UInt8 → List UInt8
  | 0, _, data => data
  | words + 1, i, data =>
    let v := load64 order ((data.drop i).take 8) ^^^ key64
    xorMoves order key64 words (i + 8) (data.take i ++ store64 order v ++ data.drop (i + 8))

theorem store64_length (order : ByteOrder) (v : UInt64) : (store64 order v).length = 8 := by
  rw [store64, arrange_length]
  rfl

theorem xorMoves_append (order : ByteOrder) (key64 : UInt64) (words : Nat)
    (front back : List UInt8) :
    xorMoves order key64 words front.length (front ++ back) =
      front ++ xorWords order key64 words back := by
  induction words generalizing front back with
  | zero => rfl
  | succ words ih =>
    have moved := ih (front ++ store64 order (load64 order (back.take 8) ^^^ key64)) (back.drop 8)
    rw [List.length_append, store64_length] at moved
    have behind : (front ++ back).drop (front.length + 8) = back.drop 8 := by
      rw [← List.drop_drop, List.drop_left]
    rw [xorMoves, List.drop_left, List.take_left, behind, xorWords, ← List.append_assoc]
    exact moved

private theorem stream_block (block : List UInt8) (start : Nat) (wide : key.length = 8)
    (aligned : start % 8 = 0) (short : block.length ≤ 8) :
    stream key start block = List.zipWith (· ^^^ ·) block key := by
  rw [← stream_start_mod, wide, aligned]
  have step : ∀ (block : List UInt8) (start : Nat), start + block.length ≤ 8 →
      stream key start block = List.zipWith (· ^^^ ·) block (key.drop start) := by
    intro block
    induction block with
    | nil => intro start _; rfl
    | cons byte rest ih =>
      intro start inside
      simp only [List.length_cons] at inside
      have reach : start < key.length := by omega
      rw [stream, ih (start + 1) (by omega), List.drop_eq_getElem_cons reach,
        List.zipWith_cons_cons, Nat.mod_eq_of_lt reach, List.getD_eq_getElem _ _ reach]
  simpa only [List.drop_zero] using step block 0 (by omega)

theorem xorWords_eq_stream (order : ByteOrder) (key : List UInt8) (wide : key.length = 8)
    (words : Nat) (data : List UInt8) (start : Nat) (aligned : start % 8 = 0)
    (enough : data.length = 8 * words) :
    xorWords order (load64 order key) words data = stream key start data := by
  induction words generalizing data start with
  | zero =>
    obtain rfl : data = [] := List.eq_nil_of_length_eq_zero enough
    rfl
  | succ words ih =>
    have front : (data.take 8).length = 8 := by rw [List.length_take]; omega
    have back : (data.drop 8).length = 8 * words := by rw [List.length_drop]; omega
    rw [xorWords, store64_xor_load64 order _ _ front wide,
      ih (data.drop 8) (start + 8) (by omega) back,
      ← stream_block key (data.take 8) start wide aligned (by omega)]
    conv_rhs => rw [← List.take_append_drop 8 data, stream_append, front]

end XorStream
