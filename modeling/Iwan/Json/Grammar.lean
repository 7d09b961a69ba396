import Iwan.Json.Parse

/- The grammar of JSON texts over bytes, and the two scanners. -/
namespace Iwan

def rfcSpace (c : UInt8) : Bool := c = 0x20 || c = 0x09 || c = 0x0A || c = 0x0D

def Blank (ws : UInt8 → Bool) (w : List UInt8) : Prop := ∀ c ∈ w, ws c = true

theorem Blank.append {ws : UInt8 → Bool} {w w' : List UInt8} (left : Blank ws w)
    (right : Blank ws w') : Blank ws (w ++ w') := by
  intro c member
  rcases List.mem_append.mp member with inside | inside
  · exact left c inside
  · exact right c inside

/-- A character of a string: a byte, or a code unit spelled with u. -/
inductive JsonChar where
  | byte (c : UInt8)
  | unit (u : Nat)
  deriving DecidableEq

def rfcEscapes : List (UInt8 × UInt8) :=
  [(0x22, 0x22), (0x5C, 0x5C), (0x2F, 0x2F), (0x62, 0x08), (0x66, 0x0C), (0x6E, 0x0A),
    (0x72, 0x0D), (0x74, 0x09)]

/-- The characters between the quotes, as RFC 8259 spells them. -/
inductive JsonChars : List UInt8 → List JsonChar → Prop where
  | nil : JsonChars [] []
  | raw {c : UInt8} {t : List UInt8} {chars : List JsonChar} (printable : 0x20 ≤ c)
      (quote : c ≠ 0x22) (backslash : c ≠ 0x5C) (rest : JsonChars t chars) :
      JsonChars (c :: t) (.byte c :: chars)
  | escaped {e c : UInt8} {t : List UInt8} {chars : List JsonChar} (named : (e, c) ∈ rfcEscapes)
      (rest : JsonChars t chars) : JsonChars (0x5C :: e :: t) (.byte c :: chars)
  | unicode {a b c d : UInt8} {u : Nat} {t : List UInt8} {chars : List JsonChar}
      (digits : hexValue a b c d = some u) (rest : JsonChars t chars) :
      JsonChars (0x5C :: 0x75 :: a :: b :: c :: d :: t) (.unit u :: chars)

def JsonString (t : List UInt8) (chars : List JsonChar) : Prop :=
  ∃ inner, t = 0x22 :: (inner ++ [0x22]) ∧ JsonChars inner chars

def utf8Text (cp : Nat) : List UInt8 := String.utf8EncodeChar (Char.ofNat cp)

def unitText (u : Nat) : List UInt8 :=
  if highSurrogate u ∨ lowSurrogate u then ascii "?" else utf8Text u

def decodeChars : List JsonChar → List UInt8
  | [] => []
  | .byte c :: chars => c :: decodeChars chars
  | .unit hi :: .unit lo :: chars =>
    if highSurrogate hi ∧ lowSurrogate lo then
      utf8Text (surrogatePair hi lo) ++ decodeChars chars
    else unitText hi ++ decodeChars (.unit lo :: chars)
  | .unit u :: chars => unitText u ++ decodeChars chars

def PairedWith (u : Nat) (chars : List JsonChar) : Prop :=
  highSurrogate u = true ∧ ∃ lo chars', chars = .unit lo :: chars' ∧ lowSurrogate lo = true

theorem decodeChars_pair {hi lo : Nat} (chars : List JsonChar) (high : highSurrogate hi = true)
    (low : lowSurrogate lo = true) :
    decodeChars (.unit hi :: .unit lo :: chars) =
      utf8Text (surrogatePair hi lo) ++ decodeChars chars := by
  rw [decodeChars, if_pos ⟨high, low⟩]

theorem decodeChars_unit {u : Nat} {chars : List JsonChar} (alone : ¬ PairedWith u chars) :
    decodeChars (.unit u :: chars) = unitText u ++ decodeChars chars := by
  cases chars with
  | nil => simp [decodeChars]
  | cons char chars =>
    cases char with
    | byte c => simp [decodeChars]
    | unit lo =>
      rw [decodeChars, if_neg]
      intro pair
      exact alone ⟨pair.1, lo, chars, rfl, pair.2⟩

section

private theorem or_lowBits {x : Nat} (i base : Nat) (small : x < 2 ^ i) :
    2 ^ i * base ||| x = x + 2 ^ i * base := by
  rw [← Nat.two_pow_add_eq_or_of_lt small, Nat.add_comm]

theorem utf8Encode_valid {cp : Nat} (valid : cp.isValidChar) : utf8Encode cp = utf8Text cp := by
  have val : (Char.ofNat cp).val.toNat = cp := by
    rw [Char.ofNat, dif_pos valid]
    rfl
  have top : cp < 0x110000 := by
    rcases valid with low | ⟨_, high⟩
    · omega
    · exact high
  have plain : ¬ (0xD800 ≤ cp ∧ cp ≤ 0xDFFF) := by
    rcases valid with low | ⟨high, _⟩ <;> omega
  have six (x : Nat) : x &&& 0x3F = x % 64 := Nat.and_two_pow_sub_one_eq_mod x 6
  have tail (x : Nat) : 0x80 ||| x &&& 0x3F = x % 64 + 0x80 := by
    rw [six]
    exact or_lowBits 6 2 (Nat.mod_lt _ (by decide))
  unfold utf8Encode utf8Text String.utf8EncodeChar
  simp only [val, tail, if_neg plain, Nat.shiftRight_eq_div_pow]
  by_cases one : cp < 0x80
  · rw [if_pos one, if_pos (by omega)]
  · by_cases two : cp < 0x800
    · have lead : 0xC0 ||| cp / 2 ^ 6 = cp / 64 % 0x20 + 0xC0 := by
        rw [Nat.mod_eq_of_lt (by omega)]
        exact or_lowBits 6 3 (by omega)
      rw [if_neg one, if_pos two, if_neg (by omega), if_pos (by omega), lead]
    · by_cases three : cp < 0x10000
      · have lead : 0xE0 ||| cp / 2 ^ 12 = cp / 4096 % 0x10 + 0xE0 := by
          rw [Nat.mod_eq_of_lt (by omega)]
          exact or_lowBits 4 14 (by omega)
        rw [if_neg one, if_neg two, if_pos three, if_neg (by omega), if_neg (by omega),
          if_pos (by omega), lead]
      · have lead : 0xF0 ||| cp / 2 ^ 18 = cp / 262144 % 0x08 + 0xF0 := by
          rw [Nat.mod_eq_of_lt (by omega)]
          exact or_lowBits 3 30 (by omega)
        rw [if_neg one, if_neg two, if_neg three, if_neg (by omega), if_neg (by omega),
          if_neg (by omega), lead]

theorem utf8Encode_unit {u : Nat} (small : u < 0x10000) : utf8Encode u = unitText u := by
  unfold unitText
  split
  · rename_i surrogate
    have range : 0xD800 ≤ u ∧ u ≤ 0xDFFF := by
      simp only [highSurrogate, lowSurrogate, Bool.and_eq_true, decide_eq_true_eq] at surrogate
      omega
    rw [utf8Encode, if_neg (by omega), if_neg (by omega), if_pos small, if_pos range]
  · rename_i plain
    apply utf8Encode_valid
    simp only [highSurrogate, lowSurrogate, Bool.and_eq_true, decide_eq_true_eq] at plain
    unfold Nat.isValidChar
    omega

theorem utf8Encode_pair {hi lo : Nat} (high : highSurrogate hi = true)
    (low : lowSurrogate lo = true) :
    utf8Encode (surrogatePair hi lo) = utf8Text (surrogatePair hi lo) := by
  apply utf8Encode_valid
  simp only [highSurrogate, lowSurrogate, Bool.and_eq_true, decide_eq_true_eq] at high low
  unfold Nat.isValidChar surrogatePair
  omega

end

section

variable {c : UInt8}

theorem jsonUnescape_iff {e : UInt8} : jsonUnescape e = some c ↔ (e, c) ∈ rfcEscapes := by
  constructor
  · intro named
    unfold jsonUnescape at named
    unfold rfcEscapes
    split_ifs at named <;> simp_all
  · intro member
    simp only [rfcEscapes, List.mem_cons, Prod.mk.injEq, List.not_mem_nil, or_false] at member
    rcases member with ⟨rfl, rfl⟩ | ⟨rfl, rfl⟩ | ⟨rfl, rfl⟩ | ⟨rfl, rfl⟩ | ⟨rfl, rfl⟩ |
      ⟨rfl, rfl⟩ | ⟨rfl, rfl⟩ | ⟨rfl, rfl⟩ <;> rfl

theorem rfcEscapes_u (c : UInt8) : (0x75, c) ∉ rfcEscapes := by
  intro member
  have named := jsonUnescape_iff.mpr member
  cases named

theorem hexNibble_lt {n : UInt8} (digit : hexNibble c = some n) : n.toNat < 16 := by
  have all : ∀ c : UInt8, (hexNibble c).all (·.toNat < 16) = true := by decide +kernel
  have small := all c
  rw [digit] at small
  exact of_decide_eq_true small

variable {a b d : UInt8} {u : Nat}

theorem hexValue_lt (digits : hexValue a b c d = some u) : u < 0x10000 := by
  unfold hexValue at digits
  split at digits
  · rename_i first second third fourth
    have := hexNibble_lt first
    have := hexNibble_lt second
    have := hexNibble_lt third
    have := hexNibble_lt fourth
    cases digits
    omega
  · cases digits

variable {s : List UInt8}

theorem hex4_ok {v : Nat} (read : hex4 s = .ok v) :
    ∃ a b c d rest, s = a :: b :: c :: d :: rest ∧ hexValue a b c d = some v := by
  unfold hex4 at read
  split at read
  · rename_i a b c d rest
    cases value : hexValue a b c d with
    | none =>
      rw [value] at read
      cases read
    | some w =>
      rw [value] at read
      cases read
      exact ⟨a, b, c, d, rest, rfl, value⟩
  · cases read

theorem hex4_of_value {v : Nat} (rest : List UInt8)
    (value : hexValue a b c d = some v) : hex4 (a :: b :: c :: d :: rest) = .ok v := by
  rw [hex4, value]

def PairAhead (u lo : Nat) (r r' : List UInt8) : Prop :=
  highSurrogate u = true ∧ lowSurrogate lo = true ∧
    ∃ a b c d, r = 0x5C :: 0x75 :: a :: b :: c :: d :: r' ∧ hexValue a b c d = some lo

variable {r : List UInt8}

theorem parseUnicode_ok {enc : List UInt8} {used : Nat}
    (read : parseUnicode (0x5C :: 0x75 :: r) = .ok (enc, used)) :
    ∃ a b c d u r', r = a :: b :: c :: d :: r' ∧ hexValue a b c d = some u ∧ u ≠ 0 ∧
      ((∃ lo r'', PairAhead u lo r' r'' ∧ enc = utf8Encode (surrogatePair u lo) ∧ used = 12) ∨
        (∀ lo r'', ¬ PairAhead u lo r' r'') ∧ enc = utf8Encode u ∧ used = 6) := by
  unfold parseUnicode at read
  simp only [List.drop_succ_cons, List.drop_zero] at read
  cases value : hex4 r with
  | ok u =>
    rw [value] at read
    dsimp only at read
    obtain ⟨a, b, c, d, r', rfl, digits⟩ := hex4_ok value
    refine ⟨a, b, c, d, u, r', rfl, digits, ?_⟩
    by_cases zero : u = 0
    · rw [if_pos zero] at read
      cases read
    · rw [if_neg zero] at read
      refine ⟨zero, ?_⟩
      have alone (bare : ∀ lo r'', ¬ PairAhead u lo r' r'')
          (same : (Except.ok (utf8Encode u, 6) : Except JsonFail (List UInt8 × Nat)) =
            .ok (enc, used)) :
          (∀ lo r'', ¬ PairAhead u lo r' r'') ∧ enc = utf8Encode u ∧ used = 6 := by
        cases same
        exact ⟨bare, rfl, rfl⟩
      simp only [List.drop_succ_cons, List.drop_zero] at read
      by_cases ahead : highSurrogate u = true ∧ r'.take 2 = [0x5C, 0x75]
      · rw [if_pos ahead] at read
        cases second : hex4 (r'.drop 2) with
        | eof => rw [second] at read; cases read
        | bad =>
          rw [second] at read
          refine .inr (alone ?_ read)
          rintro lo r'' ⟨_, _, a', b', c', d', rfl, digits'⟩
          change hex4 (a' :: b' :: c' :: d' :: r'') = _ at second
          rw [hex4_of_value r'' digits'] at second
          cases second
        | ok lo =>
          rw [second] at read
          dsimp only at read
          by_cases low : lowSurrogate lo = true
          · rw [if_pos low] at read
            obtain ⟨rfl, rfl⟩ := Prod.mk.inj (Except.ok.inj read)
            obtain ⟨a', b', c', d', r'', shape, digits'⟩ := hex4_ok second
            refine .inl ⟨lo, r'', ⟨ahead.1, low, a', b', c', d', ?_, digits'⟩, rfl, rfl⟩
            rw [← List.take_append_drop 2 r', ahead.2, shape]
            rfl
          · rw [if_neg low] at read
            refine .inr (alone ?_ read)
            rintro lo' r'' ⟨_, low', a', b', c', d', rfl, digits'⟩
            change hex4 (a' :: b' :: c' :: d' :: r'') = _ at second
            rw [hex4_of_value r'' digits'] at second
            cases second
            exact low low'
      · rw [if_neg ahead] at read
        refine .inr (alone ?_ read)
        rintro lo r'' ⟨high, _, a', b', c', d', rfl, _⟩
        exact ahead ⟨high, rfl⟩
  | _ => rw [value] at read; cases read

theorem parseUnicode_pair {lo : Nat} {r' : List UInt8}
    (digits : hexValue a b c d = some u) (nonzero : u ≠ 0) (pair : PairAhead u lo r r') :
    parseUnicode (0x5C :: 0x75 :: a :: b :: c :: d :: r) =
      .ok (utf8Encode (surrogatePair u lo), 12) := by
  obtain ⟨high, low, a', b', c', d', rfl, digits'⟩ := pair
  have first : hex4 ((0x5C :: 0x75 :: a :: b :: c :: d :: 0x5C :: 0x75 :: a' :: b' :: c' :: d' ::
      r').drop 2) = .ok u := hex4_of_value _ digits
  have second : hex4 ((0x5C :: 0x75 :: a :: b :: c :: d :: 0x5C :: 0x75 :: a' :: b' :: c' :: d' ::
      r').drop 8) = .ok lo := hex4_of_value _ digits'
  rw [parseUnicode, first]
  dsimp only
  rw [if_neg nonzero, if_pos ⟨high, rfl⟩, second]
  dsimp only
  rw [if_pos low]

theorem parseUnicode_alone (digits : hexValue a b c d = some u) (nonzero : u ≠ 0)
    (alone : ∀ lo r', ¬ PairAhead u lo r r')
    (window : ∀ s, r = 0x5C :: 0x75 :: s → 4 ≤ s.length) :
    parseUnicode (0x5C :: 0x75 :: a :: b :: c :: d :: r) = .ok (utf8Encode u, 6) := by
  have first : hex4 ((0x5C :: 0x75 :: a :: b :: c :: d :: r).drop 2) = .ok u :=
    hex4_of_value _ digits
  rw [parseUnicode, first]
  dsimp only
  rw [if_neg nonzero]
  simp only [List.drop_succ_cons, List.drop_zero]
  by_cases ahead : highSurrogate u = true ∧ r.take 2 = [0x5C, 0x75]
  · have shape : r = 0x5C :: 0x75 :: r.drop 2 := by
      rw [← List.take_append_drop 2 r, ahead.2]
      rfl
    have long := window _ shape
    rw [if_pos ahead]
    cases second : hex4 (r.drop 2) with
    | eof =>
      exfalso
      revert second long
      rcases r.drop 2 with _ | ⟨a', _ | ⟨b', _ | ⟨c', _ | ⟨d', r'⟩⟩⟩⟩
      · intro long _; cases long
      · intro long _; simp at long
      · intro long _; simp at long
      · intro long _; simp at long
      · intro _ second
        cases value : hexValue a' b' c' d' with
        | none => simp [hex4, value] at second
        | some v => simp [hex4, value] at second
    | bad => rfl
    | ok lo =>
      dsimp only
      rw [if_neg]
      intro low
      obtain ⟨a', b', c', d', r', shape', digits'⟩ := hex4_ok second
      refine alone lo r' ⟨ahead.1, low, a', b', c', d', ?_, digits'⟩
      rw [shape, shape']
  · rw [if_neg ahead]

variable {t : List UInt8} {chars : List JsonChar} {rest : List UInt8}

theorem JsonChars.unicode_inv
    (read : JsonChars t chars) (shape : t ++ 0x22 :: rest = 0x5C :: 0x75 :: s) :
    ∃ a b c d u t' chars', s = a :: b :: c :: d :: (t' ++ 0x22 :: rest) ∧
      chars = .unit u :: chars' ∧ hexValue a b c d = some u := by
  cases read with
  | nil => cases shape
  | raw printable quote backslash read =>
    exact absurd (List.cons.inj shape).1 backslash
  | escaped named read =>
    obtain ⟨same, _⟩ := List.cons.inj (List.cons.inj shape).2
    rw [same] at named
    exact absurd named (rfcEscapes_u _)
  | unicode digits read =>
    cases shape
    exact ⟨_, _, _, _, _, _, _, rfl, rfl, digits⟩

theorem JsonChars.paired_iff (rest : List UInt8) (read : JsonChars t chars) :
    PairedWith u chars ↔ ∃ lo r, PairAhead u lo (t ++ 0x22 :: rest) r := by
  constructor
  · rintro ⟨high, lo, chars', rfl, low⟩
    cases read with
    | unicode digits read => exact ⟨lo, _, high, low, _, _, _, _, rfl, digits⟩
  · rintro ⟨lo, r, high, low, a, b, c, d, shape, digits⟩
    obtain ⟨a', b', c', d', u', t', chars', shape', rfl, digits'⟩ := read.unicode_inv shape
    cases shape'
    rw [digits] at digits'
    cases digits'
    exact ⟨high, lo, chars', rfl, low⟩

theorem parseStringLoop_sound (fuel : Nat) {b out : List UInt8}
    (read : parseStringLoop fuel s b = .ok (out, rest)) :
    ∃ t chars, s = t ++ 0x22 :: rest ∧ JsonChars t chars ∧ JsonChar.unit 0 ∉ chars ∧
      out = b ++ decodeChars chars := by
  induction fuel generalizing s b with
  | zero => cases read
  | succ fuel ih =>
    unfold parseStringLoop at read
    cases s with
    | nil => cases read
    | cons c s =>
      dsimp only at read
      by_cases quote : c = 0x22
      · rw [if_pos quote] at read
        cases read
        exact ⟨[], [], by rw [quote]; rfl, .nil, List.not_mem_nil,
          (List.append_nil _).symm⟩
      rw [if_neg quote] at read
      by_cases backslash : c = 0x5C
      · subst backslash
        rw [if_pos rfl] at read
        cases s with
        | nil => cases read
        | cons e s =>
          dsimp only at read
          by_cases unicode : e = 0x75
          · subst unicode
            rw [if_pos rfl] at read
            cases step : parseUnicode (0x5C :: 0x75 :: s) with
            | error failed => rw [step] at read; cases read
            | ok taken =>
              obtain ⟨enc, used⟩ := taken
              rw [step] at read
              dsimp only at read
              obtain ⟨a, b', c, d, u, r', rfl, digits, nonzero, taken⟩ :=
                parseUnicode_ok step
              rcases taken with ⟨lo, r'', pair, written, length⟩ | ⟨alone, rfl, rfl⟩
              · obtain ⟨high, low, a', b'', c', d', rfl, digits'⟩ := pair
                rw [length] at read
                obtain ⟨t, chars, shape, text, zero, rfl⟩ := ih read
                change r'' = _ at shape
                refine ⟨_, _, ?_, .unicode digits (.unicode digits' text), ?_, ?_⟩
                · rw [shape]; rfl
                · intro member
                  rcases List.mem_cons.mp member with same | member
                  · cases same
                    exact nonzero rfl
                  · rcases List.mem_cons.mp member with same | member
                    · cases same
                      exact absurd low (by decide)
                    · exact zero member
                · rw [decodeChars_pair chars high low, written, utf8Encode_pair high low,
                    List.append_assoc]
              · obtain ⟨t, chars, shape, text, zero, rfl⟩ := ih read
                change r' = _ at shape
                subst shape
                have single : ¬ PairedWith u chars := by
                  intro paired
                  obtain ⟨lo, r, ahead⟩ := (text.paired_iff rest).mp paired
                  exact alone lo r ahead
                refine ⟨_, _, rfl, .unicode digits text, ?_, ?_⟩
                · intro member
                  rcases List.mem_cons.mp member with same | member
                  · cases same
                    exact nonzero rfl
                  · exact zero member
                · rw [decodeChars_unit single, utf8Encode_unit (hexValue_lt digits),
                    List.append_assoc]
          · rw [if_neg unicode] at read
            cases named : jsonUnescape e with
            | none => rw [named] at read; cases read
            | some plain =>
              rw [named] at read
              obtain ⟨t, chars, rfl, text, zero, rfl⟩ := ih read
              refine ⟨_, _, rfl, .escaped (jsonUnescape_iff.mp named) text, ?_, ?_⟩
              · intro member
                rcases List.mem_cons.mp member with same | member
                · cases same
                · exact zero member
              · rw [decodeChars, List.append_assoc]
                rfl
      · rw [if_neg backslash] at read
        by_cases control : c < 0x20
        · rw [if_pos control] at read
          cases read
        · rw [if_neg control] at read
          obtain ⟨t, chars, rfl, text, zero, rfl⟩ := ih read
          refine ⟨_, _, rfl, .raw (UInt8.not_lt.mp control) quote backslash text, ?_, ?_⟩
          · intro member
            rcases List.mem_cons.mp member with same | member
            · cases same
            · exact zero member
          · rw [decodeChars, List.append_assoc]
            rfl

theorem parseStringLoop_complete (fuel : Nat)
    (b rest : List UInt8) (text : JsonChars t chars) (zero : JsonChar.unit 0 ∉ chars)
    (enough : t.length < fuel) :
    parseStringLoop fuel (t ++ 0x22 :: rest) b = .ok (b ++ decodeChars chars, rest) := by
  induction fuel generalizing t chars b with
  | zero => cases enough
  | succ fuel ih =>
    cases text with
    | nil =>
      rw [decodeChars, List.append_nil]
      rfl
    | @raw c t chars printable quote backslash text =>
      have later := ih (b ++ [c]) text (fun member => zero (List.mem_cons_of_mem _ member))
        (Nat.lt_of_succ_lt_succ enough)
      rw [List.cons_append]
      unfold parseStringLoop
      dsimp only
      rw [if_neg quote, if_neg backslash, if_neg (UInt8.not_lt.mpr printable), later,
        decodeChars, List.append_assoc]
      rfl
    | @escaped e c t chars named text =>
      have later := ih (b ++ [c]) text (fun member => zero (List.mem_cons_of_mem _ member))
        (by change t.length + 2 < fuel + 1 at enough; omega)
      have plain : e ≠ 0x75 := by
        rintro rfl
        exact absurd named (rfcEscapes_u _)
      rw [List.cons_append, List.cons_append]
      unfold parseStringLoop
      dsimp only
      rw [if_neg (by decide), if_pos rfl, if_neg plain, jsonUnescape_iff.mpr named]
      dsimp only
      rw [later, decodeChars, List.append_assoc]
      rfl
    | @unicode a b' c d u t chars digits text =>
      have nonzero : u ≠ 0 := by
        rintro rfl
        exact zero List.mem_cons_self
      change parseStringLoop (fuel + 1)
        (0x5C :: 0x75 :: a :: b' :: c :: d :: (t ++ 0x22 :: rest)) b = _
      unfold parseStringLoop
      dsimp only
      rw [if_neg (by decide), if_pos rfl, if_pos rfl]
      change t.length + 6 < fuel + 1 at enough
      by_cases paired : PairedWith u chars
      · obtain ⟨high, lo, chars, rfl, low⟩ := paired
        cases text with
        | @unicode a' b'' c' d' lo t chars digits' text =>
          have pair : PairAhead u lo
              (0x5C :: 0x75 :: a' :: b'' :: c' :: d' :: t ++ 0x22 :: rest)
              (t ++ 0x22 :: rest) := ⟨high, low, a', b'', c', d', rfl, digits'⟩
          change t.length + 6 + 6 < fuel + 1 at enough
          rw [parseUnicode_pair digits nonzero pair, decodeChars_pair chars high low]
          dsimp only
          have later := ih (b ++ utf8Encode (surrogatePair u lo)) text
            (fun member => zero (List.mem_cons_of_mem _ (List.mem_cons_of_mem _ member)))
            (by omega)
          rw [← utf8Encode_pair high low, ← List.append_assoc]
          exact later
      · have alone : ∀ lo r, ¬ PairAhead u lo (t ++ 0x22 :: rest) r :=
          fun lo r ahead => paired ((text.paired_iff rest).mpr ⟨lo, r, ahead⟩)
        have window : ∀ s, t ++ 0x22 :: rest = 0x5C :: 0x75 :: s → 4 ≤ s.length := by
          intro s shape
          obtain ⟨_, _, _, _, _, _, _, rfl, _, _⟩ := text.unicode_inv shape
          simp only [List.length_cons]
          omega
        rw [parseUnicode_alone digits nonzero alone window, decodeChars_unit paired]
        dsimp only
        have later := ih (b ++ utf8Encode u) text
          (fun member => zero (List.mem_cons_of_mem _ member)) (by omega)
        rw [← utf8Encode_unit (hexValue_lt digits), ← List.append_assoc]
        exact later

theorem parseString_sound {out : List UInt8} (opened : s.head? = some 0x22)
    (read : parseString s = .ok (out, rest)) :
    ∃ t chars, s = t ++ rest ∧ JsonString t chars ∧ JsonChar.unit 0 ∉ chars ∧
      out = decodeChars chars := by
  cases s with
  | nil => cases opened
  | cons c s =>
    cases opened
    obtain ⟨t, chars, shape, text, zero, rfl⟩ := parseStringLoop_sound _ read
    change s = _ at shape
    refine ⟨0x22 :: (t ++ [0x22]), chars, ?_, ⟨t, rfl, text⟩, zero, List.nil_append _⟩
    rw [shape]
    simp

theorem parseString_complete (rest : List UInt8)
    (text : JsonString t chars) (zero : JsonChar.unit 0 ∉ chars) :
    parseString (t ++ rest) = .ok (decodeChars chars, rest) := by
  obtain ⟨inner, rfl, text⟩ := text
  have shape : 0x22 :: (inner ++ [0x22]) ++ rest = 0x22 :: (inner ++ 0x22 :: rest) := by simp
  rw [shape, parseString, List.drop_one, List.tail_cons,
    parseStringLoop_complete _ [] rest text zero (by simp), List.nil_append]

end

section

def JsonDigits (t : List UInt8) : Prop := t ≠ [] ∧ ∀ c ∈ t, jsonDigit c = true

def JsonInt (t : List UInt8) : Prop := t = [0x30] ∨ JsonDigits t ∧ t.head? ≠ some 0x30

def JsonFrac (t : List UInt8) : Prop := t = [] ∨ ∃ ds, t = 0x2E :: ds ∧ JsonDigits ds

def JsonExp (t : List UInt8) : Prop :=
  t = [] ∨ ∃ e sign ds, t = e :: (sign ++ ds) ∧ (e = 0x65 ∨ e = 0x45) ∧
    (sign = [] ∨ sign = [0x2B] ∨ sign = [0x2D]) ∧ JsonDigits ds

def JsonNumber (t : List UInt8) : Prop :=
  ∃ minus int frac exp, t = minus ++ (int ++ (frac ++ exp)) ∧ (minus = [] ∨ minus = [0x2D]) ∧
    JsonInt int ∧ JsonFrac frac ∧ JsonExp exp

def NumberStop (rest : List UInt8) : Prop :=
  ∀ c ∈ rest.head?, jsonDigit c = false ∧ c ≠ 0x2E ∧ jsonExpMark c = false

theorem dropWhile_of_head {p : UInt8 → Bool} {l : List UInt8}
    (stop : ∀ c ∈ l.head?, p c = false) : l.dropWhile p = l := by
  cases l with
  | nil => rfl
  | cons c l => rw [List.dropWhile_cons_of_neg (by rw [stop c rfl]; exact Bool.false_ne_true)]

variable {t : List UInt8}

theorem JsonDigits.head (digits : JsonDigits t) : ∃ c u, t = c :: u ∧ jsonDigit c = true := by
  cases t with
  | nil => exact absurd rfl digits.1
  | cons c u => exact ⟨c, u, rfl, digits.2 c List.mem_cons_self⟩

variable {rest : List UInt8}

theorem JsonDigits.dropWhile (digits : JsonDigits t)
    (stop : ∀ c ∈ rest.head?, jsonDigit c = false) : (t ++ rest).dropWhile jsonDigit = rest := by
  rw [List.dropWhile_append_of_pos digits.2, dropWhile_of_head stop]

variable {c : UInt8}

theorem jsonDigits_takeWhile (s : List UInt8) (digit : jsonDigit c = true) :
    JsonDigits ((c :: s).takeWhile jsonDigit) := by
  refine ⟨?_, fun d member => List.mem_takeWhile_imp member⟩
  rw [List.takeWhile_cons_of_pos digit]
  exact List.cons_ne_nil _ _

variable {s : List UInt8}

theorem numberDigits_sound (read : numberDigits s = .ok rest) :
    ∃ ds, s = ds ++ rest ∧ JsonDigits ds := by
  unfold numberDigits at read
  cases s with
  | nil => cases read
  | cons c s =>
    dsimp only at read
    by_cases digit : jsonDigit c = true
    · rw [if_pos digit] at read
      cases read
      exact ⟨_, List.takeWhile_append_dropWhile.symm, jsonDigits_takeWhile s digit⟩
    · rw [if_neg digit] at read
      cases read

theorem numberDigits_complete {ds : List UInt8} (digits : JsonDigits ds)
    (stop : ∀ c ∈ rest.head?, jsonDigit c = false) : numberDigits (ds ++ rest) = .ok rest := by
  obtain ⟨c, u, rfl, digit⟩ := digits.head
  change (if jsonDigit c = true then
    (Except.ok (((c :: u) ++ rest).dropWhile jsonDigit) : Except JsonFail (List UInt8))
    else _) = _
  rw [if_pos digit, digits.dropWhile stop]

theorem numberSign_sound (start : c = 0x2D ∨ jsonDigit c = true)
    (read : numberSign (c :: s) = .ok rest) :
    ∃ minus, c :: s = minus ++ rest ∧ (minus = [] ∨ minus = [0x2D]) ∧
      ∃ d r, rest = d :: r ∧ jsonDigit d = true := by
  unfold numberSign at read
  dsimp only at read
  by_cases minus : c = 0x2D
  · rw [if_pos minus] at read
    cases s with
    | nil => cases read
    | cons d s =>
      dsimp only at read
      by_cases digit : jsonDigit d = true
      · rw [if_pos digit] at read
        cases read
        exact ⟨[0x2D], by rw [minus]; rfl, Or.inr rfl, d, s, rfl, digit⟩
      · rw [if_neg digit] at read
        cases read
  · rw [if_neg minus] at read
    cases read
    exact ⟨[], rfl, Or.inl rfl, c, s, rfl, start.resolve_left minus⟩

theorem numberInt_sound {d : UInt8} (digit : jsonDigit d = true)
    (read : numberInt (d :: s) = .ok rest) : ∃ int, d :: s = int ++ rest ∧ JsonInt int := by
  unfold numberInt at read
  dsimp only at read
  by_cases zero : d = 0x30
  · rw [if_pos zero] at read
    split at read
    · cases read
    · cases read
      exact ⟨[0x30], by rw [zero]; rfl, Or.inl rfl⟩
  · rw [if_neg zero] at read
    cases read
    refine ⟨_, List.takeWhile_append_dropWhile.symm,
      Or.inr ⟨jsonDigits_takeWhile s digit, ?_⟩⟩
    rw [List.takeWhile_cons_of_pos digit]
    exact fun same => zero (Option.some.inj same)

theorem numberFrac_sound (read : numberFrac s = .ok rest) :
    ∃ frac, s = frac ++ rest ∧ JsonFrac frac := by
  unfold numberFrac at read
  cases s with
  | nil =>
    cases read
    exact ⟨[], rfl, Or.inl rfl⟩
  | cons c s =>
    dsimp only at read
    by_cases point : c = 0x2E
    · rw [if_pos point] at read
      obtain ⟨ds, rfl, digits⟩ := numberDigits_sound read
      exact ⟨0x2E :: ds, by rw [point]; rfl, Or.inr ⟨ds, rfl, digits⟩⟩
    · rw [if_neg point] at read
      cases read
      exact ⟨[], rfl, Or.inl rfl⟩

theorem numberExp_sound (read : numberExp s = .ok rest) : ∃ exp, s = exp ++ rest ∧ JsonExp exp := by
  unfold numberExp at read
  cases s with
  | nil =>
    cases read
    exact ⟨[], rfl, Or.inl rfl⟩
  | cons e s =>
    dsimp only at read
    by_cases mark : jsonExpMark e = true
    · rw [if_pos mark] at read
      have mark' : e = 0x65 ∨ e = 0x45 := by
        simpa only [jsonExpMark, Bool.or_eq_true, decide_eq_true_eq] using mark
      cases s with
      | nil => cases read
      | cons sign s =>
        dsimp only at read
        by_cases signed : jsonSign sign = true
        · rw [if_pos signed] at read
          obtain ⟨ds, rfl, digits⟩ := numberDigits_sound read
          have sign' : sign = 0x2B ∨ sign = 0x2D := by
            simpa only [jsonSign, Bool.or_eq_true, decide_eq_true_eq] using signed
          refine ⟨e :: ([sign] ++ ds), rfl, Or.inr ⟨e, [sign], ds, rfl, mark', ?_, digits⟩⟩
          rcases sign' with rfl | rfl
          · exact .inr (.inl rfl)
          · exact .inr (.inr rfl)
        · rw [if_neg signed] at read
          obtain ⟨ds, shape, digits⟩ := numberDigits_sound read
          exact ⟨e :: ([] ++ ds), by rw [shape]; rfl,
            Or.inr ⟨e, [], ds, rfl, mark', Or.inl rfl, digits⟩⟩
    · rw [if_neg mark] at read
      cases read
      exact ⟨[], rfl, Or.inl rfl⟩

private theorem bind_ok {ε α β : Type} {x : Except ε α} {f : α → Except ε β} {r : β}
    (read : (x >>= f) = .ok r) : ∃ a, x = .ok a ∧ f a = .ok r := by
  cases x with
  | error failed => cases read
  | ok a => exact ⟨a, rfl, read⟩

theorem numberEnd_sound (start : c = 0x2D ∨ jsonDigit c = true)
    (read : numberEnd (c :: s) = .ok rest) : ∃ t, c :: s = t ++ rest ∧ JsonNumber t := by
  unfold numberEnd at read
  obtain ⟨unsigned, sign, read⟩ := bind_ok read
  obtain ⟨afterInt, int, read⟩ := bind_ok read
  obtain ⟨afterFrac, frac, exp⟩ := bind_ok read
  obtain ⟨minus, shape, minusText, d, r, rfl, digit⟩ := numberSign_sound start sign
  obtain ⟨intText, shape', isInt⟩ := numberInt_sound digit int
  obtain ⟨fracText, rfl, isFrac⟩ := numberFrac_sound frac
  obtain ⟨expText, rfl, isExp⟩ := numberExp_sound exp
  refine ⟨minus ++ (intText ++ (fracText ++ expText)), ?_,
    minus, intText, fracText, expText, rfl, minusText, isInt, isFrac, isExp⟩
  rw [shape, shape']
  simp only [List.append_assoc]

theorem JsonInt.head (int : JsonInt t) : ∃ c u, t = c :: u ∧ jsonDigit c = true := by
  rcases int with rfl | ⟨digits, _⟩
  · exact ⟨0x30, [], rfl, rfl⟩
  · exact digits.head

theorem numberSign_complete {minus : List UInt8} (minusText : minus = [] ∨ minus = [0x2D])
    (digits : ∃ c u, t = c :: u ∧ jsonDigit c = true) : numberSign (minus ++ t) = .ok t := by
  obtain ⟨c, u, rfl, digit⟩ := digits
  rcases minusText with rfl | rfl
  · have plain : c ≠ 0x2D := by
      rintro rfl
      cases digit
    change (if c = 0x2D then _ else _) = _
    rw [if_neg plain]
    rfl
  · change (if jsonDigit c = true then (Except.ok (c :: u) : Except JsonFail (List UInt8))
      else jsonFail (c :: u) 0 false "invalid number") = _
    rw [if_pos digit]

theorem numberInt_complete {int : List UInt8} (isInt : JsonInt int)
    (stop : ∀ c ∈ rest.head?, jsonDigit c = false) : numberInt (int ++ rest) = .ok rest := by
  rcases isInt with rfl | ⟨digits, first⟩
  · change (if rest.head?.any jsonDigit = true then jsonFail rest 0 false "invalid number"
      else Except.ok rest) = _
    rw [if_neg]
    cases rest with
    | nil => exact Bool.false_ne_true
    | cons c rest =>
      change ¬ jsonDigit c = true
      rw [stop c rfl]
      exact Bool.false_ne_true
  · obtain ⟨c, u, rfl, digit⟩ := digits.head
    have plain : c ≠ 0x30 := fun same => first (congrArg some same)
    change (if c = 0x30 then _
      else (Except.ok (((c :: u) ++ rest).dropWhile jsonDigit) : Except JsonFail _)) = _
    rw [if_neg plain, digits.dropWhile stop]

theorem numberFrac_complete {frac : List UInt8} (isFrac : JsonFrac frac)
    (stop : ∀ c ∈ rest.head?, jsonDigit c = false ∧ c ≠ 0x2E) :
    numberFrac (frac ++ rest) = .ok rest := by
  rcases isFrac with rfl | ⟨ds, rfl, digits⟩
  · cases rest with
    | nil => rfl
    | cons c rest =>
      change (if c = 0x2E then _ else _) = _
      rw [if_neg (stop c rfl).2]
      rfl
  · exact numberDigits_complete digits fun c member => (stop c member).1

theorem numberExp_complete {exp : List UInt8} (isExp : JsonExp exp)
    (stop : NumberStop rest) : numberExp (exp ++ rest) = .ok rest := by
  rcases isExp with rfl | ⟨e, sign, ds, rfl, mark, signText, digits⟩
  · cases rest with
    | nil => rfl
    | cons c rest =>
      change (if jsonExpMark c = true then _ else _) = _
      rw [(stop c rfl).2.2, if_neg Bool.false_ne_true]
      rfl
  · have stop' : ∀ c ∈ rest.head?, jsonDigit c = false := fun c member => (stop c member).1
    have marked : jsonExpMark e = true := by
      rcases mark with rfl | rfl <;> rfl
    obtain ⟨d, u, rfl, digit⟩ := digits.head
    have unsigned : jsonSign d = false := by
      cases signed : jsonSign d with
      | false => rfl
      | true =>
        simp only [jsonSign, Bool.or_eq_true, decide_eq_true_eq] at signed
        rcases signed with rfl | rfl <;> cases digit
    have read := numberDigits_complete digits stop'
    rcases signText with rfl | rfl | rfl
    · change (if jsonExpMark e = true then
        numberDigits (if jsonSign d = true then u ++ rest else d :: u ++ rest) else _) = _
      rw [if_pos marked, unsigned, if_neg Bool.false_ne_true]
      exact read
    · change (if jsonExpMark e = true then numberDigits (d :: u ++ rest) else _) = _
      rw [if_pos marked]
      exact read
    · change (if jsonExpMark e = true then numberDigits (d :: u ++ rest) else _) = _
      rw [if_pos marked]
      exact read

theorem JsonExp.stop {exp rest : List UInt8} (isExp : JsonExp exp) (stop : NumberStop rest) :
    ∀ c ∈ (exp ++ rest).head?, jsonDigit c = false ∧ c ≠ 0x2E := by
  rcases isExp with rfl | ⟨e, sign, ds, rfl, mark, _, _⟩
  · intro c member
    exact ⟨(stop c member).1, (stop c member).2.1⟩
  · intro c member
    cases member
    rcases mark with rfl | rfl <;> exact ⟨rfl, by decide⟩

theorem JsonFrac.stop {frac rest : List UInt8} (isFrac : JsonFrac frac)
    (stop : ∀ c ∈ rest.head?, jsonDigit c = false) :
    ∀ c ∈ (frac ++ rest).head?, jsonDigit c = false := by
  rcases isFrac with rfl | ⟨ds, rfl, _⟩
  · exact stop
  · intro c member
    cases member
    rfl

theorem numberEnd_complete (number : JsonNumber t)
    (stop : NumberStop rest) : numberEnd (t ++ rest) = .ok rest := by
  obtain ⟨minus, int, frac, exp, rfl, minusText, isInt, isFrac, isExp⟩ := number
  have afterFrac := isExp.stop stop
  have afterInt := isFrac.stop fun c member => (afterFrac c member).1
  have first : ∃ c u, int ++ (frac ++ (exp ++ rest)) = c :: u ∧ jsonDigit c = true := by
    obtain ⟨c, u, rfl, digit⟩ := isInt.head
    exact ⟨c, _, rfl, digit⟩
  simp only [List.append_assoc]
  unfold numberEnd
  rw [numberSign_complete minusText first]
  change (numberInt _ >>= fun s => numberFrac s >>= numberExp) = _
  rw [numberInt_complete isInt afterInt]
  change (numberFrac _ >>= numberExp) = _
  rw [numberFrac_complete isFrac afterFrac]
  exact numberExp_complete isExp stop

variable {D : Type} {strtod : List UInt8 → Option D}

theorem parseNumber_sound {v : Json D} (start : c = 0x2D ∨ jsonDigit c = true)
    (read : parseNumber strtod (c :: s) = .ok (v, rest)) :
    ∃ t d, c :: s = t ++ rest ∧ JsonNumber t ∧ t.length < 128 ∧ strtod t = some d ∧
      v = .num d := by
  unfold parseNumber at read
  cases behind : numberEnd (c :: s) with
  | error failed => rw [behind] at read; cases read
  | ok rest' =>
    rw [behind] at read
    dsimp only at read
    obtain ⟨t, shape, number⟩ := numberEnd_sound start behind
    have size : (c :: s).length - rest'.length = t.length := by
      rw [shape, List.length_append, Nat.add_sub_cancel]
    rw [size, shape, List.take_left] at read
    split at read
    · cases read
    · rename_i short
      cases value : strtod t with
      | none => rw [value] at read; cases read
      | some d =>
        rw [value] at read
        cases read
        exact ⟨t, d, shape, number, Nat.lt_of_not_le short, value, rfl⟩

theorem parseNumber_complete {d : D} (number : JsonNumber t)
    (short : t.length < 128) (value : strtod t = some d) (stop : NumberStop rest) :
    parseNumber strtod (t ++ rest) = .ok (.num d, rest) := by
  rw [parseNumber, numberEnd_complete number stop]
  dsimp only
  rw [List.length_append, Nat.add_sub_cancel, if_neg (Nat.not_le_of_lt short), List.take_left,
    value]

end

end Iwan
