import Iwan.Lib.Utf8
import Iwan.Proxy.Parse

/- The filters for text that reaches a terminal. -/
namespace Iwan

open Utf8

def utf8Lead (c : UInt8) : Nat × UInt8 × UInt8 :=
  if 0xC2 ≤ c ∧ c ≤ 0xDF then (2, 0x80, 0xBF)
  else if 0xE0 ≤ c ∧ c ≤ 0xEF then
    (3, if c = 0xE0 then 0xA0 else 0x80, if c = 0xED then 0x9F else 0xBF)
  else if 0xF0 ≤ c ∧ c ≤ 0xF4 then
    (4, if c = 0xF0 then 0x90 else 0x80, if c = 0xF4 then 0x8F else 0xBF)
  else (0, 0x80, 0xBF)

def utf8Cont (b : Option UInt8) : Bool := b.any fun b => b &&& 0xC0 == 0x80

def utf8SeqLen : List UInt8 → Nat
  | [] => 0
  | c :: rest =>
    let (len, lo, hi) := utf8Lead c
    if len = 0 then 0
    else if !utf8Cont rest[0]? then 0
    else if rest[0]?.any fun b => b < lo || hi < b then 0
    else if 3 ≤ len && !utf8Cont rest[1]? then 0
    else if 4 ≤ len && !utf8Cont rest[2]? then 0
    else len

def httpsUtf8Seq (s : List UInt8) : Nat := utf8SeqLen s

def c1Pair (s : List UInt8) : Bool :=
  s[0]?.any (· == 0xC2) && s[1]?.any fun b => 0x80 ≤ b && b ≤ 0x9F

def escapeLoop (seqLen : List UInt8 → Nat) (limit : Nat) :
    Nat → List UInt8 → List UInt8 → List UInt8 × List UInt8
  | 0, s, out => (out, s)
  | _ + 1, [], out => (out, [])
  | fuel + 1, c :: rest, out =>
    let s := c :: rest
    if ¬ out.length < limit then (out, s)
    else
      let seq := seqLen s
      if 2 ≤ seq then
        if limit < out.length + seq then (out, s)
        else if seq = 2 ∧ c1Pair s then escapeLoop seqLen limit fuel (s.drop seq) (out ++ [0x3F])
        else escapeLoop seqLen limit fuel (s.drop seq) (out ++ s.take seq)
      else
        escapeLoop seqLen limit fuel rest
          (out ++ [if c < 0x20 ∨ 0x7F ≤ c then 0x3F else c])

def httpsLogSan (input : List UInt8) (outsz : Nat) : Option (List UInt8) :=
  if outsz = 0 then none
  else
    let budget := if 4 < outsz then outsz - 4 else 0
    let (text, rest) := escapeLoop httpsUtf8Seq budget input.length input []
    some (text ++ (if rest ≠ [] ∧ 4 ≤ outsz then ascii "..." else []) ++ [0])

def logEscape (input : List UInt8) (outsz : Nat) : Option (List UInt8) :=
  if outsz = 0 then none
  else
    let s := cString input
    some ((escapeLoop utf8SeqLen (outsz - 1) s.length s []).1 ++ [0])

def oidcContinue : Nat → List UInt8 → Nat → Option Nat
  | 0, _, cp => some cp
  | _ + 1, [], _ => none
  | left + 1, b :: rest, cp =>
    if b &&& 0xC0 = 0x80 then oidcContinue left rest (cp <<< 6 ||| (b &&& 0x3F).toNat) else none

def oidcNeed (c : UInt8) : Nat :=
  if 0xC2 ≤ c ∧ c ≤ 0xDF then 2
  else if 0xE0 ≤ c ∧ c ≤ 0xEF then 3
  else if 0xF0 ≤ c ∧ c ≤ 0xF4 then 4
  else 0

def oidcSeq : List UInt8 → Option (Nat × Nat)
  | [] => none
  | c :: rest =>
    let need := oidcNeed c
    if need = 0 ∨ (c :: rest).length < need then none
    else
      match oidcContinue (need - 1) rest (c.toNat &&& (0xFF >>> (need + 1))) with
      | none => none
      | some cp =>
        if need = 3 ∧ cp < 0x800 ∨ need = 4 ∧ cp < 0x10000 ∨ 0xD800 ≤ cp ∧ cp ≤ 0xDFFF ∨
            0x10FFFF < cp then none
        else some (need, cp)

def oidcPrintableLoop : Nat → List UInt8 → List UInt8 → List UInt8
  | 0, _, out => out
  | _ + 1, [], out => out
  | fuel + 1, c :: rest, out =>
    if c < 0x80 then
      oidcPrintableLoop fuel rest (out ++ [if c < 0x20 ∨ c = 0x7F then 0x3F else c])
    else
      match oidcSeq (c :: rest) with
      | some (need, cp) =>
        if 0x80 ≤ cp ∧ cp ≤ 0x9F then
          oidcPrintableLoop fuel ((c :: rest).drop need) (out ++ [0x3F])
        else
          oidcPrintableLoop fuel ((c :: rest).drop need) (out ++ (c :: rest).take need)
      | none => oidcPrintableLoop fuel rest (out ++ [0x3F])

def oidcPrintableDup (input : List UInt8) : List UInt8 :=
  let s := cString input
  oidcPrintableLoop s.length s [] ++ [0]

def PlainChar (ch : Char) : Prop :=
  0x20 ≤ codePoint ch ∧ ¬ (0x7F ≤ codePoint ch ∧ codePoint ch ≤ 0x9F)

instance (ch : Char) : Decidable (PlainChar ch) := inferInstanceAs (Decidable (_ ∧ _))

def shownChar (ch : Char) : Char := if PlainChar ch then ch else '?'

def PlainText (s : List UInt8) : Prop :=
  ∃ chars : List Char, s = chars.flatMap encode ∧ ∀ ch ∈ chars, PlainChar ch

/-- A piece of the text, in front of the rest, is printed as one character. -/
inductive Shown : List UInt8 → List UInt8 → Char → Prop where
  | char (ch : Char) (rest : List UInt8) : Shown (encode ch) rest (shownChar ch)
  | stray (c : UInt8) (rest : List UInt8) (high : 0x80 ≤ c)
      (alone : ∀ ch more, c :: rest ≠ encode ch ++ more) : Shown [c] rest '?'

/-- A text is printed as characters. -/
inductive ShownAs : List UInt8 → List Char → Prop where
  | nil : ShownAs [] []
  | cons {piece rest : List UInt8} {ch : Char} {chars : List Char} (first : Shown piece rest ch)
      (others : ShownAs rest chars) : ShownAs (piece ++ rest) (ch :: chars)

section

variable {s rest : List UInt8} {ch : Char}

theorem utf8Cont_iff (b : UInt8) :
    utf8Cont (some b) = true ↔ 0x80 ≤ b.toNat ∧ b.toNat ≤ 0xBF := by
  revert b
  decide +kernel

theorem encode_narrow (narrow : codePoint ch < 0x80) :
    ∃ a : UInt8, encode ch = [a] ∧ a.toNat = codePoint ch := by
  have shape := encode_shape ch
  generalize encode ch = s at shape ⊢
  cases shape with
  | one lead _ => exact ⟨_, rfl, lead⟩
  | _ => omega

theorem utf8Lead_eq (c : UInt8) :
    utf8Lead c =
      if 0xC2 ≤ c.toNat ∧ c.toNat ≤ 0xDF then (2, 0x80, 0xBF)
      else if 0xE0 ≤ c.toNat ∧ c.toNat ≤ 0xEF then
        (3, if c.toNat = 0xE0 then 0xA0 else 0x80, if c.toNat = 0xED then 0x9F else 0xBF)
      else if 0xF0 ≤ c.toNat ∧ c.toNat ≤ 0xF4 then
        (4, if c.toNat = 0xF0 then 0x90 else 0x80, if c.toNat = 0xF4 then 0x8F else 0xBF)
      else (0, 0x80, 0xBF) := by
  revert c
  decide +kernel

def SecondByte (a b : Nat) : Prop :=
  (a = 0xE0 → 0xA0 ≤ b) ∧ (a = 0xED → b ≤ 0x9F) ∧ (a = 0xF0 → 0x90 ≤ b) ∧ (a = 0xF4 → b ≤ 0x8F)

def ContByte (b : UInt8) : Prop := 0x80 ≤ b.toNat ∧ b.toNat ≤ 0xBF

/-- A multi-byte sequence of RFC 3629 stands in front. -/
inductive Utf8Seq : List UInt8 → Nat → Prop where
  | two {a b : UInt8} (rest : List UInt8) (lead : 0xC2 ≤ a.toNat ∧ a.toNat ≤ 0xDF)
      (next : ContByte b) : Utf8Seq (a :: b :: rest) 2
  | three {a b c : UInt8} (rest : List UInt8) (lead : 0xE0 ≤ a.toNat ∧ a.toNat ≤ 0xEF)
      (next : ContByte b) (range : SecondByte a.toNat b.toNat) (last : ContByte c) :
      Utf8Seq (a :: b :: c :: rest) 3
  | four {a b c d : UInt8} (rest : List UInt8) (lead : 0xF0 ≤ a.toNat ∧ a.toNat ≤ 0xF4)
      (next : ContByte b) (range : SecondByte a.toNat b.toNat) (third : ContByte c)
      (last : ContByte d) : Utf8Seq (a :: b :: c :: d :: rest) 4

variable {n : Nat}

theorem Utf8Seq.long (seq : Utf8Seq s n) : 2 ≤ n := by
  cases seq <;> decide

theorem not_lt_bound {p : Prop} [Decidable p] {b x y : UInt8} (special : p → x.toNat ≤ b.toNat)
    (usual : y.toNat ≤ b.toNat) : ¬ b < if p then x else y := by
  rw [UInt8.lt_iff_toNat_lt, Nat.not_lt]
  split_ifs with e
  · exact special e
  · exact usual

theorem not_bound_lt {p : Prop} [Decidable p] {b x y : UInt8} (special : p → b.toNat ≤ x.toNat)
    (usual : b.toNat ≤ y.toNat) : ¬ (if p then x else y) < b := by
  rw [UInt8.lt_iff_toNat_lt, Nat.not_lt]
  split_ifs with e
  · exact special e
  · exact usual

theorem utf8SeqLen_of_seq (seq : Utf8Seq s n) : utf8SeqLen s = n := by
  cases seq with
  | two rest lead next =>
    simp [utf8SeqLen, utf8Lead_eq, lead, (utf8Cont_iff _).mpr next, UInt8.lt_iff_toNat_lt]
    exact next
  | @three a b c rest lead next range last =>
    have lower : ¬ b < if a.toNat = 0xE0 then 0xA0 else 0x80 := not_lt_bound range.1 next.1
    have upper : ¬ (if a.toNat = 0xED then 0x9F else 0xBF) < b :=
      not_bound_lt range.2.1 next.2
    have other : ¬ (0xC2 ≤ a.toNat ∧ a.toNat ≤ 0xDF) := by omega
    rw [utf8SeqLen, utf8Lead_eq, if_neg other, if_pos lead]
    simp [(utf8Cont_iff _).mpr next, (utf8Cont_iff _).mpr last, lower, upper]
  | @four a b c d rest lead next range third last =>
    have lower : ¬ b < if a.toNat = 0xF0 then 0x90 else 0x80 := not_lt_bound range.2.2.1 next.1
    have upper : ¬ (if a.toNat = 0xF4 then 0x8F else 0xBF) < b :=
      not_bound_lt range.2.2.2 next.2
    have two : ¬ (0xC2 ≤ a.toNat ∧ a.toNat ≤ 0xDF) := by omega
    have three : ¬ (0xE0 ≤ a.toNat ∧ a.toNat ≤ 0xEF) := by omega
    rw [utf8SeqLen, utf8Lead_eq, if_neg two, if_neg three, if_pos lead]
    simp [(utf8Cont_iff _).mpr next, (utf8Cont_iff _).mpr third, (utf8Cont_iff _).mpr last, lower,
      upper]

theorem guard_passed {p : Prop} [Decidable p] {x : Nat} (some : (if p then 0 else x) ≠ 0) :
    ¬ p ∧ (if p then 0 else x) = x ∧ x ≠ 0 := by
  by_cases fails : p
  · rw [if_pos fails] at some
    exact absurd rfl some
  · rw [if_neg fails] at some ⊢
    exact ⟨fails, rfl, some⟩

theorem utf8Cont_some {b : Option UInt8} (cont : ¬ (!utf8Cont b) = true) :
    ∃ x, b = some x ∧ ContByte x := by
  cases b with
  | none => exact absurd rfl cont
  | some x => exact ⟨x, rfl, (utf8Cont_iff x).mp (by simpa using cont)⟩

theorem utf8SeqLen_cons (a : UInt8) (rest : List UInt8) :
    utf8SeqLen (a :: rest) =
      if (utf8Lead a).1 = 0 then 0
      else if !utf8Cont rest[0]? then 0
      else if rest[0]?.any fun b => b < (utf8Lead a).2.1 || (utf8Lead a).2.2 < b then 0
      else if 3 ≤ (utf8Lead a).1 && !utf8Cont rest[1]? then 0
      else if 4 ≤ (utf8Lead a).1 && !utf8Cont rest[2]? then 0
      else (utf8Lead a).1 := rfl

theorem eq_cons_of_head {x : UInt8} (first : s[0]? = some x) : ∃ rest, s = x :: rest := by
  cases s with
  | nil => cases first
  | cons y rest =>
    cases first
    exact ⟨rest, rfl⟩

theorem seq_of_utf8SeqLen (some : utf8SeqLen s ≠ 0) : Utf8Seq s (utf8SeqLen s) := by
  cases s with
  | nil => exact absurd rfl some
  | cons a rest =>
    rw [utf8SeqLen_cons] at some
    obtain ⟨announced, same, some⟩ := guard_passed some
    obtain ⟨second, same', some⟩ := guard_passed some
    obtain ⟨inside, same'', some⟩ := guard_passed some
    obtain ⟨third, same3, some⟩ := guard_passed some
    obtain ⟨fourth, same4, some⟩ := guard_passed some
    rw [utf8SeqLen_cons, same, same', same'', same3, same4]
    clear same same' same'' same3 same4 some
    obtain ⟨b, at0, next⟩ := utf8Cont_some second
    obtain ⟨rest, rfl⟩ := eq_cons_of_head at0
    have bounds : ¬ b < (utf8Lead a).2.1 ∧ ¬ (utf8Lead a).2.2 < b := by
      simpa [not_or] using inside
    rw [UInt8.lt_iff_toNat_lt, UInt8.lt_iff_toNat_lt] at bounds
    have shape := utf8Lead_eq a
    by_cases two : 0xC2 ≤ a.toNat ∧ a.toNat ≤ 0xDF
    · rw [if_pos two] at shape
      rw [shape]
      exact .two rest two next
    rw [if_neg two] at shape
    by_cases three : 0xE0 ≤ a.toNat ∧ a.toNat ≤ 0xEF
    · rw [if_pos three] at shape
      rw [shape] at third bounds ⊢
      obtain ⟨c, at1, last⟩ := utf8Cont_some (by simpa using third)
      obtain ⟨rest, rfl⟩ := eq_cons_of_head at1
      refine .three rest three next ⟨fun e => ?_, fun e => ?_, by omega, by omega⟩ last
      · simpa [e] using bounds.1
      · simpa [e] using bounds.2
    rw [if_neg three] at shape
    by_cases four : 0xF0 ≤ a.toNat ∧ a.toNat ≤ 0xF4
    · rw [if_pos four] at shape
      rw [shape] at third fourth bounds ⊢
      obtain ⟨c, at1, cont⟩ := utf8Cont_some (by simpa using third)
      obtain ⟨rest, rfl⟩ := eq_cons_of_head at1
      obtain ⟨d, at2, last⟩ := utf8Cont_some (by simpa using fourth)
      obtain ⟨rest, rfl⟩ := eq_cons_of_head at2
      refine .four rest four next ⟨by omega, by omega, fun e => ?_, fun e => ?_⟩ cont last
      · simpa [e] using bounds.1
      · simpa [e] using bounds.2
    rw [if_neg four] at shape
    rw [shape] at announced
    exact absurd rfl announced

theorem exists_char {v : Nat} (shape : Shape v s) (wide : 0x80 ≤ v) (rest : List UInt8) :
    ∃ ch rest', s ++ rest = encode ch ++ rest' ∧ 0x80 ≤ codePoint ch ∧
      s.length = (encode ch).length := by
  obtain ⟨ch, point, same⟩ := shape.encode_eq
  exact ⟨ch, rest, by rw [same], by omega, by rw [same]⟩

theorem Utf8Seq.char (seq : Utf8Seq s n) :
    ∃ ch rest, s = encode ch ++ rest ∧ 0x80 ≤ codePoint ch ∧ n = (encode ch).length := by
  cases seq with
  | @two a b rest lead next =>
    obtain ⟨lower, upper⟩ := next
    have shape : Shape ((a.toNat - 0xC0) * 64 + (b.toNat - 0x80)) [a, b] :=
      .two (by omega) (by omega) (by omega) (by omega)
    exact exists_char shape (by omega) rest
  | @three a b c rest lead next range last =>
    obtain ⟨⟨_, _⟩, ⟨_, _⟩, low, high, _⟩ := And.intro next (And.intro last range)
    have shape : Shape ((a.toNat - 0xE0) * 4096 + (b.toNat - 0x80) * 64 + (c.toNat - 0x80))
        [a, b, c] :=
      .three (by omega) (by omega) (by omega) (by omega) (by omega) (by omega)
    exact exists_char shape (by omega) rest
  | @four a b c d rest lead next range third last =>
    obtain ⟨⟨_, _⟩, ⟨_, _⟩, ⟨_, _⟩, _, _, low, high⟩ :=
      And.intro next (And.intro third (And.intro last range))
    have shape : Shape ((a.toNat - 0xF0) * 262144 + (b.toNat - 0x80) * 4096 +
        (c.toNat - 0x80) * 64 + (d.toNat - 0x80)) [a, b, c, d] :=
      .four (by omega) (by omega) (by omega) (by omega) (by omega) (by omega)
    exact exists_char shape (by omega) rest

theorem utf8Seq_encode (wide : 0x80 ≤ codePoint ch) (rest : List UInt8) :
    Utf8Seq (encode ch ++ rest) (encode ch).length := by
  have shape := encode_shape ch
  generalize encode ch = s at shape ⊢
  cases shape with
  | one _ narrow => omega
  | two lead last _ narrow => exact .two rest (by omega) ⟨by omega, by omega⟩
  | three lead next last wide narrow scalar =>
    exact .three rest (by omega) ⟨by omega, by omega⟩
      ⟨by omega, by omega, by omega, by omega⟩ ⟨by omega, by omega⟩
  | four lead next third last wide narrow =>
    exact .four rest (by omega) ⟨by omega, by omega⟩
      ⟨by omega, by omega, by omega, by omega⟩ ⟨by omega, by omega⟩ ⟨by omega, by omega⟩

theorem oidcNeed_eq (c : UInt8) :
    oidcNeed c =
      if 0xC2 ≤ c.toNat ∧ c.toNat ≤ 0xDF then 2
      else if 0xE0 ≤ c.toNat ∧ c.toNat ≤ 0xEF then 3
      else if 0xF0 ≤ c.toNat ∧ c.toNat ≤ 0xF4 then 4
      else 0 := by
  revert c
  decide +kernel

theorem oidcContinue_cons (left : Nat) (b : UInt8) (rest : List UInt8) (cp : Nat) :
    oidcContinue (left + 1) (b :: rest) cp =
      if 0x80 ≤ b.toNat ∧ b.toNat ≤ 0xBF then oidcContinue left rest (cp * 64 + b.toNat % 64)
      else none := by
  have cont : b &&& 0xC0 = 0x80 ↔ 0x80 ≤ b.toNat ∧ b.toNat ≤ 0xBF := by
    revert b
    decide +kernel
  have low : (b &&& 0x3F).toNat = b.toNat % 64 := by
    revert b
    decide +kernel
  have bits : cp <<< 6 ||| b.toNat % 64 = cp * 64 + b.toNat % 64 := by
    rw [← Nat.shiftLeft_add_eq_or_of_lt (Nat.mod_lt _ (by decide)), Nat.shiftLeft_eq]
  rw [oidcContinue, low, bits]
  by_cases inside : 0x80 ≤ b.toNat ∧ b.toNat ≤ 0xBF
  · rw [if_pos inside, if_pos (cont.mpr inside)]
  · rw [if_neg inside, if_neg fun fits => inside (cont.mp fits)]

theorem oidcSeq_encode (wide : 0x80 ≤ codePoint ch) (rest : List UInt8) :
    oidcSeq (encode ch ++ rest) = some ((encode ch).length, codePoint ch) := by
  have shape := encode_shape ch
  generalize codePoint ch = v at shape wide
  generalize encode ch = s at shape ⊢
  cases shape with
  | one _ narrow => omega
  | @two a b lead last _ narrow =>
    have need : oidcNeed a = 2 := by
      rw [oidcNeed_eq, if_pos (by omega)]
    have bits : a.toNat &&& (0xFF >>> 3) = a.toNat % 32 := Nat.and_two_pow_sub_one_eq_mod _ 5
    have point : a.toNat % 32 * 64 + b.toNat % 64 = v := by omega
    have inside : ¬ (2 = 3 ∧ v < 0x800 ∨ 2 = 4 ∧ v < 0x10000 ∨ 0xD800 ≤ v ∧ v ≤ 0xDFFF ∨
      0x10FFFF < v) := by omega
    rw [List.cons_append, List.cons_append, oidcSeq, need, if_neg (by simp), bits,
      oidcContinue_cons, if_pos (by omega), point]
    exact if_neg inside
  | @three a b c lead next last wide narrow scalar =>
    have need : oidcNeed a = 3 := by
      rw [oidcNeed_eq, if_neg (by omega), if_pos (by omega)]
    have bits : a.toNat &&& (0xFF >>> 4) = a.toNat % 16 := Nat.and_two_pow_sub_one_eq_mod _ 4
    have point : (a.toNat % 16 * 64 + b.toNat % 64) * 64 + c.toNat % 64 = v := by omega
    have inside : ¬ (3 = 3 ∧ v < 0x800 ∨ 3 = 4 ∧ v < 0x10000 ∨ 0xD800 ≤ v ∧ v ≤ 0xDFFF ∨
      0x10FFFF < v) := by omega
    rw [List.cons_append, List.cons_append, List.cons_append, oidcSeq, need, if_neg (by simp),
      bits, oidcContinue_cons, if_pos (by omega), oidcContinue_cons, if_pos (by omega), point]
    exact if_neg inside
  | @four a b c d lead next third last wide narrow =>
    have need : oidcNeed a = 4 := by
      rw [oidcNeed_eq, if_neg (by omega), if_neg (by omega), if_pos (by omega)]
    have bits : a.toNat &&& (0xFF >>> 5) = a.toNat % 8 := Nat.and_two_pow_sub_one_eq_mod _ 3
    have point : ((a.toNat % 8 * 64 + b.toNat % 64) * 64 + c.toNat % 64) * 64 + d.toNat % 64 =
        v := by omega
    have inside : ¬ (4 = 3 ∧ v < 0x800 ∨ 4 = 4 ∧ v < 0x10000 ∨ 0xD800 ≤ v ∧ v ≤ 0xDFFF ∨
      0x10FFFF < v) := by omega
    rw [List.cons_append, List.cons_append, List.cons_append, List.cons_append, oidcSeq, need,
      if_neg (by simp), bits, oidcContinue_cons, if_pos (by omega), oidcContinue_cons,
      if_pos (by omega), oidcContinue_cons, if_pos (by omega), point]
    exact if_neg inside

theorem oidcContinue_some {left cp v : Nat} (read : oidcContinue (left + 1) s cp = some v) :
    ∃ b rest, s = b :: rest ∧ ContByte b ∧
      oidcContinue left rest (cp * 64 + b.toNat % 64) = some v := by
  cases s with
  | nil => cases read
  | cons b rest =>
    rw [oidcContinue_cons] at read
    by_cases cont : 0x80 ≤ b.toNat ∧ b.toNat ≤ 0xBF
    · rw [if_pos cont] at read
      exact ⟨b, rest, rfl, cont, read⟩
    · rw [if_neg cont] at read
      cases read

theorem oidcSeq_some {cp : Nat} (accepted : oidcSeq s = some (n, cp)) : Utf8Seq s n := by
  cases s with
  | nil => cases accepted
  | cons a rest =>
    rw [oidcSeq] at accepted
    by_cases short : oidcNeed a = 0 ∨ (a :: rest).length < oidcNeed a
    · rw [if_pos short] at accepted
      cases accepted
    rw [if_neg short] at accepted
    have announced := oidcNeed_eq a
    cases read : oidcContinue (oidcNeed a - 1) rest (a.toNat &&& 0xFF >>> (oidcNeed a + 1)) with
    | none =>
      rw [read] at accepted
      cases accepted
    | some v =>
      rw [read] at accepted
      dsimp only at accepted
      split_ifs at accepted with bad
      obtain ⟨rfl, rfl⟩ : oidcNeed a = n ∧ v = cp := by simpa using accepted
      have bits4 : a.toNat &&& (0xFF >>> 4) = a.toNat % 16 :=
        Nat.and_two_pow_sub_one_eq_mod _ 4
      have bits3 : a.toNat &&& (0xFF >>> 5) = a.toNat % 8 := Nat.and_two_pow_sub_one_eq_mod _ 3
      by_cases two : 0xC2 ≤ a.toNat ∧ a.toNat ≤ 0xDF
      · rw [if_pos two] at announced
        rw [announced] at read ⊢
        obtain ⟨b, rest, rfl, next, _⟩ := oidcContinue_some read
        exact .two rest two next
      rw [if_neg two] at announced
      by_cases three : 0xE0 ≤ a.toNat ∧ a.toNat ≤ 0xEF
      · rw [if_pos three] at announced
        rw [announced] at read bad ⊢
        rw [bits4] at read
        obtain ⟨b, rest, rfl, next, read⟩ := oidcContinue_some read
        obtain ⟨c, rest, rfl, last, read⟩ := oidcContinue_some read
        have point : (a.toNat % 16 * 64 + b.toNat % 64) * 64 + c.toNat % 64 = v :=
          Option.some.inj read
        obtain ⟨⟨_, _⟩, _, _⟩ := And.intro next last
        exact .three rest three next ⟨by omega, by omega, by omega, by omega⟩ last
      rw [if_neg three] at announced
      by_cases four : 0xF0 ≤ a.toNat ∧ a.toNat ≤ 0xF4
      · rw [if_pos four] at announced
        rw [announced] at read bad ⊢
        rw [bits3] at read
        obtain ⟨b, rest, rfl, next, read⟩ := oidcContinue_some read
        obtain ⟨c, rest, rfl, third, read⟩ := oidcContinue_some read
        obtain ⟨d, rest, rfl, last, read⟩ := oidcContinue_some read
        have point : ((a.toNat % 8 * 64 + b.toNat % 64) * 64 + c.toNat % 64) * 64 +
            d.toNat % 64 = v := Option.some.inj read
        obtain ⟨⟨_, _⟩, ⟨_, _⟩, _, _⟩ := And.intro next (And.intro third last)
        exact .four rest four next ⟨by omega, by omega, by omega, by omega⟩ third last
      rw [if_neg four] at announced
      exact absurd (.inl announced) short

end

section

variable {s piece rest out : List UInt8} {ch : Char}

theorem shownChar_plain (ch : Char) : PlainChar (shownChar ch) := by
  unfold shownChar
  split
  · next plain => exact plain
  · decide

theorem Shown.plain (shown : Shown piece rest ch) : PlainChar ch := by
  cases shown with
  | char ch rest => exact shownChar_plain ch
  | stray c rest high alone => decide

theorem Shown.ne_nil (shown : Shown piece rest ch) : piece ≠ [] := by
  cases shown with
  | char ch rest => exact encode_ne_nil ch
  | stray c rest high alone => exact List.cons_ne_nil _ _

theorem Shown.length_le (shown : Shown piece rest ch) : (encode ch).length ≤ piece.length := by
  cases shown with
  | char ch rest =>
    unfold shownChar
    split
    · exact Nat.le_refl _
    · exact List.length_pos_iff.mpr (encode_ne_nil ch)
  | stray c rest high alone => exact Nat.le_refl _

theorem exists_shown (some : s ≠ []) :
    ∃ piece rest ch, s = piece ++ rest ∧ Shown piece rest ch := by
  by_cases starts : ∃ ch more, s = encode ch ++ more
  · obtain ⟨ch, more, split⟩ := starts
    exact ⟨encode ch, more, shownChar ch, split, .char ch more⟩
  · cases s with
    | nil => exact absurd rfl some
    | cons c rest =>
      refine ⟨[c], rest, '?', rfl, .stray c rest ?_ fun ch more split => starts ⟨ch, more, split⟩⟩
      rw [UInt8.le_iff_toNat_le]
      by_contra low
      have narrow : c.toNat < 0x80 := Nat.not_le.mp low
      obtain ⟨ch, _, same⟩ := (Shape.one rfl narrow).encode_eq
      exact starts ⟨ch, rest, by rw [same]; rfl⟩

theorem utf8SeqLen_stray {c : UInt8} (alone : ∀ ch more, c :: rest ≠ encode ch ++ more) :
    utf8SeqLen (c :: rest) = 0 := by
  by_contra some
  obtain ⟨ch, more, split, _⟩ := (seq_of_utf8SeqLen some).char
  exact alone ch more split

theorem oidcSeq_stray {c : UInt8} (alone : ∀ ch more, c :: rest ≠ encode ch ++ more) :
    oidcSeq (c :: rest) = none := by
  cases read : oidcSeq (c :: rest) with
  | none => rfl
  | some pair =>
    obtain ⟨ch, more, split, _⟩ := (oidcSeq_some read).char
    exact absurd split (alone ch more)

theorem utf8SeqLen_narrow {a : UInt8} (narrow : a.toNat < 0x80) : utf8SeqLen (a :: rest) = 0 := by
  have lead : (utf8Lead a).1 = 0 := by
    rw [utf8Lead_eq, if_neg (by omega), if_neg (by omega), if_neg (by omega)]
  rw [utf8SeqLen_cons, if_pos lead]

theorem c1Pair_encode (wide : 0x80 ≤ codePoint ch) (rest : List UInt8) :
    ((encode ch).length = 2 ∧ c1Pair (encode ch ++ rest) = true) ↔ codePoint ch ≤ 0x9F := by
  have shape := encode_shape ch
  generalize codePoint ch = v at shape wide ⊢
  generalize encode ch = s at shape ⊢
  cases shape with
  | one _ narrow => omega
  | @two a b lead last _ narrow =>
    have first : a = 0xC2 ↔ a.toNat = 0xC2 := UInt8.toNat_inj.symm
    simp only [List.length_cons, List.length_nil, c1Pair, List.cons_append, List.nil_append,
      List.getElem?_cons_zero, List.getElem?_cons_succ, Option.any_some, Bool.and_eq_true,
      beq_iff_eq, decide_eq_true_eq, UInt8.le_iff_toNat_le, first]
    change True ∧ a.toNat = 0xC2 ∧ 0x80 ≤ b.toNat ∧ b.toNat ≤ 0x9F ↔ _
    constructor
    · rintro ⟨_, isLead, _, upper⟩
      omega
    · intro control
      exact ⟨trivial, by omega, by omega, by omega⟩
  | _ =>
    simp only [List.length_cons, List.length_nil]
    omega

theorem shownChar_wide (wide : 0x80 ≤ codePoint ch) :
    encode (shownChar ch) = if codePoint ch ≤ 0x9F then [0x3F] else encode ch := by
  unfold shownChar
  by_cases control : codePoint ch ≤ 0x9F
  · rw [if_pos control, if_neg fun plain => plain.2 ⟨by omega, control⟩]
    rfl
  · rw [if_neg control, if_pos ⟨by omega, fun range => control range.2⟩]

theorem shownChar_narrow {a : UInt8} (same : encode ch = [a]) (point : a.toNat = codePoint ch)
    (narrow : codePoint ch < 0x80) :
    encode (shownChar ch) = [if a < 0x20 ∨ 0x7F ≤ a then 0x3F else a] := by
  have low : a < 0x20 ↔ codePoint ch < 0x20 := by
    rw [UInt8.lt_iff_toNat_lt, point]
    rfl
  have high : 0x7F ≤ a ↔ 0x7F ≤ codePoint ch := by
    rw [UInt8.le_iff_toNat_le, point]
    rfl
  unfold shownChar
  by_cases plain : PlainChar ch
  · rw [if_pos plain, same, if_neg]
    rw [low, high]
    unfold PlainChar at plain
    omega
  · rw [if_neg plain, if_pos]
    · rfl
    · rw [low, high]
      unfold PlainChar at plain
      omega

theorem escapeLoop_byte (limit fuel : Nat) (c : UInt8) (rest out : List UInt8)
    (single : utf8SeqLen (c :: rest) = 0) :
    escapeLoop utf8SeqLen limit (fuel + 1) (c :: rest) out =
      if out.length + 1 ≤ limit then
        escapeLoop utf8SeqLen limit fuel rest
          (out ++ [if c < 0x20 ∨ 0x7F ≤ c then 0x3F else c])
      else (out, c :: rest) := by
  rw [escapeLoop]
  dsimp only
  rw [single, if_neg (show ¬ 2 ≤ 0 by decide)]
  by_cases room : out.length < limit
  · rw [if_neg (not_not.mpr room), if_pos (Nat.succ_le_of_lt room)]
  · rw [if_pos room, if_neg fun fits => room (Nat.lt_of_succ_le fits)]

theorem escapeLoop_seq (limit fuel : Nat) (rest out : List UInt8) (wide : 0x80 ≤ codePoint ch) :
    escapeLoop utf8SeqLen limit (fuel + 1) (encode ch ++ rest) out =
      if out.length + (encode ch).length ≤ limit then
        escapeLoop utf8SeqLen limit fuel rest (out ++ encode (shownChar ch))
      else (out, encode ch ++ rest) := by
  have seq := utf8SeqLen_of_seq (utf8Seq_encode wide rest)
  have pair := c1Pair_encode wide rest
  have long := (utf8Seq_encode wide rest).long
  rw [shownChar_wide wide]
  obtain ⟨c, tail, split⟩ := List.exists_cons_of_ne_nil (encode_ne_nil ch)
  have turn : escapeLoop utf8SeqLen limit (fuel + 1) (encode ch ++ rest) out =
      if ¬ out.length < limit then (out, encode ch ++ rest)
      else if 2 ≤ utf8SeqLen (encode ch ++ rest) then
        if limit < out.length + utf8SeqLen (encode ch ++ rest) then (out, encode ch ++ rest)
        else if utf8SeqLen (encode ch ++ rest) = 2 ∧ c1Pair (encode ch ++ rest) then
          escapeLoop utf8SeqLen limit fuel
            ((encode ch ++ rest).drop (utf8SeqLen (encode ch ++ rest))) (out ++ [0x3F])
        else
          escapeLoop utf8SeqLen limit fuel
            ((encode ch ++ rest).drop (utf8SeqLen (encode ch ++ rest)))
            (out ++ (encode ch ++ rest).take (utf8SeqLen (encode ch ++ rest)))
      else
        escapeLoop utf8SeqLen limit fuel (tail ++ rest)
          (out ++ [if c < 0x20 ∨ 0x7F ≤ c then 0x3F else c]) := by
    rw [split]
    rfl
  rw [turn, seq, List.drop_left, List.take_left, if_pos long]
  by_cases room : out.length + (encode ch).length ≤ limit
  · rw [if_pos room, if_neg (by omega), if_neg (by omega)]
    by_cases control : codePoint ch ≤ 0x9F
    · rw [if_pos control, if_pos (pair.mpr control)]
    · rw [if_neg control, if_neg fun both => control (pair.mp both)]
  · rw [if_neg room, if_pos (Nat.not_le.mp room), ite_self]

theorem escapeLoop_step (limit fuel : Nat) (out : List UInt8) (shown : Shown piece rest ch) :
    escapeLoop utf8SeqLen limit (fuel + 1) (piece ++ rest) out =
      if out.length + piece.length ≤ limit then
        escapeLoop utf8SeqLen limit fuel rest (out ++ encode ch)
      else (out, piece ++ rest) := by
  cases shown with
  | stray c rest high alone =>
    have byte : c < 0x20 ∨ 0x7F ≤ c := by
      right
      rw [UInt8.le_iff_toNat_le] at high ⊢
      exact Nat.le_trans (by decide) high
    rw [List.singleton_append, escapeLoop_byte _ _ _ _ _ (utf8SeqLen_stray alone), if_pos byte]
    rfl
  | char ch rest =>
    by_cases wide : 0x80 ≤ codePoint ch
    · exact escapeLoop_seq limit fuel rest out wide
    · have narrow := Nat.not_le.mp wide
      obtain ⟨a, same, point⟩ := encode_narrow narrow
      rw [shownChar_narrow same point narrow, same, List.singleton_append,
        escapeLoop_byte _ _ _ _ _ (utf8SeqLen_narrow (by omega))]
      rfl

theorem oidcPrintableLoop_step (fuel : Nat) (out : List UInt8) (shown : Shown piece rest ch) :
    oidcPrintableLoop (fuel + 1) (piece ++ rest) out =
      oidcPrintableLoop fuel rest (out ++ encode ch) := by
  cases shown with
  | stray c rest high alone =>
    have upper : ¬ c < 0x80 := by
      rw [UInt8.le_iff_toNat_le] at high
      rw [UInt8.lt_iff_toNat_lt]
      exact Nat.not_lt.mpr high
    rw [List.singleton_append, oidcPrintableLoop, if_neg upper, oidcSeq_stray alone]
    rfl
  | char ch rest =>
    by_cases wide : 0x80 ≤ codePoint ch
    · have read := oidcSeq_encode wide rest
      obtain ⟨c, tail, split⟩ := List.exists_cons_of_ne_nil (encode_ne_nil ch)
      have upper : ¬ c < 0x80 := by
        have shape := encode_shape ch
        rw [split] at shape
        rw [UInt8.lt_iff_toNat_lt]
        change ¬ c.toNat < 0x80
        cases shape <;> omega
      rw [shownChar_wide wide]
      have turn : oidcPrintableLoop (fuel + 1) (encode ch ++ rest) out =
          if 0x80 ≤ codePoint ch ∧ codePoint ch ≤ 0x9F then
            oidcPrintableLoop fuel ((encode ch ++ rest).drop (encode ch).length) (out ++ [0x3F])
          else
            oidcPrintableLoop fuel ((encode ch ++ rest).drop (encode ch).length)
              (out ++ (encode ch ++ rest).take (encode ch).length) := by
        rw [split, List.cons_append] at read ⊢
        rw [oidcPrintableLoop, if_neg upper, read]
      rw [turn, List.drop_left, List.take_left]
      by_cases control : codePoint ch ≤ 0x9F
      · rw [if_pos control, if_pos ⟨wide, control⟩]
      · rw [if_neg control, if_neg fun both => control both.2]
    · have narrow := Nat.not_le.mp wide
      obtain ⟨a, same, point⟩ := encode_narrow narrow
      have lower : a < 0x80 := by
        rw [UInt8.lt_iff_toNat_lt, point]
        exact narrow
      have bytes : ∀ a : UInt8, a < 0x80 → (a < 0x20 ∨ a = 0x7F ↔ a < 0x20 ∨ 0x7F ≤ a) := by
        decide +kernel
      rw [shownChar_narrow same point narrow, same, List.singleton_append, oidcPrintableLoop,
        if_pos lower]
      simp only [bytes a lower]

end

section

variable {s : List UInt8} {chars : List Char}

theorem exists_shownAs (s : List UInt8) : ∃ chars, ShownAs s chars := by
  generalize size : s.length = n
  induction n using Nat.strong_induction_on generalizing s with
  | _ n ih =>
    by_cases empty : s = []
    · exact ⟨[], empty ▸ .nil⟩
    · obtain ⟨piece, rest, ch, rfl, shown⟩ := exists_shown empty
      have filled := List.length_pos_iff.mpr shown.ne_nil
      have shorter : rest.length < n := by
        rw [← size, List.length_append]
        omega
      obtain ⟨chars, others⟩ := ih rest.length shorter rest rfl
      exact ⟨ch :: chars, .cons shown others⟩

theorem ShownAs.plain (shown : ShownAs s chars) : ∀ ch ∈ chars, PlainChar ch := by
  induction shown with
  | nil => exact fun ch member => absurd member List.not_mem_nil
  | cons first others ih =>
    intro ch member
    rcases List.mem_cons.mp member with rfl | member
    · exact first.plain
    · exact ih ch member

theorem shownAs_plain (plain : ∀ ch ∈ chars, PlainChar ch) :
    ShownAs (chars.flatMap encode) chars := by
  induction chars with
  | nil => exact .nil
  | cons ch chars ih =>
    have same : shownChar ch = ch := if_pos (plain ch List.mem_cons_self)
    have first := Shown.char ch (chars.flatMap encode)
    rw [same] at first
    exact .cons first (ih fun other member => plain other (List.mem_cons_of_mem ch member))

theorem ShownAs.dup (shown : ShownAs s chars) (fuel : Nat) (out : List UInt8)
    (enough : s.length ≤ fuel) :
    oidcPrintableLoop fuel s out = out ++ chars.flatMap encode := by
  induction shown generalizing fuel out with
  | nil =>
    rw [List.flatMap_nil, List.append_nil]
    cases fuel <;> rfl
  | @cons piece rest ch chars first others ih =>
    have filled := List.length_pos_iff.mpr first.ne_nil
    rw [List.length_append] at enough
    cases fuel with
    | zero => omega
    | succ fuel =>
      rw [oidcPrintableLoop_step fuel out first, ih fuel _ (by omega), List.flatMap_cons,
        List.append_assoc]

theorem ShownAs.escape (shown : ShownAs s chars) (limit fuel : Nat) (out : List UInt8)
    (enough : s.length ≤ fuel) (room : out.length + s.length ≤ limit) :
    escapeLoop utf8SeqLen limit fuel s out = (out ++ chars.flatMap encode, []) := by
  induction shown generalizing fuel out with
  | nil =>
    rw [List.flatMap_nil, List.append_nil]
    cases fuel <;> rfl
  | @cons piece rest ch chars first others ih =>
    have filled := List.length_pos_iff.mpr first.ne_nil
    have shorter := first.length_le
    rw [List.length_append] at enough room
    cases fuel with
    | zero => omega
    | succ fuel =>
      have room' : (out ++ encode ch).length + rest.length ≤ limit := by
        rw [List.length_append]
        omega
      rw [escapeLoop_step limit fuel out first, if_pos (by omega), ih fuel _ (by omega) room',
        List.flatMap_cons, List.append_assoc]

theorem ShownAs.cut (shown : ShownAs s chars) (limit fuel : Nat) (out : List UInt8)
    (enough : s.length ≤ fuel) (room : out.length ≤ limit) :
    ∃ k, (escapeLoop utf8SeqLen limit fuel s out).1 = out ++ (chars.take k).flatMap encode ∧
      (escapeLoop utf8SeqLen limit fuel s out).1.length ≤ limit := by
  induction shown generalizing fuel out with
  | nil =>
    refine ⟨0, ?_⟩
    rw [List.take_zero, List.flatMap_nil, List.append_nil]
    cases fuel <;> exact ⟨rfl, room⟩
  | @cons piece rest ch chars first others ih =>
    have filled := List.length_pos_iff.mpr first.ne_nil
    have shorter := first.length_le
    rw [List.length_append] at enough
    cases fuel with
    | zero => omega
    | succ fuel =>
      rw [escapeLoop_step limit fuel out first]
      by_cases fits : out.length + piece.length ≤ limit
      · rw [if_pos fits]
        have room' : (out ++ encode ch).length ≤ limit := by
          rw [List.length_append]
          omega
        obtain ⟨k, text, bound⟩ := ih fuel _ (by omega) room'
        refine ⟨k + 1, ?_, bound⟩
        rw [text, List.take_succ_cons, List.flatMap_cons, List.append_assoc]
      · rw [if_neg fits]
        exact ⟨0, by simp, room⟩

theorem zero_not_mem_text (plain : ∀ ch ∈ chars, PlainChar ch) : 0 ∉ chars.flatMap encode := by
  intro zero
  obtain ⟨ch, member, inside⟩ := List.mem_flatMap.mp zero
  have visible := (plain ch member).1
  exact zero_not_mem_encode (by omega) inside

end

/-- All three filters print a text in the same way. -/
structure FilteredAs (s : List UInt8) (chars : List Char) : Prop where
  san : ∀ outsz, s.length + 5 ≤ outsz → httpsLogSan s outsz = some (chars.flatMap encode ++ [0])
  escape : ∀ outsz, s.length + 5 ≤ outsz → logEscape s outsz = some (chars.flatMap encode ++ [0])
  dup : oidcPrintableDup s = chars.flatMap encode ++ [0]

/-- A filter with a small buffer prints a front of it. -/
structure CutAs (s : List UInt8) (chars : List Char) (outsz : Nat) : Prop where
  san : ∃ k dots, (dots = [] ∨ dots = ascii "...") ∧
    httpsLogSan s outsz = some ((chars.take k).flatMap encode ++ dots ++ [0]) ∧
    ((chars.take k).flatMap encode ++ dots ++ [0]).length ≤ outsz
  escape : ∃ k, logEscape s outsz = some ((chars.take k).flatMap encode ++ [0]) ∧
    ((chars.take k).flatMap encode ++ [0]).length ≤ outsz

section

variable {s : List UInt8} {chars : List Char}

theorem ShownAs.filtered (shown : ShownAs s chars) (clean : 0 ∉ s) : FilteredAs s chars where
  san := by
    intro outsz large
    have run := shown.escape (outsz - 4) s.length [] (Nat.le_refl _) (by simp; omega)
    have same : escapeLoop httpsUtf8Seq = escapeLoop utf8SeqLen := rfl
    rw [httpsLogSan, if_neg (by omega), if_pos (by omega), same]
    dsimp only
    rw [run]
    simp
  escape := by
    intro outsz large
    have run := shown.escape (outsz - 1) s.length [] (Nat.le_refl _) (by simp; omega)
    rw [logEscape, if_neg (by omega)]
    dsimp only
    rw [cString_of_text clean, run, List.nil_append]
  dup := by
    rw [oidcPrintableDup, cString_of_text clean, shown.dup s.length [] (Nat.le_refl _),
      List.nil_append]

theorem ShownAs.cutAs (shown : ShownAs s chars) (clean : 0 ∉ s) {outsz : Nat} (some : 0 < outsz) :
    CutAs s chars outsz where
  san := by
    have same : escapeLoop httpsUtf8Seq = escapeLoop utf8SeqLen := rfl
    rw [httpsLogSan, if_neg (by omega), same]
    generalize large : (if 4 < outsz then outsz - 4 else 0) = budget
    obtain ⟨k, text, bound⟩ := shown.cut budget s.length [] (Nat.le_refl _) (Nat.zero_le _)
    rw [List.nil_append] at text
    rw [text] at bound
    have dots : (ascii "...").length = 3 := by decide
    dsimp only
    rw [text]
    refine ⟨k, _, ?_, rfl, ?_⟩
    · split
      · exact .inr rfl
      · exact .inl rfl
    · rw [List.length_append, List.length_append, List.length_singleton]
      split
      · rw [dots]
        split_ifs at large <;> omega
      · rw [List.length_nil]
        split_ifs at large <;> omega
  escape := by
    obtain ⟨k, text, bound⟩ := shown.cut (outsz - 1) s.length [] (Nat.le_refl _) (Nat.zero_le _)
    rw [List.nil_append] at text
    refine ⟨k, ?_, ?_⟩
    · rw [logEscape, if_neg (by omega)]
      dsimp only
      rw [cString_of_text clean, text]
    · rw [text] at bound
      rw [List.length_append, List.length_singleton]
      omega

end

/-- The filters agree: they show the same plain text, which is the input if that is plain. -/
theorem terminalFilters_agree (s : List UInt8) (clean : 0 ∉ s) :
    ∃ chars : List Char, FilteredAs s chars ∧
      (∀ ch ∈ chars, PlainChar ch) ∧ 0 ∉ chars.flatMap encode ∧
      (PlainText s → chars.flatMap encode = s) ∧
      FilteredAs (chars.flatMap encode) chars ∧
      ∀ outsz, 0 < outsz → CutAs s chars outsz := by
  obtain ⟨chars, shown⟩ := exists_shownAs s
  have text := zero_not_mem_text shown.plain
  refine ⟨chars, shown.filtered clean, shown.plain, text, ?_,
    (shownAs_plain shown.plain).filtered text, fun outsz some => shown.cutAs clean some⟩
  rintro ⟨own, rfl, plain⟩
  have first := shown.dup _ [] (Nat.le_refl _)
  have second := (shownAs_plain plain).dup _ [] (Nat.le_refl _)
  rw [List.nil_append] at first second
  exact first.symm.trans second

def mixedText : List UInt8 := [0x1B, 0x61, 0xC2, 0x85, 0xFF, 0xC3, 0xA9]

theorem terminalFilters_agree_sample :
    ∃ chars : List Char, FilteredAs mixedText chars ∧ ∀ ch ∈ chars, PlainChar ch := by
  obtain ⟨chars, filtered, plain, _⟩ := terminalFilters_agree mixedText (by decide)
  exact ⟨chars, filtered, plain⟩

/-- Without a buffer nothing is written, not even the NUL byte. -/
theorem logFilters_empty : httpsLogSan (ascii "a") 0 = none ∧ logEscape (ascii "a") 0 = none :=
  ⟨rfl, rfl⟩

end Iwan
