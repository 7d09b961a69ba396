import Mathlib

/- One's complement sums (RFC 1071): the exact sum modulo 2^16 - 1. -/
namespace OnesComplement

def words : List UInt8 → List Nat
  | [] => []
  | [a] => [a.toNat * 256]
  | a :: b :: rest => (a.toNat * 256 + b.toNat) :: words rest

def wordSum (bytes : List UInt8) : Nat := (words bytes).sum

def add (x y : Nat) : Nat := if x + y < 65536 then x + y else x + y - 65535

def sum (bytes : List UInt8) : Nat := (words bytes).foldl add 0

def reduce (n : Nat) : Nat := if n = 0 then 0 else (n - 1) % 65535 + 1

theorem reduce_le (n : Nat) : reduce n ≤ 65535 := by
  unfold reduce
  split <;> omega

theorem reduce_of_le {n : Nat} (small : n ≤ 65535) : reduce n = n := by
  unfold reduce
  split <;> omega

theorem add_reduce {w : Nat} (n : Nat) (small : w ≤ 65535) : add (reduce n) w = reduce (n + w) := by
  unfold add reduce
  split_ifs <;> omega

theorem reduce_carry (n : Nat) : reduce (n % 65536 + n / 65536) = reduce n := by
  unfold reduce
  split_ifs <;> omega

theorem words_le (bytes : List UInt8) : ∀ w ∈ words bytes, w ≤ 65535 := by
  induction bytes using words.induct with
  | case1 => simp [words]
  | case2 a =>
    have := a.toNat_lt
    simp [words]
    omega
  | case3 a b rest ih =>
    have := a.toNat_lt
    have := b.toNat_lt
    simp only [words, List.mem_cons, forall_eq_or_imp]
    exact ⟨by omega, ih⟩

theorem sum_eq_reduce (bytes : List UInt8) : sum bytes = reduce (wordSum bytes) := by
  have fold : ∀ (l : List Nat) (n : Nat), (∀ w ∈ l, w ≤ 65535) →
      l.foldl add (reduce n) = reduce (n + l.sum) := by
    intro l
    induction l with
    | nil => exact fun n _ => rfl
    | cons w l ih =>
      intro n small
      obtain ⟨first, rest⟩ := List.forall_mem_cons.mp small
      rw [List.foldl_cons, add_reduce n first, ih _ rest, List.sum_cons, Nat.add_assoc]
  rw [sum, wordSum, ← Nat.zero_add (words bytes).sum]
  exact fold (words bytes) 0 (words_le bytes)

theorem wordSum_append {a : List UInt8} (b : List UInt8) (even : a.length % 2 = 0) :
    wordSum (a ++ b) = wordSum a + wordSum b := by
  induction a using words.induct with
  | case1 => simp [wordSum, words]
  | case2 x => cases even
  | case3 x y rest ih =>
    have later := ih (by simp only [List.length_cons] at even; omega)
    simp only [wordSum, words, List.cons_append, List.sum_cons] at later ⊢
    omega

theorem wordSum_le (bytes : List UInt8) : wordSum bytes ≤ 65535 * ((bytes.length + 1) / 2) := by
  have count : (words bytes).length = (bytes.length + 1) / 2 := by
    induction bytes using words.induct with
    | case1 => rfl
    | case2 a => simp [words]
    | case3 a b rest ih =>
      simp only [words, List.length_cons, ih]
      omega
  rw [wordSum, ← count, Nat.mul_comm, ← smul_eq_mul]
  exact List.sum_le_card_nsmul _ _ (words_le bytes)

/-- The bytes behind the first `k`, as they stand in the words of the whole. -/
def aligned (k : Nat) (rest : List UInt8) : List UInt8 := if k % 2 = 0 then rest else 0 :: rest

theorem wordSum_split (bytes : List UInt8) (k : Nat) :
    wordSum bytes = wordSum (bytes.take k) + wordSum (aligned k (bytes.drop k)) := by
  induction bytes using words.induct generalizing k with
  | case1 =>
    rw [List.take_nil, List.drop_nil, aligned]
    split <;> simp [wordSum, words]
  | case2 a =>
    cases k with
    | zero => simp [aligned, wordSum, words]
    | succ k =>
      rw [List.take_succ_cons, List.take_nil, List.drop_succ_cons, List.drop_nil, aligned]
      split <;> simp [wordSum, words]
  | case3 a b rest ih =>
    match k with
    | 0 => simp [aligned, wordSum, words]
    | 1 => simp [aligned, wordSum, words, Nat.add_assoc]
    | k + 2 =>
      have later := ih k
      have parity : aligned (k + 2) (rest.drop k) = aligned k (rest.drop k) := by
        rw [aligned, aligned, Nat.add_mod_right]
      rw [List.take_succ_cons, List.take_succ_cons, List.drop_succ_cons, List.drop_succ_cons,
        parity]
      simp only [wordSum, words, List.sum_cons] at later ⊢
      omega

theorem reduce_eq_full {n : Nat} (positive : n ≠ 0) : reduce n = 65535 ↔ 65535 ∣ n := by
  rw [reduce, if_neg positive]
  omega

theorem reduce_complement (n : Nat) : reduce (n + (65535 - reduce n)) = 65535 := by
  unfold reduce
  split_ifs <;> omega

end OnesComplement
