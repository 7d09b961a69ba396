import Iwan.Lib.BigEndian

/- Index loops over a byte buffer that stop at the first byte of a kind. -/
namespace BigEndian

def scan (stop : UInt8 → Bool) (d : List UInt8) (i limit : Nat) : Nat :=
  i + ((d.take limit).drop i).findIdx stop

section

variable {stop : UInt8 → Bool} {d : List UInt8} {i limit : Nat}

theorem window_get (j : Nat) (inside : j < ((d.take limit).drop i).length) :
    ((d.take limit).drop i)[j] = byteAt d (i + j) := by
  rw [List.length_drop, List.length_take] at inside
  rw [byteAt, List.getElem_drop, List.getElem_take, List.getD_eq_getElem _ _ (by omega)]

theorem scan_ge (stop : UInt8 → Bool) (d : List UInt8) (i limit : Nat) :
    i ≤ scan stop d i limit := Nat.le_add_right _ _

theorem scan_le (stop : UInt8 → Bool) (d : List UInt8) (ordered : i ≤ limit) :
    scan stop d i limit ≤ limit := by
  have bound : ((d.take limit).drop i).findIdx stop ≤ ((d.take limit).drop i).length :=
    List.findIdx_le_length
  rw [List.length_drop, List.length_take] at bound
  unfold scan
  omega

theorem scan_passed {j : Nat} (low : i ≤ j) (high : j < scan stop d i limit) :
    stop (byteAt d j) = false := by
  unfold scan at high
  have ahead : j - i < ((d.take limit).drop i).findIdx stop := by omega
  have bound : ((d.take limit).drop i).findIdx stop ≤ ((d.take limit).drop i).length :=
    List.findIdx_le_length
  have skipped := List.not_of_lt_findIdx ahead
  rw [window_get (j - i) (by omega), Nat.add_sub_cancel' low] at skipped
  exact skipped

theorem scan_stopped (inside : limit ≤ d.length) (early : scan stop d i limit < limit) :
    stop (byteAt d (scan stop d i limit)) = true := by
  unfold scan at early ⊢
  have found : ((d.take limit).drop i).findIdx stop < ((d.take limit).drop i).length := by
    rw [List.length_drop, List.length_take]
    omega
  rw [← window_get _ found]
  exact List.findIdx_getElem

theorem scan_eq {k : Nat} (inside : limit ≤ d.length) (low : i ≤ k) (high : k ≤ limit)
    (passed : ∀ j, i ≤ j → j < k → stop (byteAt d j) = false)
    (stopped : k < limit → stop (byteAt d k) = true) : scan stop d i limit = k := by
  have le := scan_le stop d (show i ≤ limit by omega)
  rcases Nat.lt_trichotomy (scan stop d i limit) k with before | same | after
  · have takes := scan_stopped inside (show scan stop d i limit < limit by omega)
    rw [passed _ (scan_ge stop d i limit) before] at takes
    cases takes
  · exact same
  · have takes := stopped (by omega)
    rw [scan_passed low after] at takes
    cases takes

theorem scan_append (more : List UInt8) (inside : limit ≤ d.length) :
    scan stop (d ++ more) i limit = scan stop d i limit := by
  unfold scan
  rw [List.take_append_of_le_length inside]

theorem scan_extend {limit' : Nat} (inside : limit' ≤ d.length) (later : limit ≤ limit')
    (early : scan stop d i limit < limit) : scan stop d i limit' = scan stop d i limit := by
  apply scan_eq inside (scan_ge stop d i limit) (by omega)
  · exact fun j low high => scan_passed low high
  · exact fun _ => scan_stopped (by omega) early

end

end BigEndian
