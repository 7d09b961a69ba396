import Mathlib

/- Clock readings (port.c, port_now_ms). -/
namespace Iwan

/-- A reading of now_ms: at most a thousandth of a 64-bit count of microseconds. -/
structure NowMs where
  ms : UInt64
  inRange : ms.toNat ≤ 2 ^ 64 / 1000

def NowMs.time (now : NowMs) : Nat := now.ms.toNat

theorem add_toNat_of_le (now : NowMs) (start span : UInt64) (before : start ≤ now.ms)
    (short : span.toNat ≤ 2 ^ 32) : (start + span).toNat = start.toNat + span.toNat := by
  have range := now.inRange
  have order := UInt64.le_iff_toNat_le.mp before
  rw [UInt64.toNat_add]
  omega

end Iwan
