import Erps.Kernel.Foreign

/-!
# The guard timer of the kernel

No callout clears the guard timer: the next R-APS frame does, however late it comes, by
`TICK_DIFF_MSEC(a, b) < 500`. The macro multiplies by 1000 before it divides by `hz`, in 32 bits. The
product turns negative at 2^31, and from there on the timer, long expired, holds frames back again,
half of the time.
-/

set_option autoImplicit false

namespace Erps.Kernel

open Bytes

variable {hz now : Int32}

/-- `process_raps_frame` discards whatever frame it is given. -/
def Discards (hz now : Int32) (r : Ring Int32) : Prop :=
  ∀ host data origin, processRapsFrame host hz now r data origin = r

/-- An armed guard timer either holds every frame back or is cleared by any. -/
theorem discards_iff {r : Ring Int32} (hg : r.timers.guard.active = true) :
    Discards hz now r ↔ guardHolds hz now r = true := by
  constructor
  · intro h
    by_contra hheld
    have hempty := h .little [] .port0
    rw [processRapsFrame_eq, if_neg hheld, if_pos hg] at hempty
    have hactive : false = r.timers.guard.active :=
      congrArg (fun r : Ring Int32 => r.timers.guard.active) hempty
    rw [hg] at hactive
    cases hactive
  · intro h host data origin
    rw [processRapsFrame_eq, if_pos h]

theorem discards_startGuardTimer_iff (r : Ring Int32) (start : Int32) :
    Discards hz now (r.startGuardTimer start) ↔ (tickDiffMsec hz now start).toInt < 500 := by
  have hheld : guardHolds hz now (r.startGuardTimer start) = true ↔
      tickDiffMsec hz now start < 500 := by
    simp only [guardHolds, Ring.startGuardTimer, Bool.true_and]
    exact decide_eq_true_iff
  rw [discards_iff rfl, hheld, Int32.lt_iff_toInt_lt]
  rfl

/-- The macro on `e` ticks: the product is reduced to 32 bits, and the quotient rounded to zero. -/
theorem toInt_tickDiffMsec (start : Int32) {hz : Nat} (hpos : 1 ≤ hz) (hle : hz ≤ 10000) (e : Nat) :
    (tickDiffMsec (.ofNat hz) (start + .ofNat e) start).toInt =
      (((e * 1000 : Nat) : Int).bmod (2 ^ 32)).tdiv hz := by
  have hhz : (Int32.ofNat hz).toInt = hz := Int32.toInt_ofNat_of_lt (by omega)
  have hne : Int32.ofNat hz ≠ -1 := by
    intro h
    rw [h] at hhz
    have hneg : (-1 : Int32).toInt = -1 := rfl
    omega
  have helapsed : start + Int32.ofNat e - start = Int32.ofNat e := by
    rw [Int32.add_comm, Int32.add_sub_cancel]
  have hprod : Int32.ofNat e * 1000 = Int32.ofNat (e * 1000) := (Int32.ofNat_mul e 1000).symm
  rw [tickDiffMsec, helapsed, hprod, Int32.toInt_div_of_ne_right _ _ hne, hhz, Int32.toInt_ofNat']
  rfl

/-- The comparison of the macro with 500: a product in the upper half of its range is negative. -/
theorem bmod_tdiv_lt_iff {hz : Nat} (hpos : 1 ≤ hz) (m : Nat) :
    ((m : Int).bmod (2 ^ 32)).tdiv hz < 500 ↔ m % 2 ^ 32 < 500 * hz ∨ 2 ^ 31 ≤ m % 2 ^ 32 := by
  by_cases hm : m % 2 ^ 32 < 2 ^ 31
  · have hval : (m : Int).bmod (2 ^ 32) = ((m % 2 ^ 32 : Nat) : Int) := by
      rw [Int.bmod_def]
      omega
    rw [hval, Int.natCast_tdiv_eq_ediv]
    have hdiv : m % 2 ^ 32 / hz < 500 ↔ m % 2 ^ 32 < 500 * hz := Nat.div_lt_iff_lt_mul hpos
    omega
  · have hneg : (m : Int).bmod (2 ^ 32) ≤ 0 := by
      rw [Int.bmod_def]
      omega
    have hquot : 0 ≤ (-(m : Int).bmod (2 ^ 32)).tdiv hz :=
      Int.tdiv_nonneg (by omega) (by omega)
    rw [Int.neg_tdiv] at hquot
    omega

/-- **When the guard timer is right.** -/
theorem guard_expires_iff (r : Ring Int32) (start : Int32) {hz : Nat} (hpos : 1 ≤ hz)
    (hle : hz ≤ 10000) (e : Nat) :
    (Discards (.ofNat hz) (start + .ofNat e) (r.startGuardTimer start) ↔ e * 1000 / hz < 500) ↔
      e * 1000 < 500 * hz ∨ (500 * hz ≤ e * 1000 % 2 ^ 32 ∧ e * 1000 % 2 ^ 32 < 2 ^ 31) := by
  rw [discards_startGuardTimer_iff, toInt_tickDiffMsec start hpos hle, bmod_tdiv_lt_iff hpos,
    Nat.div_lt_iff_lt_mul hpos]
  have hmod : e * 1000 < 500 * hz → e * 1000 % 2 ^ 32 = e * 1000 := by
    intro h
    exact Nat.mod_eq_of_lt (by omega)
  omega

/-- At 1000 ticks a second the timer holds for 499 ticks. -/
theorem guard_expires_plainNode :
    Discards (.ofNat 1000) (0 + .ofNat 499) (plainNode.startGuardTimer 0) := by
  have hpos : 1 ≤ 1000 := by omega
  exact ((guard_expires_iff plainNode 0 hpos (by omega) 499).mpr (.inl (by omega))).mpr (by omega)

/-- At 1000 ticks a second the timer holds again after 2147484 ticks. -/
theorem guard_expires_counterexample :
    ¬ ∀ (r : Ring Int32) (start : Int32) (hz e : Nat), 1 ≤ hz → hz ≤ 10000 → e < 2 ^ 31 →
      (Discards (.ofNat hz) (start + .ofNat e) (r.startGuardTimer start) ↔
        e * 1000 / hz < 500) := by
  intro h
  have hiff := h plainNode 0 1000 2147484 (by omega) (by omega) (by omega)
  rw [discards_startGuardTimer_iff, toInt_tickDiffMsec 0 (by omega) (by omega), bmod_tdiv_lt_iff
    (by omega)] at hiff
  omega

end Erps.Kernel
