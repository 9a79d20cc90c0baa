import Mathlib.Data.Fin.Basic

/-!
# Positions round a ring

A ring of `m + 1` places, visited over and over: the `k`-th visit is to `pos m k`. Within one round
the visits are to different places (`pos_inj`), and how far one place is behind another is how many
visits lie between (`dist_pos`), as long as these are of one round.
-/

set_option autoImplicit false

namespace Cyclic

variable (m : Nat)

/-- The place of the `k`-th visit. -/
def pos (k : Nat) : Fin (m + 1) := Fin.ofNat (m + 1) k

variable {m}

/-- How many places `j` is ahead of `i`. -/
def dist (i j : Fin (m + 1)) : Nat := (j.val + (m + 1) - i.val) % (m + 1)

@[simp] theorem val_pos (k : Nat) : (pos m k).val = k % (m + 1) := rfl

@[simp] theorem pos_val (i : Fin (m + 1)) : pos m i.val = i := by
  apply Fin.ext
  rw [val_pos, Nat.mod_eq_of_lt i.isLt]

/-- The place `d` visits on. -/
theorem pos_val_add (k d : Nat) : pos m ((pos m k).val + d) = pos m (k + d) := by
  apply Fin.ext
  simp [Nat.add_mod]

theorem pos_add_round (k : Nat) : pos m (k + m + 1) = pos m k := by
  apply Fin.ext
  rw [val_pos, val_pos, Nat.add_assoc, Nat.add_mod_right]

/-- The visits of one round are to different places. -/
theorem pos_inj {k k' : Nat} (hle : k ≤ k') (hround : k' ≤ k + m) :
    pos m k = pos m k' ↔ k = k' := by
  constructor
  · intro h
    have h : k' % (m + 1) = k % (m + 1) := congrArg Fin.val h.symm
    have hzero := Nat.sub_mod_eq_zero_of_mod_eq h
    rw [Nat.mod_eq_of_lt (by omega)] at hzero
    omega
  · intro h
    rw [h]

theorem pos_ne {k k' : Nat} (hne : k ≠ k') (h : k' ≤ k + m) (h' : k ≤ k' + m) :
    pos m k ≠ pos m k' := by
  rcases Nat.le_total k k' with hle | hle
  · exact fun heq => hne ((pos_inj hle h).1 heq)
  · exact fun heq => hne ((pos_inj hle h').1 heq.symm).symm

theorem dist_pos {k k' : Nat} (hle : k ≤ k') (hround : k' ≤ k + m) :
    dist (pos m k) (pos m k') = k' - k := by
  obtain ⟨d, rfl⟩ := Nat.exists_eq_add_of_le hle
  have hk : k % (m + 1) < m + 1 := Nat.mod_lt k (Nat.succ_pos m)
  have hd : d % (m + 1) = d := Nat.mod_eq_of_lt (by omega)
  simp only [dist, val_pos, Nat.add_mod k d, hd, Nat.add_sub_cancel_left]
  rcases Nat.lt_or_ge (k % (m + 1) + d) (m + 1) with hlt | hge
  · have hsub : k % (m + 1) + d + (m + 1) - k % (m + 1) = d + (m + 1) := by omega
    rw [Nat.mod_eq_of_lt hlt, hsub, Nat.add_mod_right, hd]
  · have hwrap : (k % (m + 1) + d) % (m + 1) = k % (m + 1) + d - (m + 1) := by
      rw [Nat.mod_eq_sub_mod hge, Nat.mod_eq_of_lt (by omega)]
    have hsub : k % (m + 1) + d - (m + 1) + (m + 1) - k % (m + 1) = d := by omega
    rw [hwrap, hsub, hd]

theorem dist_le (i j : Fin (m + 1)) : dist i j ≤ m :=
  Nat.le_of_lt_succ (Nat.mod_lt _ (Nat.succ_pos m))

/-- `dist i j` visits after `i` comes `j`. -/
theorem pos_add_dist (i j : Fin (m + 1)) : pos m (i.val + dist i j) = j := by
  apply Fin.ext
  have hi := i.isLt
  have hsum : i.val + (j.val + (m + 1) - i.val) = j.val + (m + 1) := by omega
  rw [val_pos, dist, Nat.add_mod_mod, hsum, Nat.add_mod_right, Nat.mod_eq_of_lt j.isLt]

/-- The places from `i` on, up to but not including `j`. -/
def between (i j : Fin (m + 1)) : List (Fin (m + 1)) :=
  (List.range (dist i j)).map fun d => pos m (i.val + d)

theorem between_pos {k k' : Nat} (hle : k ≤ k') (hround : k' ≤ k + m) :
    between (pos m k) (pos m k') = (List.range (k' - k)).map fun d => pos m (k + d) := by
  simp only [between, dist_pos hle hround, pos_val_add]

end Cyclic
