import Erps.Lib.Lts
import Mathlib.Logic.Function.Basic

/-!
# Publication in order

Workers take tickets, numbered in the order they are taken, and settle them in any order. A ticket is
published when it and all before it are settled: whoever settles the oldest open ticket publishes it
together with the settled ones behind it. A reader takes what is published, one ticket at a time, and
there are never more than `capacity` tickets that it has not taken.

A `Book` is well formed by construction: behind `tail` everything is settled, and the ticket at `tail`
is open. So when no ticket is open all are published (`Book.tail_eq_length`).
-/

set_option autoImplicit false

namespace Publication

variable {ι α : Type}

/-! ## The first open ticket -/

/-- The first ticket from `t` on that has a worker, looking no further than `fuel` tickets. -/
def firstOpen (worker : Nat → Option ι) : Nat → Nat → Nat
  | 0, t => t
  | fuel + 1, t => if (worker t).isNone then firstOpen worker fuel (t + 1) else t

theorem le_firstOpen (worker : Nat → Option ι) (fuel t : Nat) : t ≤ firstOpen worker fuel t := by
  induction fuel generalizing t with
  | zero => exact Nat.le_refl t
  | succ fuel ih =>
    unfold firstOpen
    split
    · exact Nat.le_trans (Nat.le_succ t) (ih (t + 1))
    · exact Nat.le_refl t

theorem firstOpen_le (worker : Nat → Option ι) (fuel t : Nat) :
    firstOpen worker fuel t ≤ t + fuel := by
  induction fuel generalizing t with
  | zero => exact Nat.le_refl t
  | succ fuel ih =>
    unfold firstOpen
    split
    · have := ih (t + 1)
      omega
    · omega

/-- What is passed over has no worker. -/
theorem worker_of_lt_firstOpen {worker : Nat → Option ι} {fuel t u : Nat} (htu : t ≤ u)
    (hu : u < firstOpen worker fuel t) : worker u = none := by
  induction fuel generalizing t with
  | zero => exact absurd hu (Nat.not_lt.2 htu)
  | succ fuel ih =>
    unfold firstOpen at hu
    split at hu
    · rename_i hnone
      rcases Nat.eq_or_lt_of_le htu with rfl | hlt
      · exact Option.isNone_iff_eq_none.1 hnone
      · exact ih hlt hu
    · exact absurd hu (Nat.not_lt.2 htu)

theorem isSome_worker_firstOpen {worker : Nat → Option ι} {fuel t : Nat}
    (h : firstOpen worker fuel t < t + fuel) : (worker (firstOpen worker fuel t)).isSome = true := by
  induction fuel generalizing t with
  | zero => exact absurd h (Nat.lt_irrefl _)
  | succ fuel ih =>
    unfold firstOpen at h ⊢
    split
    · rename_i hnone
      rw [if_pos hnone] at h
      exact ih (by omega)
    · rename_i hsome
      simpa [Option.isSome_iff_ne_none] using hsome

/-! ## The book -/

/-- The entries in the order of their tickets, who is still at work on which ticket, what has been read
(before `head`) and what is published (before `tail`). -/
structure Book (ι α : Type) where
  log : List α
  worker : Nat → Option ι
  head : Nat
  tail : Nat
  head_le_tail : head ≤ tail
  tail_le_length : tail ≤ log.length
  settled : ∀ t, t < tail → worker t = none
  unused : ∀ t, log.length ≤ t → worker t = none
  isSome_tail : tail < log.length → (worker tail).isSome = true

namespace Book

variable (b : Book ι α)

/-- With no ticket open, everything is published. -/
theorem tail_eq_length (h : ∀ t, b.worker t = none) : b.tail = b.log.length := by
  rcases Nat.lt_or_eq_of_le b.tail_le_length with hlt | heq
  · have hsome := b.isSome_tail hlt
    rw [h b.tail] at hsome
    cases hsome
  · exact heq

theorem lt_length {t : Nat} {i : ι} (h : b.worker t = some i) : t < b.log.length := by
  rcases Nat.lt_or_ge t b.log.length with hlt | hge
  · exact hlt
  · rw [b.unused t hge] at h
    cases h

theorem tail_le {t : Nat} {i : ι} (h : b.worker t = some i) : b.tail ≤ t := by
  rcases Nat.lt_or_ge t b.tail with hlt | hge
  · rw [b.settled t hlt] at h
    cases h
  · exact hge

/-- Worker `i` takes the next ticket. -/
def lease (i : ι) (a : α) : Book ι α where
  log := b.log ++ [a]
  worker := Function.update b.worker b.log.length (some i)
  head := b.head
  tail := b.tail
  head_le_tail := b.head_le_tail
  tail_le_length := by
    have := b.tail_le_length
    simp only [List.length_append, List.length_singleton]
    omega
  settled := by
    intro t ht
    have := b.tail_le_length
    rw [Function.update_of_ne (by omega)]
    exact b.settled t ht
  unused := by
    intro t ht
    simp only [List.length_append, List.length_singleton] at ht
    rw [Function.update_of_ne (by omega)]
    exact b.unused t (by omega)
  isSome_tail := by
    intro _
    rcases Nat.lt_or_eq_of_le b.tail_le_length with hlt | heq
    · rw [Function.update_of_ne (Nat.ne_of_lt hlt)]
      exact b.isSome_tail hlt
    · simp [heq]

@[simp] theorem log_lease (i : ι) (a : α) : (b.lease i a).log = b.log ++ [a] := rfl

@[simp] theorem worker_lease_self (i : ι) (a : α) :
    (b.lease i a).worker b.log.length = some i :=
  Function.update_self _ _ _

theorem worker_lease_of_ne (i : ι) (a : α) {t : Nat} (h : t ≠ b.log.length) :
    (b.lease i a).worker t = b.worker t :=
  Function.update_of_ne h _ _

/-- Who is at work when ticket `t` is settled. -/
def workerAfter (t : Nat) : Nat → Option ι := Function.update b.worker t none

/-- Ticket `t` is settled. If it was the oldest, it is published with the settled ones behind it. -/
def settle (t : Nat) : Book ι α where
  log := b.log
  worker := b.workerAfter t
  head := b.head
  tail := firstOpen (b.workerAfter t) (b.log.length - b.tail) b.tail
  head_le_tail := Nat.le_trans b.head_le_tail (le_firstOpen _ _ _)
  tail_le_length := by
    have := firstOpen_le (b.workerAfter t) (b.log.length - b.tail) b.tail
    have := b.tail_le_length
    omega
  settled := by
    intro u hu
    rcases Nat.lt_or_ge u b.tail with hlt | hge
    · unfold workerAfter
      by_cases hut : u = t
      · simp [hut]
      · rw [Function.update_of_ne hut]
        exact b.settled u hlt
    · exact worker_of_lt_firstOpen hge hu
  unused := by
    intro u hu
    unfold workerAfter
    by_cases hut : u = t
    · simp [hut]
    · rw [Function.update_of_ne hut]
      exact b.unused u hu
  isSome_tail := by
    intro h
    have := b.tail_le_length
    exact isSome_worker_firstOpen (by omega)

@[simp] theorem worker_settle_self (t : Nat) : (b.settle t).worker t = none :=
  Function.update_self _ _ _

theorem worker_settle_of_ne {t u : Nat} (h : u ≠ t) : (b.settle t).worker u = b.worker u :=
  Function.update_of_ne h _ _

/-- A younger ticket is settled: nothing is published. -/
theorem tail_settle_of_ne {t : Nat} (h : t ≠ b.tail) : (b.settle t).tail = b.tail := by
  change firstOpen (b.workerAfter t) (b.log.length - b.tail) b.tail = b.tail
  cases hfuel : b.log.length - b.tail with
  | zero => rfl
  | succ fuel =>
    have hsome := b.isSome_tail (by omega)
    unfold firstOpen workerAfter
    rw [Function.update_of_ne h.symm, if_neg (by simp [Option.isSome_iff_ne_none.1 hsome])]

/-- The oldest ticket is settled: it is published. -/
theorem tail_lt_tail_settle (h : b.tail < b.log.length) : b.tail < (b.settle b.tail).tail := by
  refine Nat.lt_of_le_of_ne (le_firstOpen _ _ _) ?_
  intro heq
  have hsome := (b.settle b.tail).isSome_tail (heq ▸ h)
  rw [← heq] at hsome
  simp [settle, workerAfter] at hsome

/-- The reader takes the next published entry. -/
def read (h : b.head < b.tail) : Book ι α :=
  { b with head := b.head + 1, head_le_tail := h }

end Book

/-! ## The system -/

inductive Action (ι α : Type)
  | lease (i : ι) (a : α)
  | settle (t : Nat)
  | read

/-- **Publication in order.** A worker has one ticket at a time, and at most `capacity` tickets are
ahead of the reader. -/
def publication (ι α : Type) (capacity : Nat) : Lts (Book ι α) (Action ι α) where
  init b := b.tail = b.log.length ∧ b.log.length ≤ b.head + capacity
  step b l b' :=
    match l with
    | .lease i a =>
      b.log.length < b.head + capacity ∧ (∀ t, b.worker t ≠ some i) ∧ b' = b.lease i a
    | .settle t => (b.worker t).isSome = true ∧ b' = b.settle t
    | .read => ∃ h : b.head < b.tail, b' = b.read h

section Reachable

variable {capacity : Nat} {b : Book ι α} (hb : (publication ι α capacity).Reachable b)
include hb

/-- The reader is never left behind by more than the capacity. -/
theorem length_le : b.log.length ≤ b.head + capacity := by
  refine hb.invariant (I := fun b => b.log.length ≤ b.head + capacity) ?_ ?_
  · intro b h
    exact h.2
  · intro b l b' _ hle hst
    cases l with
    | lease i a =>
      obtain ⟨hlt, _, rfl⟩ := hst
      simp only [Book.lease, List.length_append, List.length_singleton]
      omega
    | settle t =>
      obtain ⟨_, rfl⟩ := hst
      exact hle
    | read =>
      obtain ⟨h, rfl⟩ := hst
      simp only [Book.read]
      omega

/-- A worker has one ticket at a time. -/
theorem worker_inj {t u : Nat} {i : ι} (ht : b.worker t = some i) (hu : b.worker u = some i) :
    t = u := by
  revert t u i
  refine hb.invariant (I := fun b => ∀ {t u : Nat} {i : ι}, b.worker t = some i →
    b.worker u = some i → t = u) ?_ ?_
  · intro b h t u i ht
    have hlt := b.lt_length ht
    have hle := b.tail_le ht
    exact absurd hlt (Nat.not_lt.2 (h.1 ▸ hle))
  · intro b l b' _ hinj hst t u i ht hu
    cases l with
    | lease j a =>
      obtain ⟨_, hnew, rfl⟩ := hst
      simp only [Book.lease, Function.update_apply] at ht hu
      split at ht <;> split at hu
      · omega
      · cases ht
        exact absurd hu (hnew u)
      · cases hu
        exact absurd ht (hnew t)
      · exact hinj ht hu
    | settle v =>
      obtain ⟨_, rfl⟩ := hst
      simp only [Book.settle, Book.workerAfter, Function.update_apply] at ht hu
      split at ht <;> split at hu
      · cases ht
      · cases ht
      · cases hu
      · exact hinj ht hu
    | read =>
      obtain ⟨h, rfl⟩ := hst
      exact hinj ht hu

end Reachable

end Publication
