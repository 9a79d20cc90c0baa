import Erps.Kernel.Inject

/-!
# Who may touch which slot

Two critical sections are all that `netmap_bdg_inject` takes the queue lock for; the copy between them
is not locked. It need not be: a slot that is being written is nobody else's (`exclusive`), and one the
consumer can see is written no more (`never_rewritten`). Nor is a wake-up lost: a call that makes
anything visible is the one that held the oldest hidden slot, and it notifies (`notified`).
-/

set_option autoImplicit false

namespace Erps.Kernel.Inject

open Cyclic Publication

variable {lim : Nat} {ι : Type}

/-! ## The slots in sight -/

namespace Represents

variable {s₀ c₀ bufSize : Nat} {s : State ι lim} {b : Book ι Entry}
  (h : Represents s₀ c₀ bufSize s b) (hb : (publication ι Entry lim).Reachable b)
include h

theorem length_taken : s.taken.length = b.head := by
  have hhead := b.head_le_tail
  have htail := b.tail_le_length
  rw [h.taken.length_eq, List.length_take]
  omega

include hb

theorem between_eq : between s.kring.nrHwcur s.kring.nrHwtail =
    (List.range (b.tail - b.head)).map fun d => pos lim (s₀ + b.head + d) := by
  have hround := length_le hb
  have hhead := b.head_le_tail
  have htail := b.tail_le_length
  rw [h.hwcur, h.hwtail, between_pos (by omega) (by omega), Nat.add_sub_add_left]

theorem window_eq : s.kring.window =
    (List.range (b.tail - b.head)).map fun d => s.kring.slot (pos lim (s₀ + b.head + d)) := by
  rw [Kring.window, h.between_eq hb, List.map_map]
  rfl

/-- The slot of a ticket is out of sight. -/
theorem notMem_between {t : Nat} {i : ι} (ht : b.worker t = some i) :
    pos lim (s₀ + t) ∉ between s.kring.nrHwcur s.kring.nrHwtail := by
  have hhead := b.head_le_tail
  have htail := b.tail_le ht
  have hlen := b.lt_length ht
  rw [h.between_eq hb, List.mem_map]
  intro hmem
  obtain ⟨d, hd, heq⟩ := hmem
  rw [List.mem_range] at hd
  rw [Nat.add_assoc] at heq
  exact slot_ne s₀ hb (show b.head + d ≠ t by omega) (by omega) (by omega) (by omega) hlen heq

/-- What is left of the ring. -/
theorem nmKrSpace_eq : s.kring.nmKrSpace = b.head + lim - b.log.length := by
  have hround := length_le hb
  have hhead := b.head_le_tail
  have htail := b.tail_le_length
  rw [Kring.nmKrSpace, h.hwcur, h.hwlease, dist_pos (by omega) (by omega)]
  omega

/-- What is in sight is extended by what a ticket publishes. -/
theorem window_settle (t : Nat) {leases : Fin (lim + 1) → Option (Fin (lim + 1))} :
    Kring.window { s.kring with
        nkrLeases := leases, nrHwtail := pos lim (s₀ + (b.settle t).tail) } =
      s.kring.window ++ (List.range ((b.settle t).tail - b.tail)).map
        fun d => s.kring.slot (pos lim (s₀ + b.tail + d)) := by
  have hround := length_le hb
  have hhead := b.head_le_tail
  have hlater : b.tail ≤ (b.settle t).tail := le_firstOpen _ _ _
  have hlen : (b.settle t).tail ≤ b.log.length := (b.settle t).tail_le_length
  rw [h.window_eq hb]
  show (between s.kring.nrHwcur (pos lim (s₀ + (b.settle t).tail))).map s.kring.slot = _
  have hsplit : (b.settle t).tail - b.head = (b.tail - b.head) + ((b.settle t).tail - b.tail) := by
    omega
  rw [h.hwcur, between_pos (by omega) (by omega), Nat.add_sub_add_left, hsplit, List.range_add,
    List.map_append, List.map_append, List.map_map, List.map_map, List.map_map]
  refine congrArg _ (List.map_congr_left ?_)
  intro d _
  simp only [Function.comp_apply]
  congr 2
  omega

end Represents

/-! ## Exclusion -/

/-- Between its two critical sections a call has its slot and its lease to itself, and the consumer does
not see the slot. What is leased and not in sight waits for one call, the one with the oldest slot; and
a slot is to be had as long as fewer than `lim` are leased or in sight. -/
structure Exclusive (s : State ι lim) : Prop where
  apart : ∀ i j slotIdx leaseIdx data done slotIdx' leaseIdx' data' done', i ≠ j →
    s.call i = .copying slotIdx leaseIdx data done →
    s.call j = .copying slotIdx' leaseIdx' data' done' → slotIdx ≠ slotIdx' ∧ leaseIdx ≠ leaseIdx'
  out_of_sight : ∀ i slotIdx leaseIdx data done,
    s.call i = .copying slotIdx leaseIdx data done →
    slotIdx ∉ between s.kring.nrHwcur s.kring.nrHwtail
  waits : s.kring.nrHwtail ≠ s.kring.nkrHwlease →
    ∃ i leaseIdx data done, s.call i = .copying s.kring.nrHwtail leaseIdx data done
  leased_iff : s.kring.lease.isSome = true ↔
    s.kring.nkrStopped = false ∧ s.log.length < s.taken.length + lim

/-- **A slot under copy is nobody else's.** -/
theorem exclusive [DecidableEq ι] {bufSize : Nat} {s : State ι lim}
    (h : (injection ι lim bufSize).Reachable s) : Exclusive s := by
  obtain ⟨b, hb, s₀, c₀, hR⟩ := represents_of_reachable h
  have hround := length_le hb
  have hhead := b.head_le_tail
  constructor
  · intro i j slotIdx leaseIdx data done slotIdx' leaseIdx' data' done' hij hi hj
    obtain ⟨t, ht, rfl, rfl, _, _⟩ := hR.exists_worker hi
    obtain ⟨u, hu, rfl, rfl, _, _⟩ := hR.exists_worker hj
    have htu : t ≠ u := by
      intro htu
      subst htu
      exact hij (Option.some.inj (ht.symm.trans hu))
    have htail := b.tail_le ht
    have hutail := b.tail_le hu
    have hlen := b.lt_length ht
    have hulen := b.lt_length hu
    exact ⟨slot_ne s₀ hb htu (by omega) (by omega) hlen hulen,
      pos_ne (by omega) (by omega) (by omega)⟩
  · intro i slotIdx leaseIdx data done hi
    obtain ⟨t, ht, rfl, _⟩ := hR.exists_worker hi
    exact hR.notMem_between hb ht
  · intro hne
    have hlt : b.tail < b.log.length := by
      refine Nat.lt_of_le_of_ne b.tail_le_length ?_
      intro heq
      rw [hR.hwtail, hR.hwlease, heq] at hne
      exact hne rfl
    obtain ⟨i, hi⟩ := Option.isSome_iff_exists.mp (b.isSome_tail hlt)
    obtain ⟨data, done, hcall, _⟩ := hR.atWork b.tail i hi
    exact ⟨i, pos lim (c₀ + b.tail), data, done, by rw [hcall, hR.hwtail]⟩
  · have hspace := hR.nmKrSpace_eq hb
    rw [hR.length_taken, hR.log]
    unfold Kring.lease
    cases s.kring.nkrStopped with
    | true => simp
    | false =>
      simp only [Bool.false_eq_true, if_false, true_and]
      by_cases hzero : s.kring.nmKrSpace = 0
      · simp [hzero]
        omega
      · simp only [if_neg hzero, Option.isSome_some, true_iff]
        omega

theorem reachable_unusedRing {s : State Bool 2} {es : List (Event Bool)}
    (h : Lts.exec (handle 4) unusedRing es = some s) : (injection Bool 2 4).Reachable s :=
  ⟨unusedRing, es, fresh_unusedRing, Lts.run_of_exec h⟩

/-- Two calls copy at the same time. -/
theorem exclusive_twoCalls :
    ∃ s, Lts.exec (handle 4) unusedRing [.lease false shortFrame, .lease true longFrame] = some s ∧
      Exclusive s := by
  have hrun : ∃ s,
      Lts.exec (handle 4) unusedRing [.lease false shortFrame, .lease true longFrame] = some s :=
    ⟨_, rfl⟩
  obtain ⟨s, hs⟩ := hrun
  exact ⟨s, hs, exclusive (reachable_unusedRing hs)⟩

/-! ## What the consumer has seen -/

/-- All that has ever been in the consumer's sight, as it is or was when it was taken. -/
def State.seen (s : State ι lim) : List Slot := s.taken ++ s.kring.window

/-- A step adds to what has been seen, and changes nothing of it. -/
theorem seen_prefix_of_step [DecidableEq ι] {bufSize : Nat} {s t : State ι lim}
    (h : (injection ι lim bufSize).Reachable s) (hst : Step bufSize s t) : s.seen <+: t.seen := by
  obtain ⟨b, hb, s₀, c₀, hR⟩ := represents_of_reachable h
  cases hst with
  | refused | stop => exact List.prefix_refl _
  | lease data hi hlease =>
    obtain ⟨_, _, hkring⟩ := Kring.lease_cases hlease
    cases hkring
    exact List.prefix_refl _
  | @store i slotIdx leaseIdx data done hi =>
    have hout := (exclusive h).out_of_sight i slotIdx leaseIdx data done hi
    refine ⟨[], (List.append_nil _).trans (congrArg (s.taken ++ ·) (List.map_congr_left ?_))⟩
    intro j hj
    have hne : j ≠ slotIdx := by
      intro heq
      subst heq
      exact hout hj
    exact (Function.update_of_ne hne _ _).symm
  | complete hi hcomplete =>
    obtain ⟨u, hu, rfl, rfl, _, _⟩ := hR.exists_worker hi
    obtain ⟨leases, notify, heq, _⟩ := hR.complete_eq hb hu
    rw [heq] at hcomplete
    cases hcomplete
    show s.taken ++ s.kring.window <+: s.taken ++ Kring.window _
    rw [hR.window_settle hb u, ← List.append_assoc]
    exact List.prefix_append _ _
  | consume hne =>
    obtain ⟨hlt, hR'⟩ := hR.consume hne
    have hb' : (publication ι Entry lim).Reachable (b.read hlt) :=
      hb.step (e := .read) ⟨hlt, rfl⟩
    have hwindow : s.kring.window = s.kring.slot s.kring.nrHwcur ::
        Kring.window { s.kring with nrHwcur := nmNext s.kring.nrHwcur } := by
      have htail : b.tail - b.head = (b.tail - (b.head + 1)) + 1 := by omega
      have hnext := hR'.window_eq hb'
      rw [hR.window_eq hb, htail, List.range_succ_eq_map, List.map_cons, List.map_map]
      refine congrArg₂ List.cons (by rw [hR.hwcur]; rfl) (Eq.trans ?_ hnext.symm)
      refine List.map_congr_left ?_
      intro d _
      show s.kring.slot _ = s.kring.slot _
      congr 2
      show s₀ + b.head + (d + 1) = s₀ + (b.head + 1) + d
      omega
    refine ⟨[], (List.append_nil _).trans ?_⟩
    show s.taken ++ s.kring.window = s.taken ++ [s.kring.slot s.kring.nrHwcur] ++ Kring.window _
    rw [hwindow, List.append_assoc]
    rfl

/-- **What is in sight is not written any more.** -/
theorem never_rewritten [DecidableEq ι] {bufSize : Nat} {s t : State ι lim} {es : List (Event ι)}
    (hs : (injection ι lim bufSize).Reachable s) (hr : (injection ι lim bufSize).Run s es t) :
    s.seen <+: t.seen := by
  have hkeep : (injection ι lim bufSize).Reachable t ∧ s.seen <+: t.seen := by
    refine hr.invariant (I := fun t => (injection ι lim bufSize).Reachable t ∧ s.seen <+: t.seen) ?_
      ⟨hs, List.prefix_refl _⟩
    intro t e u hI hst
    obtain ⟨ht, hle⟩ := hI
    exact ⟨ht.step hst, hle.trans (seen_prefix_of_step ht (step_of_handle hst))⟩
  exact hkeep.2

/-- The frames of two calls stay what they are while a third is copied. -/
theorem never_rewritten_twoCalls :
    ∃ s t, Lts.exec (handle 4) unusedRing twoCalls = some s ∧
      Lts.exec (handle 4) s [.consume, .lease false longFrame, .store false] = some t ∧
      s.seen <+: t.seen := by
  have hrun : ∃ s t, Lts.exec (handle 4) unusedRing twoCalls = some s ∧
      Lts.exec (handle 4) s [.consume, .lease false longFrame, .store false] = some t :=
    ⟨_, _, rfl, rfl⟩
  obtain ⟨s, t, hs, ht⟩ := hrun
  exact ⟨s, t, hs, ht, never_rewritten (reachable_unusedRing hs) (Lts.run_of_exec ht)⟩

/-! ## Wake-ups -/

/-- The consumer is notified exactly if the end of what it may look at moves. -/
theorem Kring.notify_iff {kring kring' : Kring lim} {slotIdx leaseIdx : Fin (lim + 1)} {notify : Bool}
    (h : kring.complete slotIdx leaseIdx = some (kring', notify)) :
    notify = true ↔ kring'.nrHwtail ≠ kring.nrHwtail := by
  unfold Kring.complete at h
  simp only at h
  split at h
  · rename_i htail
    split at h
    · cases h
    · split at h
      · rename_i hne
        cases h
        simpa [← htail] using hne
      · cases h
        simp
  · cases h
    simp

/-- **No wake-up is lost.** A call that hands over its slot gets through, adds to what the consumer may
look at, if anything, and notifies it exactly if it does; and that is the call with the oldest hidden
slot. -/
theorem notified [DecidableEq ι] {bufSize : Nat} {s : State ι lim} {i : ι}
    {slotIdx leaseIdx : Fin (lim + 1)} {data : List UInt8}
    (h : (injection ι lim bufSize).Reachable s)
    (hi : s.call i = .copying slotIdx leaseIdx data (stores bufSize data)) :
    ∃ kring notify, s.kring.complete slotIdx leaseIdx = some (kring, notify) ∧
      s.kring.window <+: kring.window ∧ (notify = true ↔ s.kring.window ≠ kring.window) ∧
      (notify = true ↔ slotIdx = s.kring.nrHwtail) := by
  obtain ⟨b, hb, s₀, c₀, hR⟩ := represents_of_reachable h
  obtain ⟨t, ht, rfl, rfl, _, _⟩ := hR.exists_worker hi
  obtain ⟨leases, notify, heq, _⟩ := hR.complete_eq hb ht
  refine ⟨_, notify, heq, ?_⟩
  have hnotify := Kring.notify_iff heq
  have hround := length_le hb
  have hhead := b.head_le_tail
  have htail := b.tail_le ht
  have hlen := b.lt_length ht
  have hlater : (b.settle t).tail ≤ b.log.length := (b.settle t).tail_le_length
  have hoff : (notify = true ↔ t = b.tail) := by
    rw [hnotify]
    show pos lim (s₀ + (b.settle t).tail) ≠ s.kring.nrHwtail ↔ t = b.tail
    rw [hR.hwtail]
    by_cases hold : t = b.tail
    · subst hold
      have hlt := b.tail_lt_tail_settle hlen
      exact iff_of_true (pos_ne (by omega) (by omega) (by omega)) rfl
    · rw [b.tail_settle_of_ne hold]
      exact iff_of_false (fun hne => hne rfl) hold
  rw [hR.window_settle hb t, hoff]
  refine ⟨List.prefix_append _ _, ?_, ?_⟩
  · rw [ne_comm, ne_eq, List.append_right_eq_self, List.map_eq_nil_iff, List.range_eq_nil]
    by_cases hold : t = b.tail
    · subst hold
      have hlt := b.tail_lt_tail_settle hlen
      exact iff_of_true rfl (by omega)
    · rw [b.tail_settle_of_ne hold]
      simp [hold]
  · rw [hR.hwtail]
    by_cases hold : t = b.tail
    · simp [hold]
    · exact iff_of_false hold (pos_ne (by omega) (by omega) (by omega))

/-- The first of two calls is done last, and notifies. -/
theorem notified_twoCalls :
    ∃ s kring, Lts.exec (handle 4) unusedRing twoCalls.dropLast = some s ∧
      s.kring.complete (pos 2 0) (pos 2 2) = some (kring, true) ∧
      s.kring.window ≠ kring.window := by
  have hrun : ∃ s, Lts.exec (handle 4) unusedRing twoCalls.dropLast = some s ∧
      s.call false = .copying (pos 2 0) (pos 2 2) shortFrame 5 ∧ s.kring.nrHwtail = pos 2 0 :=
    ⟨_, rfl, rfl, rfl⟩
  obtain ⟨s, hs, hcall, htail⟩ := hrun
  obtain ⟨kring, notify, hcomplete, _, hmore, hfirst⟩ :=
    notified (reachable_unusedRing hs) hcall
  obtain rfl := hfirst.mpr htail.symm
  exact ⟨s, kring, hs, hcomplete, hmore.mp rfl⟩

end Erps.Kernel.Inject
