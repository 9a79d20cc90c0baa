import Erps.Lib.Cyclic
import Erps.Lib.Publication
import Mathlib.Data.List.Forall2

/-!
# Frames put into a receive ring: `netmap_bdg_inject`

The function that the netmap patch adds. A call takes the queue lock twice: once to lease a slot and
once to hand it over; in between it copies its frame into the slot, one store at a time, while other
calls and the consumer go on. Whoever hands over the oldest slot also hands over the finished ones
behind it.

The leases are a ring of their own, with an index that has nothing to do with that of the slots. Seen
from outside, though, the calls are workers with tickets and the ring is a book of them
(`represents_of_reachable`): ticket `t` has the slot `t` places after the first one, and the lease `t`
places after the first one of those.
-/

set_option autoImplicit false

namespace Erps.Kernel.Inject

open Cyclic Publication

/-! ## The ring -/

/-- `struct netmap_slot`, and the buffer it stands for. -/
structure Slot where
  buf : Nat → UInt8
  len : Nat
  flags : Nat

/-- `struct netmap_kring` and the slots of its ring, of which `lim` is the last. In `nkrLeases`,
`none` is `NR_NOSLOT`. -/
structure Kring (lim : Nat) where
  slot : Fin (lim + 1) → Slot
  nrHwcur : Fin (lim + 1)
  nrHwtail : Fin (lim + 1)
  nkrHwlease : Fin (lim + 1)
  nkrLeaseIdx : Fin (lim + 1)
  nkrLeases : Fin (lim + 1) → Option (Fin (lim + 1))
  nkrStopped : Bool

variable {lim : Nat} {ι : Type}

/-- `nm_next`. -/
def nmNext (i : Fin (lim + 1)) : Fin (lim + 1) :=
  if h : i.val = lim then ⟨0, Nat.succ_pos lim⟩
  else ⟨i.val + 1, Nat.succ_lt_succ (Nat.lt_of_le_of_ne (Nat.le_of_lt_succ i.isLt) h)⟩

theorem nmNext_pos (k : Nat) : nmNext (pos lim k) = pos lim (k + 1) := by
  have hk : k % (lim + 1) < lim + 1 := Nat.mod_lt k (Nat.succ_pos lim)
  apply Fin.ext
  rw [val_pos, nmNext, ← Nat.mod_add_mod]
  split
  · rename_i hlast
    rw [val_pos] at hlast
    rw [hlast, Nat.mod_self]
  · rename_i hlast
    rw [val_pos] at hlast
    exact (Nat.mod_eq_of_lt (by omega)).symm

namespace Kring

/-- `nm_kr_space` of a receive ring. -/
def nmKrSpace (kring : Kring lim) : Nat := lim - dist kring.nrHwcur kring.nkrHwlease

/-- `nm_kr_lease`, of one slot. -/
def nmKrLease (kring : Kring lim) : Fin (lim + 1) × Kring lim :=
  (kring.nkrLeaseIdx,
    { kring with
      nkrLeases := Function.update kring.nkrLeases kring.nkrLeaseIdx none
      nkrLeaseIdx := nmNext kring.nkrLeaseIdx
      nkrHwlease := nmNext kring.nkrHwlease })

/-- The first critical section: the slot and the lease, or `EINVAL`. -/
def lease (kring : Kring lim) : Option (Fin (lim + 1) × Fin (lim + 1) × Kring lim) :=
  -- "ring is stopped"
  if kring.nkrStopped then none
  -- "ring is full"
  else if kring.nmKrSpace = 0 then none
  else some (kring.nkrHwlease, kring.nmKrLease)

theorem lease_cases {kring kring' : Kring lim} {slotIdx leaseIdx : Fin (lim + 1)}
    (h : kring.lease = some (slotIdx, leaseIdx, kring')) :
    kring.nmKrSpace ≠ 0 ∧ slotIdx = kring.nkrHwlease ∧ (leaseIdx, kring') = kring.nmKrLease := by
  unfold lease at h
  split at h
  · cases h
  · split at h
    · cases h
    · cases h
      exact ⟨‹_›, rfl, rfl⟩

/-- The loop over the finished leases; out of `fuel` it is `none`. -/
def release (nkrLeaseIdx : Fin (lim + 1)) :
    Nat → Fin (lim + 1) → Fin (lim + 1) → (Fin (lim + 1) → Option (Fin (lim + 1))) →
      Option (Fin (lim + 1) × (Fin (lim + 1) → Option (Fin (lim + 1))))
  | 0, _, _, _ => none
  | fuel + 1, leaseIdx, writeIdx, leases =>
    if leaseIdx = nkrLeaseIdx then some (writeIdx, leases)
    else
      match leases leaseIdx with
      | none => some (writeIdx, leases)
      | some next =>
        release nkrLeaseIdx fuel (nmNext leaseIdx) next (Function.update leases leaseIdx none)

/-- The second critical section, and whether to `notify`. -/
def complete (kring : Kring lim) (slotIdx leaseIdx : Fin (lim + 1)) : Option (Kring lim × Bool) :=
  let writeIdx := nmNext slotIdx
  let leases := Function.update kring.nkrLeases leaseIdx (some writeIdx)
  -- all previous slots have been completed
  if slotIdx = kring.nrHwtail then
    match release kring.nkrLeaseIdx (lim + 1) leaseIdx writeIdx leases with
    | none => none
    | some (writeIdx, leases) =>
      if writeIdx ≠ slotIdx then
        some ({ kring with nkrLeases := leases, nrHwtail := writeIdx }, true)
      else some ({ kring with nkrLeases := leases }, false)
  else some ({ kring with nkrLeases := leases }, false)

/-- What the consumer may look at, in order. -/
def window (kring : Kring lim) : List Slot := (between kring.nrHwcur kring.nrHwtail).map kring.slot

end Kring

/-! ## The lease table -/

section Table

variable (s₀ c₀ len : Nat) (worker : Nat → Option ι)

/-- The leases from ticket `t₀` on, for one round: a finished one holds the slot that follows its own,
one that is under way or not taken holds nothing. -/
def Table (t₀ : Nat) (leases : Fin (lim + 1) → Option (Fin (lim + 1))) : Prop :=
  ∀ t, t₀ ≤ t → t ≤ t₀ + lim →
    leases (pos lim (c₀ + t)) =
      if t < len ∧ (worker t).isNone then some (pos lim (s₀ + t + 1)) else none

variable {s₀ c₀ len worker}
variable {t₀ : Nat} {leases : Fin (lim + 1) → Option (Fin (lim + 1))}

/-- The next ticket is taken. -/
theorem Table.lease (h : Table s₀ c₀ len worker t₀ leases) (hle : t₀ ≤ len)
    (hround : len ≤ t₀ + lim) (i : ι) :
    Table s₀ c₀ (len + 1) (Function.update worker len (some i)) t₀
      (Function.update leases (pos lim (c₀ + len)) none) := by
  intro t ht hlim
  by_cases htlen : t = len
  · simp [htlen]
  · rw [Function.update_of_ne (pos_ne (by omega) (by omega) (by omega)),
      Function.update_of_ne htlen, h t ht hlim]
    have hlt : t < len ↔ t < len + 1 := by omega
    simp only [hlt]

/-- A ticket is finished. -/
theorem Table.finish (h : Table s₀ c₀ len worker t₀ leases) {t : Nat} (ht : t₀ ≤ t)
    (htlen : t < len) (hround : len ≤ t₀ + lim) :
    Table s₀ c₀ len (Function.update worker t none) t₀
      (Function.update leases (pos lim (c₀ + t)) (some (pos lim (s₀ + t + 1)))) := by
  intro u hu hlim
  by_cases hut : u = t
  · simp [hut, htlen]
  · rw [Function.update_of_ne (pos_ne (by omega) (by omega) (by omega)),
      Function.update_of_ne hut, h u hu hlim]

/-- What was the oldest lease is cleared: it is the youngest of the next round. -/
theorem Table.succ (h : Table s₀ c₀ len worker t₀ leases) (hround : len ≤ t₀ + lim) :
    Table s₀ c₀ len worker (t₀ + 1) (Function.update leases (pos lim (c₀ + t₀)) none) := by
  intro t ht hlim
  rcases Nat.eq_or_lt_of_le hlim with rfl | hlt
  · have hpos : pos lim (c₀ + (t₀ + 1 + lim)) = pos lim (c₀ + t₀) := by
      rw [show c₀ + (t₀ + 1 + lim) = c₀ + t₀ + lim + 1 by omega, pos_add_round]
    rw [hpos, Function.update_self, if_neg (by omega)]
  · rw [Function.update_of_ne (pos_ne (by omega) (by omega) (by omega))]
    exact h t (by omega) (by omega)

/-- The loop goes on to the first lease that is not finished, and leaves the table of the tickets from
there on. -/
theorem release_eq (hround : len ≤ t₀ + lim) (hle : t₀ ≤ len) {fuel : Nat} (hfuel : len - t₀ < fuel)
    (h : Table s₀ c₀ len worker t₀ leases) :
    ∃ leases',
      Kring.release (pos lim (c₀ + len)) fuel (pos lim (c₀ + t₀)) (pos lim (s₀ + t₀)) leases =
        some (pos lim (s₀ + firstOpen worker (len - t₀) t₀), leases') ∧
      Table s₀ c₀ len worker (firstOpen worker (len - t₀) t₀) leases' := by
  induction fuel generalizing t₀ leases with
  | zero => exact absurd hfuel (Nat.not_lt_zero _)
  | succ fuel ih =>
    unfold Kring.release
    rcases Nat.eq_or_lt_of_le hle with rfl | hlt
    · rw [if_pos rfl, Nat.sub_self]
      exact ⟨leases, rfl, h⟩
    · rw [if_neg (pos_ne (by omega) (by omega) (by omega)), h t₀ (by omega) (by omega)]
      obtain ⟨d, hd⟩ : ∃ d, len - t₀ = d + 1 := ⟨len - t₀ - 1, by omega⟩
      rw [hd, firstOpen]
      cases hworker : worker t₀ with
      | some i => exact ⟨leases, by simp, by simpa using h⟩
      | none =>
        have hround' : len ≤ t₀ + 1 + lim := by omega
        obtain ⟨leases', hrelease, htable⟩ := ih hround' hlt (by omega) (h.succ hround)
        rw [show len - (t₀ + 1) = d by omega] at hrelease htable
        refine ⟨leases', ?_, by simpa using htable⟩
        simpa [hlt, nmNext_pos, Nat.add_assoc] using hrelease

end Table

/-! ## The copy -/

section Copy

variable (bufSize : Nat) (data : List UInt8)

/-- The length that fits. -/
def copyLen : Nat := if data.length > bufSize then bufSize else data.length

/-- The `k`-th store of a copy: a byte of `pkt_copy`, then `slot->len`, then `slot->flags`. -/
def store (k : Nat) (slot : Slot) : Slot :=
  if k < copyLen bufSize data then { slot with buf := Function.update slot.buf k (data.getD k 0) }
  else if k = copyLen bufSize data then { slot with len := copyLen bufSize data }
  else { slot with flags := 0 }

/-- How many stores there are. -/
def stores : Nat := copyLen bufSize data + 2

/-- The first `k` stores are in the slot. -/
structure Stored (k : Nat) (slot : Slot) : Prop where
  buf : ∀ j, j < k → j < copyLen bufSize data → slot.buf j = data.getD j 0
  len : copyLen bufSize data < k → slot.len = copyLen bufSize data
  flags : copyLen bufSize data + 1 < k → slot.flags = 0

theorem stored_zero (slot : Slot) : Stored bufSize data 0 slot :=
  ⟨nofun, nofun, nofun⟩

/-- A store adds itself to those before. -/
theorem Stored.store {bufSize : Nat} {data : List UInt8} {k : Nat} {slot : Slot}
    (h : Stored bufSize data k slot) : Stored bufSize data (k + 1) (store bufSize data k slot) := by
  unfold Inject.store
  rcases Nat.lt_trichotomy k (copyLen bufSize data) with hlt | heq | hgt
  · rw [if_pos hlt]
    refine ⟨?_, fun hlen => by omega, fun hflags => by omega⟩
    intro j hj hjlen
    by_cases hjk : j = k
    · simp [hjk]
    · simp only [Function.update_of_ne hjk]
      exact h.buf j (by omega) hjlen
  · rw [if_neg (by omega), if_pos heq]
    exact ⟨fun j _ hjlen => h.buf j (by omega) hjlen, fun _ => rfl, fun hflags => by omega⟩
  · rw [if_neg (by omega), if_neg (by omega)]
    exact ⟨fun j _ hjlen => h.buf j (by omega) hjlen, fun _ => h.len hgt, fun _ => rfl⟩

end Copy

/-! ## The system -/

/-- One call, by whoever makes it: not under way, or copying. -/
inductive Call (lim : Nat)
  | idle
  | copying (slotIdx leaseIdx : Fin (lim + 1)) (data : List UInt8) (done : Nat)

/-- An entry of the ring: one that was there from the start, or an injected frame. -/
inductive Entry
  | present (slot : Slot)
  | injected (data : List UInt8)

/-- A slot shows an entry: of a frame all of its bytes, or as many as the buffer has room for. -/
def Shown (bufSize : Nat) (slot : Slot) : Entry → Prop
  | .present s => slot = s
  | .injected data =>
    slot.len = min data.length bufSize ∧ slot.flags = 0 ∧
      ∀ j, j < min data.length bufSize → slot.buf j = data.getD j 0

theorem copyLen_eq (bufSize : Nat) (data : List UInt8) :
    copyLen bufSize data = min data.length bufSize := by
  unfold copyLen
  split <;> omega

theorem Stored.shown {bufSize : Nat} {data : List UInt8} {slot : Slot}
    (h : Stored bufSize data (stores bufSize data) slot) : Shown bufSize slot (.injected data) := by
  have hlen : slot.len = copyLen bufSize data := h.len (by simp [stores])
  refine ⟨hlen.trans (copyLen_eq bufSize data), h.flags (by simp [stores]), ?_⟩
  intro j hj
  rw [← copyLen_eq] at hj
  exact h.buf j (by simp only [stores]; omega) hj

/-- The ring and the calls; what was leased for, in that order, and the slots the consumer has
taken. -/
structure State (ι : Type) (lim : Nat) where
  kring : Kring lim
  call : ι → Call lim
  log : List Entry
  taken : List Slot

inductive Event (ι : Type)
  | lease (i : ι) (data : List UInt8)
  | store (i : ι)
  | complete (i : ι)
  | consume
  | stop (stopped : Bool)

def handle [DecidableEq ι] (bufSize : Nat) (s : State ι lim) : Event ι → Option (State ι lim)
  | .lease i data =>
    match s.call i with
    | .copying _ _ _ _ => none
    | .idle =>
      match s.kring.lease with
      -- `EINVAL`
      | none => some s
      | some (slotIdx, leaseIdx, kring) =>
        some { s with
          kring := kring
          call := Function.update s.call i (.copying slotIdx leaseIdx data 0)
          log := s.log ++ [.injected data] }
  | .store i =>
    match s.call i with
    | .idle => none
    | .copying slotIdx leaseIdx data done =>
      if done < stores bufSize data then
        some { s with
          kring := { s.kring with
            slot := Function.update s.kring.slot slotIdx
              (store bufSize data done (s.kring.slot slotIdx)) }
          call := Function.update s.call i (.copying slotIdx leaseIdx data (done + 1)) }
      else none
  | .complete i =>
    match s.call i with
    | .idle => none
    | .copying slotIdx leaseIdx data done =>
      if done = stores bufSize data then
        match s.kring.complete slotIdx leaseIdx with
        | none => none
        -- a notified consumer may come at any time
        | some (kring, _) => some { s with kring := kring, call := Function.update s.call i .idle }
      else none
  | .consume =>
    if s.kring.nrHwcur = s.kring.nrHwtail then none
    else
      some { s with
        kring := { s.kring with nrHwcur := nmNext s.kring.nrHwcur }
        taken := s.taken ++ [s.kring.slot s.kring.nrHwcur] }
  | .stop stopped => some { s with kring := { s.kring with nkrStopped := stopped } }

/-- No call has been made yet. -/
structure Fresh (s : State ι lim) : Prop where
  idle : ∀ i, s.call i = .idle
  leases : ∀ j, s.kring.nkrLeases j = none
  hwlease : s.kring.nkrHwlease = s.kring.nrHwtail
  log : s.log = s.kring.window.map .present
  taken : s.taken = []

/-- **The ring under injection**: any calls and the consumer, in any order. -/
def injection (ι : Type) [DecidableEq ι] (lim bufSize : Nat) : Lts (State ι lim) (Event ι) :=
  .ofStep Fresh (handle bufSize)

/-- What a step can do. -/
inductive Step [DecidableEq ι] (bufSize : Nat) (s : State ι lim) : State ι lim → Prop
  | refused : Step bufSize s s
  | lease {i : ι} (data : List UInt8) {slotIdx leaseIdx : Fin (lim + 1)} {kring : Kring lim}
      (hi : s.call i = .idle) (hlease : s.kring.lease = some (slotIdx, leaseIdx, kring)) :
      Step bufSize s
        { s with
          kring := kring
          call := Function.update s.call i (.copying slotIdx leaseIdx data 0)
          log := s.log ++ [.injected data] }
  | store {i : ι} {slotIdx leaseIdx : Fin (lim + 1)} {data : List UInt8} {done : Nat}
      (hi : s.call i = .copying slotIdx leaseIdx data done) :
      Step bufSize s
        { s with
          kring := { s.kring with
            slot := Function.update s.kring.slot slotIdx
              (store bufSize data done (s.kring.slot slotIdx)) }
          call := Function.update s.call i (.copying slotIdx leaseIdx data (done + 1)) }
  | complete {i : ι} {slotIdx leaseIdx : Fin (lim + 1)} {data : List UInt8} {kring : Kring lim}
      {notify : Bool} (hi : s.call i = .copying slotIdx leaseIdx data (stores bufSize data))
      (hcomplete : s.kring.complete slotIdx leaseIdx = some (kring, notify)) :
      Step bufSize s { s with kring := kring, call := Function.update s.call i .idle }
  | consume (hne : s.kring.nrHwcur ≠ s.kring.nrHwtail) :
      Step bufSize s
        { s with
          kring := { s.kring with nrHwcur := nmNext s.kring.nrHwcur }
          taken := s.taken ++ [s.kring.slot s.kring.nrHwcur] }
  | stop (stopped : Bool) :
      Step bufSize s { s with kring := { s.kring with nkrStopped := stopped } }

theorem step_of_handle [DecidableEq ι] {bufSize : Nat} {s t : State ι lim} {e : Event ι}
    (h : handle bufSize s e = some t) : Step bufSize s t := by
  cases e with
  | lease i data =>
    simp only [handle] at h
    split at h
    · cases h
    · rename_i hi
      split at h
      · cases h
        exact .refused
      · rename_i hlease
        cases h
        exact .lease data hi hlease
  | store i =>
    simp only [handle] at h
    split at h
    · cases h
    · rename_i hi
      split at h
      · cases h
        exact .store hi
      · cases h
  | complete i =>
    simp only [handle] at h
    split at h
    · cases h
    · rename_i hi
      split at h
      · rename_i hdone
        subst hdone
        split at h
        · cases h
        · rename_i hcomplete
          cases h
          exact .complete hi hcomplete
      · cases h
  | consume =>
    simp only [handle] at h
    split at h
    · cases h
    · rename_i hne
      cases h
      exact .consume hne
  | stop stopped =>
    cases h
    exact .stop stopped

/-! ## The book of the ring -/

/-- Call `i` is copying for ticket `t`. -/
def AtWork (s₀ c₀ bufSize : Nat) (s : State ι lim) (t : Nat) (i : ι) : Prop :=
  ∃ data done, s.call i = .copying (pos lim (s₀ + t)) (pos lim (c₀ + t)) data done ∧
    s.log[t]? = some (.injected data) ∧ Stored bufSize data done (s.kring.slot (pos lim (s₀ + t)))

/-- A call is at work as long as its record, its entry and its slot are left alone. -/
theorem AtWork.congr {s₀ c₀ bufSize : Nat} {s s' : State ι lim} {t : Nat} {i : ι}
    (h : AtWork s₀ c₀ bufSize s t i) (hcall : s'.call i = s.call i)
    (hlog : s'.log[t]? = s.log[t]?)
    (hslot : s'.kring.slot (pos lim (s₀ + t)) = s.kring.slot (pos lim (s₀ + t))) :
    AtWork s₀ c₀ bufSize s' t i := by
  unfold AtWork
  rw [hcall, hlog, hslot]
  exact h

/-- The ring stands for the book, with its first slot and its first lease at `s₀` and `c₀`. -/
structure Represents (s₀ c₀ bufSize : Nat) (s : State ι lim) (b : Book ι Entry) : Prop where
  log : s.log = b.log
  hwcur : s.kring.nrHwcur = pos lim (s₀ + b.head)
  hwtail : s.kring.nrHwtail = pos lim (s₀ + b.tail)
  hwlease : s.kring.nkrHwlease = pos lim (s₀ + b.log.length)
  leaseIdx : s.kring.nkrLeaseIdx = pos lim (c₀ + b.log.length)
  leases : Table s₀ c₀ b.log.length b.worker b.tail s.kring.nkrLeases
  idle : ∀ i, (∀ t, b.worker t ≠ some i) → s.call i = .idle
  atWork : ∀ t i, b.worker t = some i → AtWork s₀ c₀ bufSize s t i
  shown : ∀ t e, b.head ≤ t → b.log[t]? = some e → b.worker t = none →
    Shown bufSize (s.kring.slot (pos lim (s₀ + t))) e
  taken : List.Forall₂ (Shown bufSize) s.taken (b.log.take b.head)

/-- The slots of two tickets that are not read yet are different. -/
theorem slot_ne (s₀ : Nat) {b : Book ι Entry} (hb : (publication ι Entry lim).Reachable b)
    {t u : Nat} (hne : t ≠ u) (ht : b.head ≤ t) (hu : b.head ≤ u) (htlen : t < b.log.length)
    (hulen : u < b.log.length) : pos lim (s₀ + t) ≠ pos lim (s₀ + u) := by
  have := length_le hb
  exact pos_ne (by omega) (by omega) (by omega)

namespace Represents

variable {s₀ c₀ bufSize : Nat} {s s' : State ι lim} {b : Book ι Entry}
  (h : Represents s₀ c₀ bufSize s b) (hb : (publication ι Entry lim).Reachable b)
include h

/-- A call that is copying has a ticket. -/
theorem exists_worker {i : ι} {slotIdx leaseIdx : Fin (lim + 1)} {data : List UInt8} {done : Nat}
    (hi : s.call i = .copying slotIdx leaseIdx data done) :
    ∃ t, b.worker t = some i ∧ slotIdx = pos lim (s₀ + t) ∧ leaseIdx = pos lim (c₀ + t) ∧
      b.log[t]? = some (.injected data) ∧ Stored bufSize data done (s.kring.slot slotIdx) := by
  have hworker : ∃ t, b.worker t = some i := by
    by_contra hno
    simp only [not_exists] at hno
    rw [h.idle i hno] at hi
    cases hi
  obtain ⟨t, ht⟩ := hworker
  obtain ⟨data', done', hcall, hlog, hstored⟩ := h.atWork t i ht
  rw [hi] at hcall
  cases hcall
  exact ⟨t, ht, rfl, rfl, h.log ▸ hlog, hstored⟩

/-- The consumer takes the next published entry. -/
theorem consume (hne : s.kring.nrHwcur ≠ s.kring.nrHwtail) :
    ∃ hlt : b.head < b.tail, Represents s₀ c₀ bufSize
      { s with
        kring := { s.kring with nrHwcur := nmNext s.kring.nrHwcur }
        taken := s.taken ++ [s.kring.slot s.kring.nrHwcur] } (b.read hlt) := by
  have hlt : b.head < b.tail := by
    refine Nat.lt_of_le_of_ne b.head_le_tail ?_
    intro heq
    rw [h.hwcur, h.hwtail, heq] at hne
    exact hne rfl
  have hlen : b.head < b.log.length := Nat.lt_of_lt_of_le hlt b.tail_le_length
  refine ⟨hlt, { h with hwcur := ?_, shown := ?_, taken := ?_ }⟩
  · rw [h.hwcur, nmNext_pos]
    rfl
  · intro t e ht hlog hnone
    exact h.shown t e (Nat.le_of_succ_le ht) hlog hnone
  · have hshown := h.shown b.head _ (Nat.le_refl _) (List.getElem?_eq_getElem hlen)
      (b.settled _ hlt)
    change List.Forall₂ _ _ (b.log.take (b.head + 1))
    rw [List.take_succ_eq_append_getElem hlen, h.hwcur]
    exact List.rel_append h.taken (.cons hshown .nil)

include hb

/-- The ring has space while the reader is not behind by its whole length. -/
theorem room (hspace : s.kring.nmKrSpace ≠ 0) : b.log.length < b.head + lim := by
  have hround := length_le hb
  have hhead := b.head_le_tail
  have htail := b.tail_le_length
  rw [Kring.nmKrSpace, h.hwcur, h.hwlease, dist_pos (by omega) (by omega)] at hspace
  omega

/-- A call that gets a lease takes the next ticket. -/
theorem lease [DecidableEq ι] {i : ι} {data : List UInt8} {slotIdx leaseIdx : Fin (lim + 1)}
    {kring : Kring lim}
    (hi : s.call i = .idle) (hlease : s.kring.lease = some (slotIdx, leaseIdx, kring)) :
    (publication ι Entry lim).step b (.lease i (.injected data)) (b.lease i (.injected data)) ∧
      Represents s₀ c₀ bufSize
        { s with
          kring := kring
          call := Function.update s.call i (.copying slotIdx leaseIdx data 0)
          log := s.log ++ [.injected data] } (b.lease i (.injected data)) := by
  obtain ⟨hspace, rfl, hkring⟩ := Kring.lease_cases hlease
  cases hkring
  have hroom := h.room hb hspace
  have hhead := b.head_le_tail
  have htail := b.tail_le_length
  have hnew : ∀ t, b.worker t ≠ some i := by
    intro t ht
    obtain ⟨_, _, hcall, _⟩ := h.atWork t i ht
    rw [hi] at hcall
    cases hcall
  refine ⟨⟨hroom, hnew, rfl⟩, ?_⟩
  constructor
  case log => exact congrArg (· ++ _) h.log
  case hwcur => exact h.hwcur
  case hwtail => exact h.hwtail
  case hwlease => simp [h.hwlease, nmNext_pos, Nat.add_assoc]
  case leaseIdx => simp [h.leaseIdx, nmNext_pos, Nat.add_assoc]
  case leases => simpa [Book.lease, h.leaseIdx] using h.leases.lease htail (by omega) i
  case idle =>
    intro j hj
    have hji : j ≠ i := fun heq => hj b.log.length (heq ▸ b.worker_lease_self i _)
    have hfree : ∀ t, b.worker t ≠ some j := by
      intro t ht
      exact hj t ((b.worker_lease_of_ne i _ (Nat.ne_of_lt (b.lt_length ht))).trans ht)
    simpa only [Function.update_of_ne hji] using h.idle j hfree
  case atWork =>
    intro t j ht
    by_cases htlen : t = b.log.length
    · subst htlen
      have hij : i = j := by simpa using ht
      subst hij
      refine ⟨data, 0, ?_, ?_, stored_zero _ _ _⟩
      · simp [h.hwlease, h.leaseIdx]
      · simp [h.log]
    · rw [b.worker_lease_of_ne i _ htlen] at ht
      have hji : j ≠ i := fun heq => hnew t (heq ▸ ht)
      exact (h.atWork t j ht).congr (Function.update_of_ne hji _ _)
        (List.getElem?_append_left (h.log ▸ b.lt_length ht)) rfl
  case shown =>
    intro t e ht hlog hnone
    have htlen : t ≠ b.log.length := by
      rintro rfl
      simp at hnone
    rw [b.worker_lease_of_ne i _ htlen] at hnone
    have hle := (List.getElem?_eq_some_iff.1 hlog).1
    rw [b.log_lease, List.length_append, List.length_singleton] at hle
    rw [b.log_lease, List.getElem?_append_left (by omega)] at hlog
    exact h.shown t e ht hlog hnone
  case taken =>
    have htake : (b.log ++ [Entry.injected data]).take b.head = b.log.take b.head :=
      List.take_append_of_le_length (hhead.trans htail)
    simpa [Book.lease, htake] using h.taken

/-- A store changes nothing that anyone else looks at. -/
theorem store [DecidableEq ι] {i : ι} {slotIdx leaseIdx : Fin (lim + 1)} {data : List UInt8}
    {done : Nat}
    (hi : s.call i = .copying slotIdx leaseIdx data done) :
    Represents s₀ c₀ bufSize
      { s with
        kring := { s.kring with
          slot := Function.update s.kring.slot slotIdx
            (Inject.store bufSize data done (s.kring.slot slotIdx)) }
        call := Function.update s.call i (.copying slotIdx leaseIdx data (done + 1)) } b := by
  obtain ⟨t, ht, rfl, rfl, hlog, hstored⟩ := h.exists_worker hi
  have hlen := b.lt_length ht
  have htail := b.tail_le ht
  have hhead := b.head_le_tail
  refine { h with idle := ?_, atWork := ?_, shown := ?_ }
  · intro j hj
    have hji : j ≠ i := fun heq => hj t (heq ▸ ht)
    simpa only [Function.update_of_ne hji] using h.idle j hj
  · intro u j hu
    by_cases hut : u = t
    · subst hut
      cases ht.symm.trans hu
      exact ⟨data, done + 1, by simp, h.log ▸ hlog, by simpa using hstored.store⟩
    · have hji : j ≠ i := fun heq => hut (worker_inj hb (heq ▸ hu) ht)
      have hne := slot_ne s₀ hb hut (hhead.trans (b.tail_le hu)) (hhead.trans htail)
        (b.lt_length hu) hlen
      exact (h.atWork u j hu).congr (Function.update_of_ne hji _ _) rfl
        (Function.update_of_ne hne _ _)
  · intro u e hu hloge hnone
    have hut : u ≠ t := by
      rintro rfl
      rw [ht] at hnone
      cases hnone
    have hulen : u < b.log.length := (List.getElem?_eq_some_iff.1 hloge).1
    have hne := slot_ne s₀ hb hut hu (hhead.trans htail) hulen hlen
    simpa only [Function.update_of_ne hne] using h.shown u e hu hloge hnone

/-- Handing over the slot of ticket `t` settles it: the loop ends, at the first open ticket. -/
theorem complete_eq {t : Nat} {i : ι} (ht : b.worker t = some i) :
    ∃ leases notify,
      s.kring.complete (pos lim (s₀ + t)) (pos lim (c₀ + t)) =
        some ({ s.kring with
          nkrLeases := leases, nrHwtail := pos lim (s₀ + (b.settle t).tail) }, notify) ∧
      Table s₀ c₀ b.log.length (b.workerAfter t) (b.settle t).tail leases := by
  have hround := length_le hb
  have hhead := b.head_le_tail
  have hlen := b.lt_length ht
  have htail := b.tail_le ht
  have htable := h.leases.finish htail hlen (by omega)
  unfold Kring.complete
  simp only [nmNext_pos, h.leaseIdx]
  by_cases holdest : t = b.tail
  · -- the oldest one: the first pass of the loop overwrites the index it came with
    subst holdest
    obtain ⟨leases, hrelease, htable'⟩ := release_eq (by omega) (by omega)
      (show b.log.length - b.tail < lim + 1 by omega) htable
    have hpass : ∀ writeIdx, Kring.release (pos lim (c₀ + b.log.length)) (lim + 1)
        (pos lim (c₀ + b.tail)) writeIdx (Function.update s.kring.nkrLeases (pos lim (c₀ + b.tail))
          (some (pos lim (s₀ + b.tail + 1)))) =
        some (pos lim (s₀ + (b.settle b.tail).tail), leases) := by
      intro writeIdx
      refine Eq.trans ?_ hrelease
      simp [Kring.release, pos_ne (m := lim) (show c₀ + b.tail ≠ c₀ + b.log.length by omega)
        (by omega) (by omega)]
    have hlater := b.tail_lt_tail_settle hlen
    have hne : pos lim (s₀ + (b.settle b.tail).tail) ≠ pos lim (s₀ + b.tail) := by
      have := (b.settle b.tail).tail_le_length
      have : (b.settle b.tail).log.length = b.log.length := rfl
      exact pos_ne (by omega) (by omega) (by omega)
    rw [if_pos h.hwtail.symm, Nat.add_assoc]
    rw [Nat.add_assoc] at hpass
    simp only [hpass, if_pos hne]
    exact ⟨leases, true, rfl, htable'⟩
  · have hne : pos lim (s₀ + t) ≠ pos lim (s₀ + b.tail) := pos_ne (by omega) (by omega) (by omega)
    rw [h.hwtail, if_neg hne, b.tail_settle_of_ne holdest, ← h.hwtail]
    exact ⟨_, false, rfl, htable⟩

/-- A call that hands its slot over settles its ticket. -/
theorem complete [DecidableEq ι] {t : Nat} {i : ι} {data : List UInt8}
    (ht : b.worker t = some i)
    (hi : s.call i = .copying (pos lim (s₀ + t)) (pos lim (c₀ + t)) data (stores bufSize data))
    {kring : Kring lim} {notify : Bool}
    (hcomplete : s.kring.complete (pos lim (s₀ + t)) (pos lim (c₀ + t)) = some (kring, notify)) :
    Represents s₀ c₀ bufSize { s with kring := kring, call := Function.update s.call i .idle }
      (b.settle t) := by
  obtain ⟨leases, notify', heq, htable⟩ := h.complete_eq hb ht
  rw [heq] at hcomplete
  cases hcomplete
  refine ⟨h.log, h.hwcur, rfl, h.hwlease, h.leaseIdx, htable, ?_, ?_, ?_, h.taken⟩
  · intro j hj
    by_cases hji : j = i
    · simp [hji]
    · have hfree : ∀ u, b.worker u ≠ some j := by
        intro u hu
        by_cases hut : u = t
        · subst hut
          exact hji (Option.some.inj (hu.symm.trans ht))
        · exact hj u ((b.worker_settle_of_ne hut).trans hu)
      simpa only [Function.update_of_ne hji] using h.idle j hfree
  · intro u j hu
    have hut : u ≠ t := by
      rintro rfl
      simp at hu
    rw [b.worker_settle_of_ne hut] at hu
    have hji : j ≠ i := fun heq => hut (worker_inj hb (heq ▸ hu) ht)
    exact (h.atWork u j hu).congr (Function.update_of_ne hji _ _) rfl rfl
  · intro u e hu hlog hnone
    by_cases hut : u = t
    · subst hut
      obtain ⟨data', done, hcall, hlog', hstored⟩ := h.atWork u i ht
      rw [hi] at hcall
      cases hcall
      have hlog' := (h.log ▸ hlog').symm.trans hlog
      cases hlog'
      exact hstored.shown
    · rw [b.worker_settle_of_ne hut] at hnone
      exact h.shown u e hu hlog hnone

/-- The window shows what is published and not read. -/
theorem window : List.Forall₂ (Shown bufSize) s.kring.window
    ((b.log.drop b.head).take (b.tail - b.head)) := by
  have hround := length_le hb
  have hhead := b.head_le_tail
  have htail := b.tail_le_length
  rw [Kring.window, h.hwcur, h.hwtail, between_pos (by omega) (by omega), List.map_map]
  refine List.forall₂_of_length_eq_of_get ?_ ?_
  · simp only [List.length_map, List.length_range, List.length_take, List.length_drop]
    omega
  · intro d hd _
    rw [List.length_map, List.length_range] at hd
    have hlen : b.head + d < b.log.length := by omega
    have hshown := h.shown (b.head + d) _ (Nat.le_add_right _ _) (List.getElem?_eq_getElem hlen)
      (b.settled _ (by omega))
    simpa [Nat.add_assoc] using hshown

end Represents

/-- A fresh ring is a book with no worker in it. -/
theorem represents_of_fresh (bufSize : Nat) {s : State ι lim} (hs : Fresh s) :
    ∃ b, (publication ι Entry lim).init b ∧ ∃ s₀ c₀, Represents s₀ c₀ bufSize s b := by
  have hdist := dist_le s.kring.nrHwcur s.kring.nrHwtail
  have hlen : s.log.length = dist s.kring.nrHwcur s.kring.nrHwtail := by
    simp [hs.log, Kring.window, between]
  let b : Book ι Entry :=
    { log := s.log
      worker := fun _ => none
      head := 0
      tail := dist s.kring.nrHwcur s.kring.nrHwtail
      head_le_tail := Nat.zero_le _
      tail_le_length := by omega
      settled := fun _ _ => rfl
      unused := fun _ _ => rfl
      isSome_tail := by omega }
  have hhwtail := pos_add_dist s.kring.nrHwcur s.kring.nrHwtail
  refine ⟨b, ⟨hlen.symm, by change s.log.length ≤ 0 + lim; omega⟩, s.kring.nrHwcur.val,
    s.kring.nkrLeaseIdx.val + lim + 1 - s.log.length, ?_⟩
  constructor
  case log => rfl
  case hwcur => exact (pos_val _).symm
  case hwtail => exact hhwtail.symm
  case hwlease =>
    rw [hs.hwlease]
    change _ = pos lim (_ + s.log.length)
    rw [hlen, hhwtail]
  case leaseIdx =>
    change _ = pos lim (s.kring.nkrLeaseIdx.val + lim + 1 - s.log.length + s.log.length)
    rw [Nat.sub_add_cancel (by omega), pos_add_round, pos_val]
  case leases =>
    intro t ht _
    have hge : ¬ t < s.log.length := by
      rw [hlen]
      exact Nat.not_lt.2 ht
    rw [hs.leases, if_neg fun h => hge h.1]
  case idle =>
    intro i _
    exact hs.idle i
  case atWork =>
    intro t i ht
    cases ht
  case shown =>
    intro t e _ hlog _
    change s.log[t]? = some e at hlog
    have hlt : t < dist s.kring.nrHwcur s.kring.nrHwtail := by
      rw [← hlen]
      exact (List.getElem?_eq_some_iff.1 hlog).1
    rw [hs.log, Kring.window, between, List.getElem?_map, List.getElem?_map, List.getElem?_map,
      List.getElem?_range hlt] at hlog
    cases hlog
    rfl
  case taken =>
    rw [hs.taken]
    exact .nil

/-- **The ring is a book**: every step of the calls and the consumer is one of workers and a reader,
or not seen at all. -/
theorem represents_of_reachable [DecidableEq ι] {bufSize : Nat} {s : State ι lim}
    (h : (injection ι lim bufSize).Reachable s) :
    ∃ b, (publication ι Entry lim).Reachable b ∧ ∃ s₀ c₀, Represents s₀ c₀ bufSize s b := by
  refine h.simulate (R := fun s b => ∃ s₀ c₀, Represents s₀ c₀ bufSize s b) ?_ ?_
  · intro s hs
    exact represents_of_fresh bufSize hs
  · rintro s e t b _ hb ⟨s₀, c₀, hR⟩ hst
    cases step_of_handle hst with
    | refused => exact ⟨[], b, .nil, s₀, c₀, hR⟩
    | lease data hi hlease =>
      obtain ⟨hstep, hR'⟩ := hR.lease hb hi hlease
      exact ⟨_, _, Lts.Run.nil.snoc hstep, s₀, c₀, hR'⟩
    | store hi => exact ⟨[], b, .nil, s₀, c₀, hR.store hb hi⟩
    | complete hi hcomplete =>
      obtain ⟨t, ht, rfl, rfl, _, _⟩ := hR.exists_worker hi
      have hstep : (publication ι Entry lim).step b (.settle t) (b.settle t) :=
        ⟨Option.isSome_of_eq_some ht, rfl⟩
      exact ⟨_, _, Lts.Run.nil.snoc hstep, s₀, c₀, hR.complete hb ht hi hcomplete⟩
    | consume hne =>
      obtain ⟨hlt, hR'⟩ := hR.consume hne
      have hstep : (publication ι Entry lim).step b .read (b.read hlt) := ⟨hlt, rfl⟩
      exact ⟨_, _, Lts.Run.nil.snoc hstep, s₀, c₀, hR'⟩
    | stop stopped => exact ⟨[], b, .nil, s₀, c₀, { hR with }⟩

/-! ## Once, in order, and complete -/

/-- What the consumer has taken and what it may look at are the first entries of the log, each shown
completely by its slot; no call is kept in the loop; and what is leased is all published once no call
is under way. -/
structure Published (bufSize : Nat) (s : State ι lim) : Prop where
  in_order : ∃ published rest, s.log = published ++ rest ∧
    List.Forall₂ (Shown bufSize) (s.taken ++ s.kring.window) published
  terminates : ∀ i slotIdx leaseIdx data,
    s.call i = .copying slotIdx leaseIdx data (stores bufSize data) →
    (s.kring.complete slotIdx leaseIdx).isSome = true
  quiet : (∀ i, s.call i = .idle) → s.kring.nrHwtail = s.kring.nkrHwlease

/-- **Injected frames are published once, in order, and only when complete.** -/
theorem injection_published [DecidableEq ι] {bufSize : Nat} {s : State ι lim}
    (h : (injection ι lim bufSize).Reachable s) : Published bufSize s := by
  obtain ⟨b, hb, s₀, c₀, hR⟩ := represents_of_reachable h
  constructor
  · refine ⟨b.log.take b.tail, b.log.drop b.tail, ?_, ?_⟩
    · rw [List.take_append_drop, hR.log]
    · have hsplit : b.log.take b.tail =
          b.log.take b.head ++ (b.log.drop b.head).take (b.tail - b.head) := by
        rw [← List.take_add, Nat.add_sub_cancel' b.head_le_tail]
      rw [hsplit]
      exact List.rel_append hR.taken (hR.window hb)
  · intro i slotIdx leaseIdx data hi
    obtain ⟨t, ht, rfl, rfl, _, _⟩ := hR.exists_worker hi
    obtain ⟨leases, notify, heq, _⟩ := hR.complete_eq hb ht
    rw [heq]
    rfl
  · intro hidle
    have hnone : ∀ t, b.worker t = none := by
      intro t
      cases ht : b.worker t with
      | none => rfl
      | some i =>
        obtain ⟨_, _, hcall, _⟩ := hR.atWork t i ht
        rw [hidle i] at hcall
        cases hcall
    rw [hR.hwtail, hR.hwlease, b.tail_eq_length hnone]

/-- A ring of three slots that nobody has used. -/
def unusedRing : State Bool 2 where
  kring :=
    { slot := fun _ => { buf := fun _ => 0, len := 0, flags := 0 }
      nrHwcur := pos 2 0
      nrHwtail := pos 2 0
      nkrHwlease := pos 2 0
      nkrLeaseIdx := pos 2 2
      nkrLeases := fun _ => none
      nkrStopped := false }
  call := fun _ => .idle
  log := []
  taken := []

theorem fresh_unusedRing : Fresh unusedRing :=
  ⟨fun _ => rfl, fun _ => rfl, rfl, rfl, rfl⟩

/-- A frame of three bytes. -/
def shortFrame : List UInt8 := [1, 2, 3]

/-- A frame of six bytes. -/
def longFrame : List UInt8 := [4, 5, 6, 7, 8, 9]

/-- Two calls over buffers of four bytes, of which the second is done first; the lease index wraps in
between. -/
def twoCalls : List (Event Bool) :=
  [.lease false shortFrame, .lease true longFrame] ++ List.replicate 6 (.store true) ++
    [.complete true] ++ List.replicate 5 (.store false) ++ [.complete false]

/-- The first call publishes both frames, the second of them cut to the size of the buffer. -/
theorem injection_published_twoCalls :
    ∃ s, Lts.exec (handle 4) unusedRing twoCalls = some s ∧
      s.log = [.injected shortFrame, .injected longFrame] ∧
      s.kring.window.map Slot.len = [3, 4] ∧ Published 4 s :=
  ⟨_, rfl, rfl, rfl,
    injection_published ⟨unusedRing, twoCalls, fresh_unusedRing, Lts.run_of_exec rfl⟩⟩

end Erps.Kernel.Inject
