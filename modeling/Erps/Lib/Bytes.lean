import Mathlib.Algebra.Ring.Nat
import Mathlib.Data.List.GetD
import Mathlib.Order.Nat
import Mathlib.Tactic.IntervalCases

/-!
# Bytes in memory: `memcmp`, overwriting, 16-bit loads

What C code that lays out and reads back a frame rests on. A buffer is a list of bytes; `memcmp`
compares two of them the way the C library does, and is the order of the big-endian numbers the
bytes spell. A 16-bit load depends on the byte order of the host, `ntohs` undoes exactly that.
-/

set_option autoImplicit false

namespace Bytes

/-! ## `memcmp` -/

/-- C's `memcmp` over two buffers of one length: the difference of the first two bytes that
differ, and 0 when there are none. -/
def memcmp : List UInt8 → List UInt8 → Int
  | a :: as, b :: bs => if a = b then memcmp as bs else (a.toNat : Int) - b.toNat
  | _, _ => 0

/-- The number a buffer spells, most significant byte first. -/
def beNat : List UInt8 → Nat
  | [] => 0
  | a :: as => a.toNat * 256 ^ as.length + beNat as

theorem beNat_lt (as : List UInt8) : beNat as < 256 ^ as.length := by
  induction as with
  | nil => simp [beNat]
  | cons a as ih =>
    have ha : a.toNat + 1 ≤ 256 := a.toNat_lt
    have hmul : (a.toNat + 1) * 256 ^ as.length ≤ 256 * 256 ^ as.length :=
      Nat.mul_le_mul_right _ ha
    simp only [beNat, List.length_cons, Nat.pow_succ]
    rw [Nat.add_mul] at hmul
    omega

/-- One byte decides: whatever follows a smaller leading byte cannot make up for it. -/
theorem beNat_cons_lt {a b : UInt8} {as bs : List UInt8} (hlen : as.length = bs.length)
    (hab : a.toNat < b.toNat) : beNat (a :: as) < beNat (b :: bs) := by
  have has := beNat_lt as
  have hmul : (a.toNat + 1) * 256 ^ as.length ≤ b.toNat * 256 ^ as.length :=
    Nat.mul_le_mul_right _ hab
  rw [Nat.add_mul] at hmul
  simp only [beNat, ← hlen]
  omega

/-- Induction over two buffers of one length: their first bytes are the same, or differ. -/
theorem buffers_induction {P : List UInt8 → List UInt8 → Prop} (hnil : P [] [])
    (hsame : ∀ a as bs, as.length = bs.length → P as bs → P (a :: as) (a :: bs))
    (hdiff : ∀ a b as bs, as.length = bs.length → a ≠ b → P (a :: as) (b :: bs))
    {as bs : List UInt8} (hlen : as.length = bs.length) : P as bs := by
  induction as generalizing bs with
  | nil =>
    cases bs with
    | nil => exact hnil
    | cons b bs => simp at hlen
  | cons a as ih =>
    cases bs with
    | nil => simp at hlen
    | cons b bs =>
      have hlen' : as.length = bs.length := by simpa using hlen
      by_cases hab : a = b
      · subst hab
        exact hsame a as bs hlen' (ih hlen')
      · exact hdiff a b as bs hlen' hab

/-- `memcmp` orders equally long buffers as the numbers they spell. -/
theorem memcmp_neg_iff {as bs : List UInt8} (hlen : as.length = bs.length) :
    memcmp as bs < 0 ↔ beNat as < beNat bs := by
  refine buffers_induction (P := fun as bs => memcmp as bs < 0 ↔ beNat as < beNat bs) ?_ ?_ ?_ hlen
  · simp [memcmp, beNat]
  · intro a as bs hlen' ih
    simp only [memcmp, if_true, beNat, ← hlen']
    rw [ih]
    omega
  · intro a b as bs hlen' hab
    have hne : a.toNat ≠ b.toNat := fun h => hab (UInt8.toNat_inj.mp h)
    simp only [memcmp, if_neg hab]
    rcases Nat.lt_or_gt_of_ne hne with h | h
    · have := beNat_cons_lt hlen' h
      omega
    · have := beNat_cons_lt hlen'.symm h
      omega

/-- `memcmp` answers 0 on equal buffers only. -/
theorem memcmp_eq_zero_iff {as bs : List UInt8} (hlen : as.length = bs.length) :
    memcmp as bs = 0 ↔ as = bs := by
  refine buffers_induction (P := fun as bs => memcmp as bs = 0 ↔ as = bs) ?_ ?_ ?_ hlen
  · simp [memcmp]
  · intro a as bs _ ih
    simp [memcmp, ih]
  · intro a b as bs _ hab
    have hne : a.toNat ≠ b.toNat := fun h => hab (UInt8.toNat_inj.mp h)
    have hne' : memcmp (a :: as) (b :: bs) ≠ 0 := by
      simp only [memcmp, if_neg hab]
      omega
    simp [hne', hab]

/-- Equally long buffers that spell one number are equal. -/
theorem beNat_inj {as bs : List UInt8} (hlen : as.length = bs.length)
    (h : beNat as = beNat bs) : as = bs := by
  revert h
  refine buffers_induction (P := fun as bs => beNat as = beNat bs → as = bs) ?_ ?_ ?_ hlen
  · intro _
    rfl
  · intro a as bs hlen' ih h
    simp only [beNat, ← hlen'] at h
    rw [ih (by omega)]
  · intro a b as bs hlen' hab h
    have hne : a.toNat ≠ b.toNat := fun h => hab (UInt8.toNat_inj.mp h)
    rcases Nat.lt_or_gt_of_ne hne with hlt | hlt
    · have := beNat_cons_lt hlen' hlt
      omega
    · have := beNat_cons_lt hlen'.symm hlt
      omega

/-! ## Writing -/

/-- `memcpy(data + o, bs, n)`: the bytes from `o` on are replaced. -/
def overwrite (data : List UInt8) (o : Nat) (bs : List UInt8) : List UInt8 :=
  data.take o ++ bs ++ data.drop (o + bs.length)

theorem length_overwrite {data bs : List UInt8} {o : Nat} (h : o + bs.length ≤ data.length) :
    (overwrite data o bs).length = data.length := by
  simp only [overwrite, List.length_append, List.length_take, List.length_drop]
  omega

theorem getD_overwrite_self {data bs : List UInt8} {o : Nat} (ho : o ≤ data.length)
    (hbs : 0 < bs.length) : (overwrite data o bs).getD o 0 = bs.getD 0 0 := by
  have hlen : (data.take o).length = o := by
    rw [List.length_take]
    omega
  rw [overwrite, List.append_assoc, List.getD_append_right _ _ _ _ (by omega), hlen, Nat.sub_self,
    List.getD_append _ _ _ _ hbs]

/-! ## Little-endian numbers -/

/-- The number a buffer spells, least significant byte first. -/
def leNat : List UInt8 → Nat
  | [] => 0
  | a :: as => a.toNat + 256 * leNat as

/-- The last `count` bytes of a number, least significant byte first. -/
def leBytes : Nat → Nat → List UInt8
  | 0, _ => []
  | count + 1, n => UInt8.ofNat n :: leBytes count (n / 256)

@[simp] theorem length_leBytes (count n : Nat) : (leBytes count n).length = count := by
  induction count generalizing n with
  | zero => rfl
  | succ count ih => simp [leBytes, ih]

theorem leNat_lt (as : List UInt8) : leNat as < 256 ^ as.length := by
  induction as with
  | nil => simp [leNat]
  | cons a as ih =>
    have ha : a.toNat < 256 := a.toNat_lt
    simp only [leNat, List.length_cons, Nat.pow_succ]
    omega

theorem leNat_eq_zero_iff (as : List UInt8) : leNat as = 0 ↔ ∀ a ∈ as, a = 0 := by
  induction as with
  | nil => simp [leNat]
  | cons a as ih =>
    have ha : a.toNat = 0 ↔ a = 0 := by
      rw [← UInt8.toNat_inj]
      simp
    simp only [leNat, List.forall_mem_cons, ← ih, ← ha]
    omega

/-- A buffer spells a byte when it begins with it and goes on with nothing but zeros. -/
theorem leNat_cons_eq_toNat_iff (a b : UInt8) (as : List UInt8) :
    leNat (a :: as) = b.toNat ↔ a = b ∧ ∀ c ∈ as, c = 0 := by
  have ha : a.toNat < 256 := a.toNat_lt
  have hb : b.toNat < 256 := b.toNat_lt
  rw [← leNat_eq_zero_iff, ← UInt8.toNat_inj]
  simp only [leNat]
  omega

/-! ## Loads -/

inductive ByteOrder
  | little
  | big
  deriving DecidableEq, Repr

/-- The 16-bit load `*(uint16_t *)(data + o)`. -/
def load16 (host : ByteOrder) (data : List UInt8) (o : Nat) : UInt16 :=
  match host with
  | .little => (data.getD o 0).toUInt16 ||| ((data.getD (o + 1) 0).toUInt16 <<< 8)
  | .big => ((data.getD o 0).toUInt16 <<< 8) ||| (data.getD (o + 1) 0).toUInt16

/-- Network to host order: swap the two bytes where the host keeps the low one first. -/
def ntohs (host : ByteOrder) (x : UInt16) : UInt16 :=
  match host with
  | .little => (x <<< 8) ||| (x >>> 8)
  | .big => x

/-- `ntohs` undoes the byte order of the load: the first byte is the high one on every host. -/
theorem ntohs_load16 (host : ByteOrder) (data : List UInt8) (o : Nat) :
    ntohs host (load16 host data o) =
      ((data.getD o 0).toUInt16 <<< 8) ||| (data.getD (o + 1) 0).toUInt16 := by
  cases host with
  | big => rfl
  | little =>
    apply UInt16.toBitVec_inj.mp
    ext i hi
    interval_cases i <;> simp [ntohs, load16]

/-- The high byte of a 16-bit word is lost in the conversion to a byte. -/
theorem shiftLeft_eight_toUInt8 (b : UInt8) : (b.toUInt16 <<< 8).toUInt8 = 0 := by
  apply UInt8.toBitVec_inj.mp
  ext i hi
  simp

theorem word_low (a b : UInt8) : ((a.toUInt16 <<< 8) ||| b.toUInt16).toUInt8 = b := by
  rw [UInt16.toUInt8_or, shiftLeft_eight_toUInt8, UInt8.toUInt8_toUInt16]
  simp

theorem word_high (a b : UInt8) : (((a.toUInt16 <<< 8) ||| b.toUInt16) >>> 8).toUInt8 = a := by
  apply UInt8.toBitVec_inj.mp
  ext i hi
  interval_cases i <;> simp

/-- A word is its two bytes. -/
theorem word_eq_iff {a b c d : UInt8} :
    (a.toUInt16 <<< 8) ||| b.toUInt16 = (c.toUInt16 <<< 8) ||| d.toUInt16 ↔ a = c ∧ b = d := by
  constructor
  · intro h
    constructor
    · rw [← word_high a b, h, word_high]
    · rw [← word_low a b, h, word_low]
  · intro h
    rw [h.1, h.2]

/-- Keeping the low byte of a 16-bit load reads the addressed byte on a little-endian host ... -/
theorem load16_little_toUInt8 (data : List UInt8) (o : Nat) :
    (load16 .little data o).toUInt8 = data.getD o 0 := by
  simp only [load16, UInt16.toUInt8_or, shiftLeft_eight_toUInt8, UInt8.toUInt8_toUInt16]
  simp

/-- ... and the byte after it on a big-endian one. -/
theorem load16_big_toUInt8 (data : List UInt8) (o : Nat) :
    (load16 .big data o).toUInt8 = data.getD (o + 1) 0 := by
  simp only [load16, UInt16.toUInt8_or, shiftLeft_eight_toUInt8, UInt8.toUInt8_toUInt16]
  simp

end Bytes
