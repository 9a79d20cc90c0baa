import Erps.Lib.Lts
import Mathlib.Data.Fintype.Lattice
import Mathlib.Data.Set.Basic

/-!
# Two protocols among parties

Custody: a set of parties keeps something that must never be given up by all of them at once. A party
may take it up at any time; it may put it down only on the word of *another* party that holds it at that
moment. Then somebody always holds it (`Custody.nonempty_of_reachable`), whatever the order of steps and
however many parties there are. The rule asks nothing of how the word travels, only that it is true when
it is acted upon. A system is shown safe by exhibiting its holders and simulating its steps by these
(`Custody.simulate`).

Election: every candidate stands, and steps down for good when it hears of one that ranks higher.
Candidates hear of each other in any order, any number of times, or never. The candidates standing are
the ones that have heard of nobody better (`Election.mem_standing_iff`). So the best never steps down
(`Election.best_mem`), and once all have heard of all it stands alone (`Election.eq_best`): agreement
needs no order of messages and no bound on their number.
-/

set_option autoImplicit false

namespace Custody

variable {ι σ ε : Type}

/-- What a step does: parties take up, or `j` may put down on the word of `i`. -/
inductive Label (ι : Type)
  | take
  | release (i j : ι)

/-- The holders of a system of parties `ι`. -/
def custody (ι : Type) : Lts (Set ι) (Label ι) where
  init H := H.Nonempty
  step H l H' :=
    match l with
    | .take => H ⊆ H'
    | .release i j => i ∈ H ∧ i ≠ j ∧ H \ {j} ⊆ H'

theorem nonempty_step {H H' : Set ι} {l : Label ι} (hH : H.Nonempty)
    (h : (custody ι).step H l H') : H'.Nonempty := by
  cases l with
  | take => exact hH.mono h
  | release i j =>
    obtain ⟨hi, hij, hsub⟩ := h
    exact ⟨i, hsub ⟨hi, hij⟩⟩

/-- **Somebody always holds it.** -/
theorem nonempty_of_reachable {H : Set ι} (h : (custody ι).Reachable H) : H.Nonempty :=
  h.invariant (I := Set.Nonempty) (fun _ h => h) fun _ _ _ _ hH hst => nonempty_step hH hst

/-- The simulation rule: a system whose steps are custody steps of its holders always has one. -/
theorem simulate {L : Lts σ ε} (holders : σ → Set ι) (hinit : ∀ s, L.init s → (holders s).Nonempty)
    (hstep : ∀ s e t, L.Reachable s → L.step s e t →
      ∃ l, (custody ι).step (holders s) l (holders t)) {t : σ} (ht : L.Reachable t) :
    (holders t).Nonempty := by
  have hsim : ∃ H, (custody ι).Reachable H ∧ H = holders t := by
    refine ht.simulate (R := fun s H => H = holders s) ?_ ?_
    · intro s hs
      exact ⟨holders s, hinit s hs, rfl⟩
    · intro s e t _ hs _ hH hst
      subst hH
      obtain ⟨l, hl⟩ := hstep s e t hs hst
      exact ⟨[] ++ [l], holders t, Lts.Run.nil.snoc hl, rfl⟩
  obtain ⟨H, hH, rfl⟩ := hsim
  exact nonempty_of_reachable hH

end Custody

namespace Election

variable {ι α : Type} [LinearOrder α]

/-- Who still stands, and who has heard of whom: `(j, i)` means that `j` has heard of `i`. -/
structure State (ι : Type) where
  standing : Set ι
  heard : Set (ι × ι)

/-- `j` hears of `i`. -/
def State.hear (rank : ι → α) (s : State ι) (j i : ι) : State ι where
  standing := {k | k ∈ s.standing ∧ ¬ (k = j ∧ rank j < rank i)}
  heard := insert (j, i) s.heard

/-- The election: at first all stand and nobody has heard of anybody. -/
def election (rank : ι → α) : Lts (State ι) (ι × ι) where
  init s := s = ⟨Set.univ, ∅⟩
  step s l t := t = s.hear rank l.1 l.2

/-- **Who stands** has heard of nobody better. -/
theorem mem_standing_iff {rank : ι → α} {s : State ι} (h : (election rank).Reachable s) (j : ι) :
    j ∈ s.standing ↔ ∀ i, (j, i) ∈ s.heard → rank i ≤ rank j := by
  refine h.invariant (I := fun s => j ∈ s.standing ↔ ∀ i, (j, i) ∈ s.heard → rank i ≤ rank j) ?_ ?_
  · intro s hs
    subst hs
    simp
  · intro s l t _ ih hst
    obtain ⟨k, l⟩ := l
    subst hst
    simp only [State.hear, Set.mem_ofPred_eq, Set.mem_insert_iff, Prod.mk.injEq, ih]
    constructor
    · intro hstand i hheard
      obtain ⟨hj, hn⟩ := hstand
      rcases hheard with ⟨rfl, rfl⟩ | hi
      · exact not_lt.mp fun hlt => hn ⟨rfl, hlt⟩
      · exact hj i hi
    · intro hj
      refine ⟨fun i hi => hj i (.inr hi), ?_⟩
      intro hdown
      obtain ⟨rfl, hlt⟩ := hdown
      exact absurd (hj l (.inl ⟨rfl, rfl⟩)) (not_le.mpr hlt)

variable {rank : ι → α} {s : State ι}

/-- A candidate of the greatest rank. -/
def Best (rank : ι → α) (m : ι) : Prop := ∀ i, rank i ≤ rank m

theorem exists_best (rank : ι → α) [Finite ι] [Nonempty ι] : ∃ m, Best rank m :=
  Finite.exists_max rank

/-- The best never steps down. -/
theorem best_mem (h : (election rank).Reachable s) {m : ι} (hm : Best rank m) :
    m ∈ s.standing :=
  (mem_standing_iff h m).mpr fun i _ => hm i

/-- **Agreement.** When everybody has heard of everybody else, the best stands alone. -/
theorem eq_best (hinj : Function.Injective rank) (h : (election rank).Reachable s) {m : ι}
    (hm : Best rank m) (hall : ∀ i j, i ≠ j → (j, i) ∈ s.heard) (j : ι) :
    j ∈ s.standing ↔ j = m := by
  constructor
  · intro hj
    by_contra hne
    have hle := (mem_standing_iff h j).mp hj m (hall m j (Ne.symm hne))
    exact hne (hinj (le_antisymm (hm j) hle))
  · intro hjm
    subst hjm
    exact best_mem h hm

end Election
