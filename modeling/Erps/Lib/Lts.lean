import Mathlib.Data.List.Basic

/-!
# Labelled transition systems: runs, invariants, guarded runs, simulation, potentials

An `Lts` is an initial predicate and a labelled step relation. A run is recorded with the list
of labels it took, oldest first, so a statement may speak about what happened along the way and
not only about where the run ended.

Four rules are all that a proof about runs needs from here:

* `Lts.Reachable.invariant` — what holds initially and is kept by every step holds of every
  reachable state;
* `Lts.restrict` — the same system with a side condition on every step, for properties that only
  hold of the runs whose steps all meet it;
* `Lts.Reachable.simulate` — a relation kept by every step carries reachability over to a second,
  more abstract system;
* `Lts.Run.countP_le` — steps of one kind are paid for by steps of another, and a run spends no more
  often than it was paid for.

`Lts.ofStep` builds a system from a partial step function, and `Lts.exec` runs that function, so
that a concrete run is a computation. Of a total step function `Purge.trace` shows the states after
some of its labels, and `Purge.trace_congr` says when it shows nothing of the others.
-/

set_option autoImplicit false

/-- A labelled transition system over states `σ` and labels `ε`. -/
structure Lts (σ ε : Type) where
  init : σ → Prop
  step : σ → ε → σ → Prop

namespace Lts

variable {σ σ' ε ε' : Type}

/-- `L.Run s es t`: from `s` the labels `es`, in this order, lead to `t`. -/
inductive Run (L : Lts σ ε) (s : σ) : List ε → σ → Prop
  | nil : Run L s [] s
  | snoc {es : List ε} {t u : σ} {e : ε} : Run L s es t → L.step t e u → Run L s (es ++ [e]) u

def Reachable (L : Lts σ ε) (t : σ) : Prop := ∃ s es, L.init s ∧ L.Run s es t

theorem Reachable.init {L : Lts σ ε} {s : σ} (h : L.init s) : L.Reachable s :=
  ⟨s, [], h, .nil⟩

theorem Reachable.step {L : Lts σ ε} {s t : σ} {e : ε} (h : L.Reachable s)
    (hs : L.step s e t) : L.Reachable t := by
  obtain ⟨s₀, es, h₀, hr⟩ := h
  exact ⟨s₀, es ++ [e], h₀, hr.snoc hs⟩

theorem Reachable.run {L : Lts σ ε} {s t : σ} {es : List ε} (h : L.Reachable s)
    (hr : L.Run s es t) : L.Reachable t := by
  induction hr with
  | nil => exact h
  | snoc _ hst ih => exact ih.step hst

/-! ## Invariants -/

/-- What a step keeps, a run keeps. -/
theorem Run.invariant {L : Lts σ ε} {I : σ → Prop}
    (hstep : ∀ s e t, I s → L.step s e t → I t) {s t : σ} {es : List ε}
    (hr : L.Run s es t) (hs : I s) : I t := by
  induction hr with
  | nil => exact hs
  | snoc _ hst ih => exact hstep _ _ _ ih hst

/-- **The invariant rule.** The step case may also use that the state it starts from is
reachable, so invariants proved earlier are available to later ones. -/
theorem Reachable.invariant {L : Lts σ ε} {I : σ → Prop} (hinit : ∀ s, L.init s → I s)
    (hstep : ∀ s e t, L.Reachable s → I s → L.step s e t → I t) {t : σ}
    (ht : L.Reachable t) : I t := by
  obtain ⟨s, es, hs, hr⟩ := ht
  induction hr with
  | nil => exact hinit s hs
  | snoc hr' hst ih => exact hstep _ _ _ ⟨s, _, hs, hr'⟩ ih hst

/-- What no label of a run changes is at its end what it was. -/
theorem Run.keeps {α : Type} {L : Lts σ ε} {f : σ → α} {s t : σ} {es : List ε} (hr : L.Run s es t)
    (h : ∀ s e t, e ∈ es → L.step s e t → f t = f s) : f t = f s := by
  induction hr with
  | nil => rfl
  | snoc _ hst ih =>
    have hlast := h _ _ _ (List.mem_append_right _ (List.mem_singleton.mpr rfl)) hst
    exact hlast.trans (ih fun s e t he => h s e t (List.mem_append_left _ he))

/-! ## History -/

section history

variable {η : Type} {L : Lts σ ε} {start : η} {record : σ → ε → σ → η → η}

/-- The system with a record of its own past, which no step reads. -/
def history (L : Lts σ ε) (start : η) (record : σ → ε → σ → η → η) : Lts (σ × η) ε where
  init s := L.init s.1 ∧ s.2 = start
  step s e t := L.step s.1 e t.1 ∧ t.2 = record s.1 e t.1 s.2

/-- Keeping a record prevents nothing. -/
theorem Reachable.history {s : σ} (h : L.Reachable s) :
    ∃ past, (L.history start record).Reachable (s, past) := by
  refine h.invariant (I := fun s => ∃ past, (L.history start record).Reachable (s, past)) ?_ ?_
  · intro s hs
    exact ⟨start, .init ⟨hs, rfl⟩⟩
  · intro s e t _ hs hst
    obtain ⟨past, hs⟩ := hs
    exact ⟨record s e t past, hs.step ⟨hst, rfl⟩⟩

/-- Nor does it allow anything. -/
theorem Reachable.of_history {s : σ × η} (h : (L.history start record).Reachable s) :
    L.Reachable s.1 := by
  refine h.invariant (I := fun s => L.Reachable s.1) ?_ ?_
  · intro s hs
    exact .init hs.1
  · intro s e t _ hs hst
    exact hs.step hst.1

end history

/-! ## Guarded runs -/

/-- The system whose steps also meet `C`, read in the state before the step. -/
def restrict (L : Lts σ ε) (C : σ → ε → Prop) : Lts σ ε where
  init := L.init
  step s e t := C s e ∧ L.step s e t

/-- The system whose steps also end in `I`. -/
def within (L : Lts σ ε) (I : σ → Prop) : Lts σ ε where
  init := L.init
  step s e t := L.step s e t ∧ I t

/-- A guard only takes runs away. -/
theorem Reachable.of_restrict {L : Lts σ ε} {C : σ → ε → Prop} {t : σ}
    (h : (L.restrict C).Reachable t) : L.Reachable t := by
  refine Reachable.invariant (L := L.restrict C) (I := L.Reachable) ?_ ?_ h
  · intro _ hs
    exact Reachable.init hs
  · intro _ _ _ _ hs hst
    exact hs.step hst.2

theorem Run.of_restrict {L : Lts σ ε} {C : σ → ε → Prop} {s t : σ} {es : List ε}
    (h : (L.restrict C).Run s es t) : L.Run s es t := by
  induction h with
  | nil => exact .nil
  | snoc _ hst ih => exact ih.snoc hst.2

/-- A guard on the labels takes away no run whose labels all meet it. -/
theorem Run.restrict {L : Lts σ ε} {C : ε → Prop} {s t : σ} {es : List ε} (h : L.Run s es t)
    (hC : ∀ e ∈ es, C e) : (L.restrict fun _ e => C e).Run s es t := by
  induction h with
  | nil => exact .nil
  | snoc _ hst ih =>
    refine (ih fun e he => hC e (List.mem_append_left _ he)).snoc ⟨hC _ ?_, hst⟩
    exact List.mem_append_right _ (List.mem_singleton.mpr rfl)

/-- A weaker guard takes fewer runs away. -/
theorem Reachable.restrict_mono {L : Lts σ ε} {C D : σ → ε → Prop} (hCD : ∀ s e, C s e → D s e)
    {t : σ} (h : (L.restrict C).Reachable t) : (L.restrict D).Reachable t := by
  refine Reachable.invariant (L := L.restrict C) (I := (L.restrict D).Reachable) ?_ ?_ h
  · intro _ hs
    exact Reachable.init hs
  · intro s e _ _ hs hst
    exact hs.step ⟨hCD s e hst.1, hst.2⟩

/-- **The exact guard.** If, under an invariant `J`, a step that meets `C` keeps `J`, and a step that
does not breaks `I`, then the runs whose steps all meet `C` are the runs that stay within `I`. -/
theorem run_restrict_iff {L : Lts σ ε} {C : σ → ε → Prop} {I J : σ → Prop} (hJI : ∀ s, J s → I s)
    (hkeep : ∀ s e t, J s → C s e → L.step s e t → J t)
    (hbreak : ∀ s e t, J s → L.step s e t → I t → C s e) {s t : σ} {es : List ε} (hs : J s) :
    (L.restrict C).Run s es t ↔ (L.within I).Run s es t := by
  have hfwd : ∀ {es t}, (L.restrict C).Run s es t → J t ∧ (L.within I).Run s es t := by
    intro es t hr
    induction hr with
    | nil => exact ⟨hs, .nil⟩
    | snoc _ hst ih =>
      have hJ := hkeep _ _ _ ih.1 hst.1 hst.2
      exact ⟨hJ, ih.2.snoc ⟨hst.2, hJI _ hJ⟩⟩
  constructor
  · intro hr
    exact (hfwd hr).2
  · intro hr
    induction hr with
    | nil => exact .nil
    | snoc _ hst ih => exact ih.snoc ⟨hbreak _ _ _ (hfwd ih).1 hst.1 hst.2, hst.1⟩

/-! ## Simulation -/

theorem Run.append {L : Lts σ ε} {s t u : σ} {es fs : List ε} (h : L.Run s es t)
    (h' : L.Run t fs u) : L.Run s (es ++ fs) u := by
  induction h' with
  | nil => simpa using h
  | snoc _ hst ih =>
    rw [← List.append_assoc]
    exact ih.snoc hst

/-- **Forward simulation.** Every concrete step is matched by a run of the abstract system, the
empty run included, so a concrete step may also be invisible. What is known of reachable abstract
states may be used. -/
theorem Reachable.simulate {L : Lts σ ε} {A : Lts σ' ε'} {R : σ → σ' → Prop}
    (hinit : ∀ s, L.init s → ∃ a, A.init a ∧ R s a)
    (hstep : ∀ s e t a, L.Reachable s → A.Reachable a → R s a → L.step s e t →
      ∃ es b, A.Run a es b ∧ R t b)
    {t : σ} (ht : L.Reachable t) : ∃ a, A.Reachable a ∧ R t a := by
  refine ht.invariant (I := fun t => ∃ a, A.Reachable a ∧ R t a) ?_ ?_
  · intro s hs
    obtain ⟨a, ha, hR⟩ := hinit s hs
    exact ⟨a, .init ha, hR⟩
  · intro s e t hs hsim hst
    obtain ⟨a, ⟨a₀, fs, ha₀, hfs⟩, hR⟩ := hsim
    obtain ⟨es, b, hab, hR'⟩ := hstep s e t a hs ⟨a₀, fs, ha₀, hfs⟩ hR hst
    exact ⟨b, ⟨a₀, fs ++ es, ha₀, hfs.append hab⟩, hR'⟩

/-! ## Systems given by a step function -/

/-- The system of a partial step function; `none` means that the label has no step. -/
def ofStep (init : σ → Prop) (f : σ → ε → Option σ) : Lts σ ε where
  init := init
  step s e t := f s e = some t

/-- Run the step function over a list of labels. -/
def exec (f : σ → ε → Option σ) : σ → List ε → Option σ
  | s, [] => some s
  | s, e :: es => (f s e).bind fun t => exec f t es

theorem run_of_exec {init : σ → Prop} {f : σ → ε → Option σ} {s t : σ} {es : List ε}
    (h : exec f s es = some t) : (ofStep init f).Run s es t := by
  induction es generalizing s with
  | nil =>
    simp only [exec, Option.some.injEq] at h
    exact h ▸ .nil
  | cons e es ih =>
    simp only [exec, Option.bind_eq_some_iff] at h
    obtain ⟨u, hu, hut⟩ := h
    have h₁ : (ofStep init f).Run s ([] ++ [e]) u := Run.nil.snoc hu
    exact h₁.append (ih hut)

theorem exec_append {f : σ → ε → Option σ} (s : σ) (es fs : List ε) :
    exec f s (es ++ fs) = (exec f s es).bind fun t => exec f t fs := by
  induction es generalizing s with
  | nil => rfl
  | cons e es ih =>
    simp only [List.cons_append, exec]
    cases f s e with
    | none => rfl
    | some u => exact ih u

theorem exec_of_run {init : σ → Prop} {f : σ → ε → Option σ} {s t : σ} {es : List ε}
    (h : (ofStep init f).Run s es t) : exec f s es = some t := by
  induction h with
  | nil => rfl
  | snoc _ hst ih =>
    have hst : f _ _ = some _ := hst
    simp [exec_append, ih, exec, hst]

/-- A run of a step function, cut at one of its labels. -/
theorem exists_step_of_run {init : σ → Prop} {f : σ → ε → Option σ} {s t u : σ} {es fs : List ε}
    {e : ε} (h : (ofStep init f).Run s (es ++ e :: fs) t) (hu : (ofStep init f).Run s es u) :
    ∃ v, f u e = some v ∧ (ofStep init f).Run v fs t := by
  have hexec := exec_of_run h
  rw [exec_append, exec_of_run hu] at hexec
  simp only [Option.bind_some, exec, Option.bind_eq_some_iff] at hexec
  obtain ⟨v, hv, ht⟩ := hexec
  exact ⟨v, hv, run_of_exec ht⟩

/-- **Which runs go through.** Labels can be taken to their end exactly if each has a step where its
turn comes. -/
theorem exists_run_iff {init : σ → Prop} {f : σ → ε → Option σ} {s : σ} {es : List ε} :
    (∃ t, (ofStep init f).Run s es t) ↔
      ∀ fs e gs u, es = fs ++ e :: gs → (ofStep init f).Run s fs u → f u e ≠ none := by
  constructor
  · intro h fs e gs u heq hu hnone
    obtain ⟨t, ht⟩ := h
    have hexec := exec_of_run ht
    rw [heq, exec_append, exec_of_run hu] at hexec
    simp [exec, hnone] at hexec
  · intro h
    suffices hexec : ∃ t, exec f s es = some t by
      obtain ⟨t, ht⟩ := hexec
      exact ⟨t, run_of_exec ht⟩
    induction es generalizing s with
    | nil => exact ⟨s, rfl⟩
    | cons e es ih =>
      obtain ⟨u, hu⟩ := Option.ne_none_iff_exists'.mp (h [] e es s rfl .nil)
      have hstep : (ofStep init f).Run s ([] ++ [e]) u := Run.nil.snoc hu
      obtain ⟨t, ht⟩ := ih (s := u) fun fs e' gs v heq hv =>
        h (e :: fs) e' gs v (by rw [heq]; rfl) (hstep.append hv)
      exact ⟨t, by simp [exec, hu, ht]⟩

/-! ## Potentials

A potential is what is left to spend: a step that `earns` adds at most `wage` to it, a step that `spends`
takes at least one away, and no other step adds anything. Where nothing is earned and nothing is wasted,
the two sides are equal (`Run.add_countP_eq`). The potential need only behave where an invariant of the
system holds. -/

section potential

variable {L : Lts σ ε} {J : σ → Prop} {potential : σ → Nat} {wage : Nat}
  {earns spends : ε → Bool}

/-- **No run lives beyond its means.** -/
theorem Run.countP_le (hkeep : ∀ s e t, J s → L.step s e t → J t)
    (hpay : ∀ s e t, J s → L.step s e t →
      potential t + (if spends e then 1 else 0) ≤ potential s + if earns e then wage else 0)
    {s t : σ} {es : List ε} (hr : L.Run s es t) (hs : J s) :
    potential t + es.countP spends ≤ potential s + wage * es.countP earns := by
  suffices h : J t ∧ potential t + es.countP spends ≤ potential s + wage * es.countP earns from h.2
  induction hr with
  | nil => exact ⟨hs, by simp⟩
  | @snoc es t u e _ hst ih =>
    obtain ⟨ht, hle⟩ := ih
    have hstep := hpay t e u ht hst
    refine ⟨hkeep t e u ht hst, ?_⟩
    have hwage : wage * (if earns e then 1 else 0) = if earns e then wage else 0 := by
      split <;> simp
    rw [List.countP_append, List.countP_append, List.countP_singleton, List.countP_singleton,
      Nat.mul_add, hwage]
    omega

/-- Where every step takes something away, a run is no longer than the potential it starts from. -/
theorem Run.length_le (hkeep : ∀ s e t, J s → L.step s e t → J t)
    (hpay : ∀ s e t, J s → L.step s e t → potential t + 1 ≤ potential s)
    {s t : σ} {es : List ε} (hr : L.Run s es t) (hs : J s) : es.length ≤ potential s := by
  have hle : potential t + es.countP (fun _ => true) ≤ potential s + 0 * es.countP fun _ => false :=
    hr.countP_le hkeep (by simpa using hpay) hs
  simp only [List.countP_true] at hle
  omega

/-- If every step takes away exactly what it spends, so does a run. -/
theorem Run.add_countP_eq (hkeep : ∀ s e t, J s → L.step s e t → J t)
    (hpay : ∀ s e t, J s → L.step s e t →
      potential t + (if spends e then 1 else 0) = potential s)
    {s t : σ} {es : List ε} (hr : L.Run s es t) (hs : J s) :
    potential t + es.countP spends = potential s := by
  suffices h : J t ∧ potential t + es.countP spends = potential s from h.2
  induction hr with
  | nil => exact ⟨hs, rfl⟩
  | @snoc es t u e _ hst ih =>
    obtain ⟨ht, heq⟩ := ih
    have hstep := hpay t e u ht hst
    refine ⟨hkeep t e u ht hst, ?_⟩
    rw [List.countP_append, List.countP_singleton]
    omega

end potential

end Lts

/-! ## Noninterference

Some labels of a deterministic system are its own and some are foreign. If every foreign label of a
sequence finds the system in a state it leaves as it is (`Inert`), the sequence shows the same as its own
labels alone (`trace_purge`). -/

namespace Purge

variable {σ ε : Type}

/-- The states after the system's own labels, oldest first. -/
def trace (step : σ → ε → σ) (own : ε → Bool) : σ → List ε → List σ
  | _, [] => []
  | s, e :: es =>
    if own e then step s e :: trace step own (step s e) es else trace step own (step s e) es

/-- Each foreign label leaves the state it finds. -/
def Inert (step : σ → ε → σ) (own : ε → Bool) : σ → List ε → Prop
  | _, [] => True
  | s, e :: es => (own e = false → step s e = s) ∧ Inert step own (step s e) es

variable {step : σ → ε → σ} {own : ε → Bool} {s : σ}

theorem trace_purge {es : List ε} (h : Inert step own s es) :
    trace step own s es = trace step own s (es.filter own) := by
  induction es generalizing s with
  | nil => rfl
  | cons e es ih =>
    obtain ⟨he, hes⟩ := h
    cases ho : own e with
    | true => simp only [trace, ho, if_true, List.filter_cons_of_pos ho, ih hes]
    | false =>
      have hneg : ¬ own e = true := by simp [ho]
      rw [List.filter_cons_of_neg hneg, trace, if_neg hneg]
      rw [he ho] at hes ⊢
      exact ih hes

/-- **Noninterference.** -/
theorem trace_congr {es fs : List ε} (heq : es.filter own = fs.filter own)
    (hes : Inert step own s es) (hfs : Inert step own s fs) :
    trace step own s es = trace step own s fs := by
  rw [trace_purge hes, trace_purge hfs, heq]

end Purge
