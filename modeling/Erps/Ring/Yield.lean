import Erps.Ring.Previous
import Erps.Ring.Start

/-!
# Giving way to a remote switch

What is left of a node whose previous request was R-APS(FS) or R-APS(SF), whatever it was doing when it
heard it: it blocks nothing and is silent. The priority filter lets either message past everything but a
local FS or SF, and the duplicate filter swallows it only where its effect is still there.

`Yielding` adds to the retained request what FORCED_SWITCH means without a local FS. It holds of every
node; what R-APS(SF) leaves needs a node whose ports never failed (`Settled`).
-/

set_option autoImplicit false

namespace Erps

variable {τ : Type} {r r' : Ring τ} {now : τ} {req : RingRequest} {port : Option PortId}
  {remote : Option NodeId}

/-- FORCED_SWITCH is entered silently, unless by a local FS. -/
theorem Ring.effect_tx_of_next_forcedSwitch
    (h : (r.effect req port remote).next = .forcedSwitch) :
    req = .fs ∨ (r.effect req port remote).tx = .stop ∨
      (r.state = .forcedSwitch ∧ req ≠ .clear ∧ r.effect req port remote = r.stay) := by
  have hrow := r.row req port remote
  generalize r.effect req port remote = e at hrow h ⊢
  cases hrow with
  | stay hs =>
    have hst : r.state = .forcedSwitch := h
    refine .inr (.inr ⟨hst, ?_, rfl⟩)
    intro hreq
    simp [hreq, stays, hst] at hs
  | fs | fsAgain => exact .inl rfl
  | rapsFs => exact .inr (.inl rfl)
  | _ => cases h

/-- What leaves FORCED_SWITCH: a CLEAR, and the two NR messages. -/
theorem Ring.effect_next_of_forcedSwitch (hs : r.state = .forcedSwitch) (hclear : req ≠ .clear)
    (hnr : req ≠ .rapsNr) (hrb : req ≠ .rapsNrRb) :
    (r.effect req port remote).next = .forcedSwitch := by
  have hrow := r.row req port remote
  generalize r.effect req port remote = e at hrow ⊢
  cases hrow with
  | stay => exact hs
  | fs | fsAgain | rapsFs => rfl
  | announce hreq =>
    rcases hreq with ⟨hreq, _⟩ | ⟨_, hst⟩
    · exact absurd hreq hclear
    · exact absurd (hs.symm.trans hst) (by simp)
  | lapse => exact absurd rfl hclear
  | nrIdle | nrPending | nrProtection | nrEnds => exact absurd rfl hnr
  | rbIdle | rbNeighbour | rbOwner | rbPlain | rbEnds => exact absurd rfl hrb
  | sf hne => exact absurd hs hne
  | ms hst | rapsSf hst | rapsMs hst =>
    rcases hst with hst | hst <;> exact absurd (hs.symm.trans hst) (by simp)
  | rapsSfManual hst | clearSf hst | revert hst | pass hst =>
    exact absurd (hs.symm.trans hst) (by simp)

/-! ## Nothing but one's own switch -/

/-- Of all the ports a switch may hold, the node blocks the one of its own request, and it announces
that request; without one it blocks nothing and is silent. -/
structure Ring.Upholds (r : Ring τ) (req : RingRequest) (raps : RapsRequest) : Prop where
  blocks : ∀ p, (r.port p).isBlocked = true ↔ r.localRequest = req ∧ r.prev.port = some p
  sends : r.localRequest = req → r.Sends raps
  silent : r.localRequest ≠ req → r.sending = none

theorem Enforced.upholds {raps : RapsRequest} {p : PortId} (h : Enforced r raps p)
    (hl : r.localRequest = req) : r.Upholds req raps where
  blocks q := by
    rw [hl, h.prev_port, Option.some.injEq, eq_self, true_and]
    constructor
    · intro hq
      rcases p.eq_or_eq_other q with heq | heq
      · exact heq.symm
      · rw [heq, h.blocksOnly.2] at hq
        cases hq
    · intro heq
      subst heq
      exact h.blocksOnly.1
  sends _ := h.sends
  silent hne := absurd hl hne

theorem Ring.Withdrawn.upholds (h : r.Withdrawn) (hl : r.localRequest ≠ req) (raps : RapsRequest) :
    r.Upholds req raps where
  blocks q := by simp [h.isOpen q, hl]
  sends heq := absurd heq hl
  silent _ := h.silent

/-! ## Giving way -/

/-- A node gives way to R-APS(FS). -/
structure Yielding (r : Ring τ) : Prop where
  coherent : Coherent r
  dominant : Dominant r
  /-- a forced switch that is not local says nothing -/
  forced_silent : r.state = .forcedSwitch → r.localRequest ≠ .fs → r.sending = none
  rapsFs : r.prev.request = .rapsFs → r.state = .forcedSwitch

namespace Yielding

theorem congr (ha : r.Alike r') (h : Yielding r) : Yielding r' where
  coherent := h.coherent.congr ha
  dominant := h.dominant.congr ha
  forced_silent := by
    rw [ha.state, ha.localRequest, ha.sending]
    exact h.forced_silent
  rapsFs := by
    rw [ha.prev, ha.state]
    exact h.rapsFs

theorem started {r : Ring τ} (hb : Blank r) (now : τ) : Yielding (r.started now) where
  coherent := Coherent.started hb now
  dominant := Dominant.started hb now
  forced_silent h := absurd h (by simp)
  rapsFs h := by
    rw [show (r.started now).prev = r.prev from rfl, hb.prev_request] at h
    cases h

theorem advance (h : Yielding r) (ha : r.accepts req = true)
    (hport : req.namesPort = true → port.isSome = true) :
    Yielding (r.advance now req port remote) where
  coherent := h.coherent.advance
  dominant := h.dominant.advance ha hport
  forced_silent hs hl := by
    rw [Ring.advance_sending]
    rcases Ring.effect_tx_of_next_forcedSwitch hs with rfl | htx | ⟨hs', hne, hstay⟩
    · exact absurd rfl hl
    · rw [htx]
      rfl
    · rw [hstay]
      exact h.forced_silent hs' fun hfs => hne (Ring.eq_clear_of_accepts ha hfs)
  rapsFs hreq := by
    obtain rfl : req = .rapsFs := hreq
    exact Ring.effect_rapsFs_next

/-- A remote forced switch holds no port and says nothing. -/
theorem withdrawn_of_forcedSwitch (h : Yielding r) (hs : r.state = .forcedSwitch)
    (hl : r.localRequest ≠ .fs) : r.Withdrawn :=
  ⟨h.dominant.forced_open hs hl, h.forced_silent hs hl⟩

/-- A node in FORCED_SWITCH holds the port of its own FS and no other. -/
theorem upholds_fs (h : Yielding r) (hs : r.state = .forcedSwitch) : r.Upholds .fs .fs := by
  by_cases hl : r.localRequest = .fs
  · obtain ⟨_, p, he⟩ := h.dominant.fs hl
    exact he.upholds hl
  · exact (h.withdrawn_of_forcedSwitch hs hl).upholds hl .fs

theorem upholds_sf (h : Yielding r) (hl : r.localRequest = .sf) : r.Upholds .sf .sf := by
  obtain ⟨_, p, he⟩ := h.dominant.sf hl
  exact he.upholds hl

end Yielding

/-- What R-APS(SF) leaves of a node without a failed port and a switch of its own. Row 35 leaves it in
MANUAL_SWITCH. -/
structure Subdued (r : Ring τ) : Prop where
  healthy : r.Healthy
  withdrawn : r.Withdrawn
  switched : r.state = .protection ∨ r.state = .manualSwitch ∨ r.state = .forcedSwitch
  localRequest : r.localRequest = .invalid

namespace Subdued

theorem congr (ha : r.Alike r') (hf : ∀ p, (r'.port p).isFailed = (r.port p).isFailed)
    (h : Subdued r) : Subdued r' where
  healthy p := (hf p).trans (h.healthy p)
  withdrawn := ⟨ha.open_iff.mpr h.withdrawn.isOpen, ha.sending.trans h.withdrawn.silent⟩
  switched := by
    rw [ha.state]
    exact h.switched
  localRequest := by
    rw [ha.localRequest]
    exact h.localRequest

/-- It stays like that whatever else of SF it hears, and whichever timer of it should expire. -/
theorem advance (h : Subdued r) (hinit : r.state ≠ .init)
    (hreq : req = .rapsSf ∨ req = .wtrExpires) : Subdued (r.advance now req port remote) := by
  have hpending : r.state ≠ .pending := by
    intro hs
    rcases h.switched with h | h | h <;> exact absurd (hs.symm.trans h) (by simp)
  have hstay : ∀ req, r.effect req port remote = r.stay → req.retained = .invalid →
      Subdued (r.advance now req port remote) := by
    intro req he hret
    refine ⟨h.healthy.advance, h.withdrawn.advance_of_stay he, ?_, hret⟩
    rw [Ring.advance_state, he]
    exact h.switched
  rcases hreq with rfl | rfl
  · rcases r.effect_rapsSf_cases hinit port remote with ⟨_, hst⟩ | ⟨he, _⟩ | ⟨he, _⟩
    · rcases h.switched with h | h | h <;> rcases hst with hst | hst <;>
        exact absurd (hst.symm.trans h) (by simp)
    · refine ⟨h.healthy.advance, h.healthy.withdrawn_advance ?_ ?_, .inr (.inl ?_), rfl⟩
      · rw [he]
        rfl
      · rw [he]
        rfl
      · rw [Ring.advance_state, he]
        rfl
    · exact hstay _ he rfl
  · exact hstay _ (by simp [Ring.effect, hpending]) rfl

end Subdued

/-- Nothing but a local FS keeps R-APS(FS) out. -/
theorem Coherent.accepts_rapsFs (h : Coherent r) (hl : r.localRequest ≠ .fs) :
    r.accepts .rapsFs = true := by
  have hlt : r.localRequest.code < RingRequest.rapsFs.code := by
    rw [h.retained] at hl ⊢
    cases hprev : r.prev.request <;> simp [hprev, RingRequest.retained, RingRequest.code] at hl ⊢
  simp [Ring.accepts, hlt]

end Erps
