import Erps.Ring.Idle
import Erps.Ring.Quiet

/-!
# Coming to rest

The way back to IDLE. While nothing fails and nobody asks for a switch, a node in PENDING or IDLE
stays there (`Calm`), what takes a node other than the RPL owner from PENDING to IDLE is R-APS(NR,RB)
and nothing else (`next_idle_iff_of_calm`), and in IDLE only the RPL owner has anything to say
(`IdleSilent`).
-/

set_option autoImplicit false

namespace Erps

variable {τ : Type} {r r' : Ring τ} {now : τ} {req : RingRequest} {port : Option PortId}
  {remote : Option NodeId}

/-- The requests of a ring in which nothing fails and nobody asks for a switch. -/
def RingRequest.isCalm : RingRequest → Bool
  | .clearSf => true
  | req => req.isQuiet

theorem RingRequest.isCalm_cases (h : req.isCalm = true) : req = .clearSf ∨ req.isQuiet = true := by
  cases req with
  | clearSf => exact .inl rfl
  | _ => exact .inr h

namespace Ring

/-! ## Rows out of PENDING and IDLE -/

theorem effect_clearSf_of_phase (hs : r.state = .pending ∨ r.state = .idle) :
    r.effect .clearSf port remote = r.stay := by
  rcases hs with hs | hs <;> simp [effect, hs]

theorem next_of_calm_idle (hc : req.isCalm = true) (hs : r.state = .idle) :
    (r.effect req port remote).next = .idle := by
  rcases RingRequest.isCalm_cases hc with rfl | hq
  · rw [effect_clearSf_of_phase (.inr hs)]
    exact hs
  · exact next_of_quiet_idle hq hs

theorem next_of_calm_pending (hc : req.isCalm = true) (hs : r.state = .pending) :
    (r.effect req port remote).next =
      if req = .rapsNr ∨ req = .clearSf then .pending else .idle := by
  rcases RingRequest.isCalm_cases hc with rfl | hq
  · rw [effect_clearSf_of_phase (.inl hs)]
    exact hs
  · have hne : req ≠ .clearSf := by
      intro h
      subst h
      cases hq
    rw [next_of_quiet_pending hq hs]
    simp [hne]

/-- A row that ends in IDLE at a node other than the RPL owner. -/
theorem effect_tx_of_next_idle (h : (r.effect req port remote).next = .idle)
    (hown : r.cfg.isRplOwner = false) :
    (r.effect req port remote).tx = .stop ∨
      (r.state = .idle ∧ (r.effect req port remote).tx = .keep) ∨
      (r.state = .pending ∧ (req = .clear ∨ req = .wtrExpires ∨ req = .wtbExpires)) := by
  have hrow := r.row req port remote
  generalize r.effect req port remote = e at hrow h ⊢
  cases hrow with
  | stay => exact .inr (.inl ⟨h, rfl⟩)
  | rbIdle => exact .inl (by simp [hown])
  | nrIdle | rbNeighbour | rbPlain => exact .inl rfl
  | revert _ hown' => exact absurd hown (by simp [hown'])
  | rbOwner _ _ hown' => exact absurd hown (by simp [hown'])
  | pass hs _ hreq => exact .inr (.inr ⟨hs, hreq.request⟩)
  | _ => cases h

end Ring

/-! ## In IDLE -/

/-- In IDLE only the RPL owner transmits. -/
def IdleSilent (r : Ring τ) : Prop :=
  r.state = .idle → r.cfg.isRplOwner = false → r.sending = none

namespace IdleSilent

theorem congr (ha : r.Alike r') (h : IdleSilent r) : IdleSilent r' := by
  unfold IdleSilent
  rw [ha.state, ha.cfg, ha.sending]
  exact h

theorem started (r : Ring τ) (now : τ) : IdleSilent (r.started now) := by
  intro hs
  cases hs

theorem advance (h : IdleSilent r) (hi : IdleSound r) (ha : r.accepts req = true)
    (hexp : req = .wtrExpires ∨ req = .wtbExpires → r.cfg.isRplOwner = true) :
    IdleSilent (r.advance now req port remote) := by
  intro hnext hown
  have hown : r.cfg.isRplOwner = false := hown
  rw [Ring.advance_sending]
  rcases Ring.effect_tx_of_next_idle hnext hown with htx | ⟨hs, htx⟩ | ⟨hs, hreq⟩
  · rw [htx]
    rfl
  · rw [htx]
    exact h hs hown
  · exact absurd (hi.owner_of_revert hs ha hexp hreq) (by simp [hown])

end IdleSilent

/-! ## On the way there -/

/-- The node has no part in a switch, and says nothing of one. -/
structure Calm (r : Ring τ) : Prop where
  phase : r.state = .pending ∨ r.state = .idle
  sends_nr : ∀ request, r.Sends request → request = .nr

namespace Calm

theorem congr (ha : r.Alike r') (h : Calm r) : Calm r' where
  phase := by
    rw [ha.state]
    exact h.phase
  sends_nr request hs := h.sends_nr request ((ha.sends_iff request).mp hs)

theorem advance (h : Calm r) (hc : req.isCalm = true) : Calm (r.advance now req port remote) where
  phase := by
    rw [Ring.advance_state]
    rcases h.phase with hs | hs
    · rw [Ring.next_of_calm_pending hc hs]
      split
      · exact .inl rfl
      · exact .inr rfl
    · exact .inr (Ring.next_of_calm_idle hc hs)
  sends_nr request hs := by
    rcases Dominant.sends_advance hs with ⟨_, hs⟩ | ⟨flags, hs⟩
    · exact h.sends_nr request hs
    · rcases r.effect_start req port remote hs with hnr | ⟨rfl, _⟩ | ⟨rfl, _⟩ | ⟨rfl, _⟩
      · exact hnr
      all_goals cases hc

/-- A node in PENDING or IDLE that transmits no R-APS(MS) of a switch it has forgotten. -/
theorem of_dominant (hd : Dominant r) (hs : r.state = .pending ∨ r.state = .idle)
    (hms : ¬ r.Sends .ms) (hev : ¬ r.Sends .event) : Calm r where
  phase := hs
  sends_nr request hsend := by
    cases request with
    | nr => rfl
    | ms => exact absurd hsend hms
    | event => exact absurd hsend hev
    | fs =>
      have hst := (hd.fs (hd.sends_fs hsend)).1
      rcases hs with hs | hs <;> exact absurd (hs.symm.trans hst) (by simp)
    | sf =>
      have hst := (hd.sf (hd.sends_sf hsend)).1
      rcases hs with hs | hs <;> exact absurd (hs.symm.trans hst) (by simp)

end Calm

/-- **What leads to IDLE**, at a node other than the RPL owner. -/
theorem next_idle_iff_of_calm (hi : IdleSound r) (hc : req.isCalm = true)
    (hs : r.state = .pending) (ha : r.accepts req = true)
    (hexp : req = .wtrExpires → r.cfg.isRplOwner = true) (hown : r.cfg.isRplOwner = false) :
    (r.effect req port remote).next = .idle ↔ req = .rapsNrRb := by
  rw [Ring.next_of_calm_pending hc hs]
  cases req with
  | rapsNr | clearSf | rapsNrRb => simp
  | clear => exact absurd (hi.owner_of_clear hs ha) (by simp [hown])
  | wtrExpires => exact absurd (hexp rfl) (by simp [hown])
  | _ => cases hc

end Erps
