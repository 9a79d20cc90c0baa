import Erps.Ring.Announce

/-!
# IDLE and R-APS(NR,RB)

The other nodes open their ports on an R-APS(NR,RB) alone, so it must mean what it says: the RPL is
blocked at the owner. `IdleSound` is the invariant behind that. It needs more than the ports of an
IDLE node: the row that enters IDLE on a CLEAR at a node other than the owner touches no port, and is
only harmless because the filter denies that CLEAR, which in turn needs PENDING to retain nothing
(`quiet`).
-/

set_option autoImplicit false

namespace Erps

variable {τ : Type}

namespace Ring

variable {r : Ring τ} {req : RingRequest} {port : Option PortId} {remote : Option NodeId}

/-- The rows that end in IDLE. -/
theorem effect_of_next_idle (h : (r.effect req port remote).next = .idle) :
    (r.state = .idle ∧ req ≠ .rapsNrRb ∧ (r.effect req port remote).ports = .keep ∧
        (r.effect req port remote).tx = .keep) ∨
      (r.state = .idle ∧ req = .rapsNrRb ∧
        (r.effect req port remote).ports = .release (ringOtherPort r.cfg.rplPort)) ∨
      (r.state = .idle ∧ (r.cfg.isRplOwner = false ∧ r.cfg.isRplNeighbour = false) ∧
        (r.effect req port remote).ports = .openNonfailed) ∨
      (r.state = .pending ∧ (req = .clear ∨ req = .wtrExpires ∨ req = .wtbExpires) ∧
        r.effect req port remote = r.revertEffect (r.effect req port remote).wtr
          (r.effect req port remote).wtb) ∨
      (r.state = .pending ∧ req = .rapsNrRb) := by
  have hrow := r.row req port remote
  generalize r.effect req port remote = e at hrow h ⊢
  cases hrow with
  | stay hs =>
    have hst : r.state = .idle := h
    refine .inl ⟨hst, ?_, rfl, rfl⟩
    intro hreq
    simp [hreq, stays] at hs
  | rbIdle hs => exact .inr (.inl ⟨hs, rfl, rfl⟩)
  | nrIdle hs hplain => exact .inr (.inr (.inl ⟨hs, hplain, rfl⟩))
  | revert hs hown hreq =>
    exact .inr (.inr (.inr (.inl ⟨hs, hreq.request, by simp [revertEffect, hown]⟩)))
  | pass hs hown hreq =>
    exact .inr (.inr (.inr (.inl ⟨hs, hreq.request, by simp [revertEffect, hown]⟩)))
  | rbNeighbour hs | rbOwner hs | rbPlain hs => exact .inr (.inr (.inr (.inr ⟨hs, rfl⟩)))
  | _ => cases h

/-- FS, SF and MS lead out of IDLE and PENDING. -/
theorem retained_of_next (h : (r.effect req port remote).next = .idle ∨
    (r.effect req port remote).next = .pending) : req.retained = .invalid := by
  cases req with
  | fs | sf | ms =>
    cases hs : r.state <;> simp only [effect, switchEffect, stay, hs] at h <;>
      (repeat' split at h) <;> simp_all
  | _ => rfl

theorem next_idle_of_keep (hs : r.state = .idle) (h : (r.effect req port remote).tx = .keep) :
    (r.effect req port remote).next = .idle := by
  have hrow := r.row req port remote
  generalize r.effect req port remote = e at hrow h ⊢
  cases hrow with
  | stay => exact hs
  | pass | rbIdle | rbOwner => rfl
  | lapse hs' => rcases hs' with hs' | hs' <;> exact absurd (hs.symm.trans hs') (by simp)
  | rbEnds hidle => exact absurd hs hidle
  | nrProtection hs' => exact absurd (hs.symm.trans hs') (by simp)
  | nrEnds hs' => rcases hs' with hs' | hs' | hs' <;> exact absurd (hs.symm.trans hs') (by simp)
  | _ => cases h

/-- Row 70. -/
theorem effect_rapsNrRb_pending (port : Option PortId) (remote : Option NodeId)
    (hs : r.state = .pending) (hown : r.cfg.isRplOwner = false) :
    r.effect .rapsNrRb port remote =
      if r.cfg.isRplNeighbour then ⟨.only r.rpl, .stop, .idle, .keep, .keep, .keep⟩
      else ⟨.openAll, .stop, .idle, .keep, .keep, .keep⟩ := by
  simp only [effect, hs, ownerStop, hown, Bool.false_eq_true, if_false]

end Ring

/-- What holds of a node whose owner hears no R-APS(NR,RB). -/
structure IdleSound (r : Ring τ) : Prop where
  not_both : (r.cfg.isRplOwner && r.cfg.isRplNeighbour) = false
  /-- nothing is retained in IDLE and PENDING -/
  quiet : r.state = .idle ∨ r.state = .pending → r.localRequest = .invalid
  idle_rpl : r.state = .idle → r.cfg.isRplOwner = true ∨ r.cfg.isRplNeighbour = true →
    r.BlocksOnly r.rpl
  idle_plain : r.state = .idle → r.cfg.isRplOwner = false → r.cfg.isRplNeighbour = false → r.Open
  sendsNrRb_iff : r.SendsNrRb ↔ r.cfg.isRplOwner = true ∧ r.state = .idle

namespace IdleSound

variable {r r' : Ring τ} {now : τ} {req : RingRequest} {port : Option PortId}
  {remote : Option NodeId}

theorem congr (ha : r.Alike r') (h : IdleSound r) : IdleSound r' where
  not_both := by
    rw [ha.cfg]
    exact h.not_both
  quiet hs := by
    rw [ha.localRequest]
    exact h.quiet (by rwa [ha.state] at hs)
  idle_rpl hs hrole := by
    rw [ha.state] at hs
    rw [ha.cfg] at hrole
    have hrpl : r'.rpl = r.rpl := by
      unfold Ring.rpl
      rw [ha.cfg]
    rw [ha.blocksOnly_iff, hrpl]
    exact h.idle_rpl hs hrole
  idle_plain hs hown hnb := by
    rw [ha.state] at hs
    rw [ha.cfg] at hown hnb
    rw [ha.open_iff]
    exact h.idle_plain hs hown hnb
  sendsNrRb_iff := by
    rw [ha.sendsNrRb_iff, ha.cfg, ha.state]
    exact h.sendsNrRb_iff

theorem started {r : Ring τ} (hb : Blank r) (now : τ)
    (hrole : (r.cfg.isRplOwner && r.cfg.isRplNeighbour) = false) : IdleSound (r.started now) where
  not_both := hrole
  quiet _ := hb.localRequest
  idle_rpl hs := absurd hs (by simp)
  idle_plain hs := absurd hs (by simp)
  sendsNrRb_iff := by
    constructor
    · intro h
      obtain ⟨flags, hs, hrb⟩ := h
      rw [Ring.started_sending] at hs
      cases hs
      exact absurd hrb (by simp)
    · intro h
      obtain ⟨_, hs⟩ := h
      exact absurd hs (by simp)

/-- In PENDING only the RPL owner gets a CLEAR past the filter. -/
theorem owner_of_clear (hi : IdleSound r) (hs : r.state = .pending) (ha : r.accepts .clear = true) :
    r.cfg.isRplOwner = true := by
  have hl := hi.quiet (.inr hs)
  rcases Ring.cases_of_accepts_clear ha with h | h | ⟨h, _⟩
  · exact absurd h (by simp [hl])
  · exact absurd h (by simp [hl])
  · exact h

/-- The node an accepted CLEAR or an expired timer reverts is the RPL owner. -/
theorem owner_of_revert (hi : IdleSound r) (hs : r.state = .pending) (ha : r.accepts req = true)
    (hexp : req = .wtrExpires ∨ req = .wtbExpires → r.cfg.isRplOwner = true)
    (hreq : req = .clear ∨ req = .wtrExpires ∨ req = .wtbExpires) : r.cfg.isRplOwner = true := by
  rcases hreq with rfl | h
  · exact hi.owner_of_clear hs ha
  · exact hexp h

theorem sendsNrRb_of_next (hi : IdleSound r)
    (hrb : req = .rapsNrRb → r.cfg.isRplOwner = false) (hown : r.cfg.isRplOwner = true)
    (hnext : (r.effect req port remote).next = .idle) :
    (r.advance now req port remote).SendsNrRb := by
  rcases Ring.effect_of_next_idle hnext with ⟨hs, _, _, htx⟩ | ⟨_, hreq, _⟩ | ⟨_, ⟨h, _⟩, _⟩ |
    ⟨_, _, he⟩ | ⟨_, hreq⟩
  · obtain ⟨flags, hsend, hflags⟩ := hi.sendsNrRb_iff.mpr ⟨hown, hs⟩
    refine ⟨flags, ?_, hflags⟩
    rw [Ring.advance_sending, htx]
    exact hsend
  · exact absurd hown (by simp [hrb hreq])
  · exact absurd hown (by simp [h])
  · refine ⟨rapsFlagRb ||| r.dnfIf r.rpl, ?_, Ring.hasRb_revert r _⟩
    rw [Ring.advance_sending, he]
    simp [Ring.revertEffect, hown, TxEffect.sending]
  · exact absurd hown (by simp [hrb hreq])

theorem owner_of_sendsNrRb (hi : IdleSound r)
    (h : (r.advance now req port remote).SendsNrRb) :
    r.cfg.isRplOwner = true ∧ (r.effect req port remote).next = .idle := by
  obtain ⟨flags, hs, hflags⟩ := h
  rcases Ring.sending_advance_cases hs with ⟨he, hs⟩ | he
  · obtain ⟨hown, hidle⟩ := hi.sendsNrRb_iff.mp ⟨flags, hs, hflags⟩
    exact ⟨hown, Ring.next_idle_of_keep hidle he⟩
  · rcases Ring.effect_of_start_nr he with ⟨rfl, _⟩ | ⟨_, hown, _, _, hnext⟩
    · exact absurd hflags (by simp)
    · exact ⟨hown, hnext⟩

/-- **One row.** Expiry is reported at the owner only, and R-APS(NR,RB) never reaches it. -/
theorem advance (hi : IdleSound r) (hrpl : r.cfg.RplSet) (ha : r.accepts req = true)
    (hexp : req = .wtrExpires ∨ req = .wtbExpires → r.cfg.isRplOwner = true)
    (hrb : req = .rapsNrRb → r.cfg.isRplOwner = false) :
    IdleSound (r.advance now req port remote) where
  not_both := hi.not_both
  quiet := Ring.retained_of_next
  idle_rpl hnext hrole := by
    have hrole : r.cfg.isRplOwner = true ∨ r.cfg.isRplNeighbour = true := hrole
    show (r.advance now req port remote).BlocksOnly r.rpl
    rcases Ring.effect_of_next_idle hnext with ⟨hs, _, hp, _⟩ | ⟨hs, hreq, hp⟩ | ⟨_, ⟨h, h'⟩, _⟩ |
      ⟨hs, hreq, he⟩ | ⟨hs, hreq⟩
    · have hb := hi.idle_rpl hs hrole
      constructor
      · simp [hp, PortEffect.blocked, hb.1]
      · simp [hp, PortEffect.blocked, hb.2]
    · -- row 14 at the neighbour releases the port that is open already
      have hb := hi.idle_rpl hs hrole
      have hnb : r.cfg.isRplNeighbour = true := by
        rcases hrole with h | h
        · exact absurd h (by simp [hrb hreq])
        · exact h
      rw [Ring.rplPort_of_neighbour hrpl hnb, ringOtherPort_some] at hp
      constructor
      · simp [hp, PortEffect.blocked, hb.1, r.rpl.other_ne.symm]
      · simp [hp, PortEffect.blocked]
    · rcases hrole with h'' | h''
      · exact absurd h'' (by simp [h])
      · exact absurd h'' (by simp [h'])
    · have hown := hi.owner_of_revert hs ha hexp hreq
      apply Ring.hasBlock_advance_of_only
      rw [he]
      simp [Ring.revertEffect, hown]
    · have hown := hrb hreq
      subst hreq
      have hnb : r.cfg.isRplNeighbour = true := by
        rcases hrole with h | h
        · exact absurd h (by simp [hown])
        · exact h
      apply Ring.hasBlock_advance_of_only
      rw [Ring.effect_rapsNrRb_pending port remote hs hown, if_pos hnb]
  idle_plain hnext hown' hnb' q := by
    have hown : r.cfg.isRplOwner = false := hown'
    have hnb : r.cfg.isRplNeighbour = false := hnb'
    rcases Ring.effect_of_next_idle hnext with ⟨hs, _, hp, _⟩ | ⟨hs, _, hp⟩ | ⟨hs, _, hp⟩ |
      ⟨hs, hreq, _⟩ | ⟨hs, hreq⟩
    · simp [hp, PortEffect.blocked, hi.idle_plain hs hown hnb q]
    · simp [hp, PortEffect.blocked, hi.idle_plain hs hown hnb q]
    · simp [hp, PortEffect.blocked, hi.idle_plain hs hown hnb q]
    · exact absurd (hi.owner_of_revert hs ha hexp hreq) (by simp [hown])
    · subst hreq
      rw [Ring.advance_port, Ring.effect_rapsNrRb_pending port remote hs hown, if_neg (by simp [hnb])]
      rfl
  sendsNrRb_iff := by
    constructor
    · exact hi.owner_of_sendsNrRb
    · intro h
      obtain ⟨hown, hnext⟩ := h
      exact hi.sendsNrRb_of_next hrb hown hnext

end IdleSound

end Erps
