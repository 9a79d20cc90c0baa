import Erps.Ring.Start

/-!
# A block and the message about it

Which rows leave the transmission alone, which start R-APS(NR), and what either kind does to the
ports. Everything a node says about a block is decided here: a row that keeps the message keeps the
ports, row 14 at an RPL owner apart (`effect_ports_of_keep`), and a row that starts R-APS(NR) without
RB keeps them too and has looked for a block first, row 20 apart (`effect_of_start_nr`).
-/

set_option autoImplicit false

namespace Erps

variable {τ : Type}

namespace Ring

variable {r : Ring τ} {req : RingRequest} {port : Option PortId} {remote : Option NodeId}

/-! ## Rows, by what they transmit -/

theorem effect_ports_of_keep (h : (r.effect req port remote).tx = .keep) :
    (r.effect req port remote).ports = .keep ∨
      (req = .rapsNrRb ∧ r.state = .idle ∧ r.cfg.isRplOwner = true ∧
        (r.effect req port remote).ports = .release (ringOtherPort r.cfg.rplPort)) := by
  have hrow := r.row req port remote
  generalize r.effect req port remote = e at hrow h ⊢
  cases hrow with
  | stay | lapse | pass | rbOwner | rbEnds | nrProtection | nrEnds => exact .inl rfl
  | rbIdle hs =>
    cases hown : r.cfg.isRplOwner with
    | true => exact .inr ⟨rfl, hs, rfl, rfl⟩
    | false => simp [hown] at h
  | _ => cases h

/-- A row that starts R-APS(NR) announces a block it has found, is row 20, or moves the block to the
RPL. -/
theorem effect_of_start_nr {flags : UInt8}
    (h : (r.effect req port remote).tx = .start .nr flags) :
    (flags = 0 ∧ (r.effect req port remote).ports = .keep ∧
        (r.anyBlocked = true ∨ (req = .clearSf ∧ r.state = .protection))) ∨
      (flags = rapsFlagRb ||| r.dnfIf r.rpl ∧ r.cfg.isRplOwner = true ∧ r.state = .pending ∧
        (r.effect req port remote).ports = .only r.rpl ∧
        (r.effect req port remote).next = .idle) := by
  have hrow := r.row req port remote
  generalize r.effect req port remote = e at hrow h ⊢
  cases hrow with
  | announce _ hb =>
    cases h
    exact .inl ⟨rfl, rfl, .inl hb⟩
  | clearSf hs =>
    cases h
    exact .inl ⟨rfl, rfl, .inr ⟨rfl, hs⟩⟩
  | revert hs hown =>
    cases h
    exact .inr ⟨rfl, hown, hs, rfl, rfl⟩
  | rbIdle => cases hown : r.cfg.isRplOwner <;> simp [hown] at h
  | _ => cases h

/-- A row that starts anything else blocks a port. -/
theorem effect_of_start_other {request : RapsRequest} {flags : UInt8}
    (h : (r.effect req port remote).tx = .start request flags) (hne : request ≠ .nr) :
    ∃ p, (r.effect req port remote).ports = .only p ∨ (r.effect req port remote).ports = .add p := by
  have hrow := r.row req port remote
  generalize r.effect req port remote = e at hrow h ⊢
  cases hrow with
  | fs | sf | ms => exact ⟨named port, .inl rfl⟩
  | fsAgain => exact ⟨named port, .inr rfl⟩
  | announce | clearSf | revert =>
    cases h
    exact absurd rfl hne
  | rbIdle => cases hown : r.cfg.isRplOwner <;> simp [hown] at h
  | _ => cases h

/-- No local request opens a port without blocking one. -/
theorem effect_ports_of_local (h : req.isRaps = false) :
    (r.effect req port remote).ports = .keep ∨
      ∃ p, (r.effect req port remote).ports = .only p ∨ (r.effect req port remote).ports = .add p := by
  have hrow := r.row req port remote
  generalize r.effect req port remote = e at hrow ⊢
  cases hrow with
  | stay | announce | lapse | clearSf | pass => exact .inl rfl
  | fs | sf | ms => exact .inr ⟨named port, .inl rfl⟩
  | fsAgain => exact .inr ⟨named port, .inr rfl⟩
  | revert => exact .inr ⟨r.rpl, .inl rfl⟩
  | _ => cases h

/-- Row 20. -/
theorem effect_clearSf (port : Option PortId) (remote : Option NodeId) (hs : r.state = .protection) :
    r.effect .clearSf port remote = ⟨.keep, .start .nr 0, .pending, .start, r.ownerStart, .keep⟩ := by
  simp only [effect, hs]

/-- Row 14. -/
theorem effect_rapsNrRb_idle (port : Option PortId) (remote : Option NodeId) (hs : r.state = .idle) :
    r.effect .rapsNrRb port remote =
      ⟨.release (ringOtherPort r.cfg.rplPort), if r.cfg.isRplOwner then .keep else .stop, .idle,
        .keep, .keep, .keep⟩ := by
  simp only [effect, hs]

/-! ## Blocks -/

theorem hasBlock_advance_of_keep {now : τ} (h : (r.effect req port remote).ports = .keep) :
    (r.advance now req port remote).HasBlock ↔ r.HasBlock := by
  simp only [HasBlock, advance_port, h, PortEffect.blocked]

theorem hasBlock_advance_of_only {now : τ} {p : PortId}
    (h : (r.effect req port remote).ports = .only p) :
    (r.advance now req port remote).BlocksOnly p := by
  constructor
  · simp [h, PortEffect.blocked]
  · simp [h, PortEffect.blocked, p.other_ne]

theorem hasBlock_advance_of_blocks {now : τ} {p : PortId}
    (h : (r.effect req port remote).ports = .only p ∨ (r.effect req port remote).ports = .add p) :
    (r.advance now req port remote).HasBlock := by
  refine ⟨p, ?_⟩
  rcases h with h | h <;> simp [h, PortEffect.blocked]

/-- Of two ports, the one that is not released decides. -/
theorem hasBlock_advance_of_release {now : τ} {p : PortId}
    (h : (r.effect req port remote).ports = .release p) :
    (r.advance now req port remote).HasBlock ↔ (r.port p.other).isBlocked = true := by
  constructor
  · intro h
    obtain ⟨q, hq⟩ := h
    rw [advance_port, h] at hq
    rcases p.eq_or_eq_other q with rfl | rfl
    · simp [PortEffect.blocked] at hq
    · simpa [PortEffect.blocked, p.other_ne] using hq
  · intro hp
    refine ⟨p.other, ?_⟩
    simp [h, PortEffect.blocked, p.other_ne, hp]

/-- The port an RPL owner releases in row 14 is not its RPL port. -/
theorem ringOtherPort_rplPort (hrpl : r.cfg.RplSet) (h : r.cfg.isRplOwner = true) :
    ringOtherPort r.cfg.rplPort = r.rpl.other := by
  rw [rplPort_of_owner hrpl h, ringOtherPort_some]

@[simp] theorem hasRb_revert (r : Ring τ) (p : PortId) : hasRb (rapsFlagRb ||| r.dnfIf p) = true := by
  unfold dnfIf
  split <;> decide

end Ring

/-! ## NR without RB -/

/-- **A node that announces NR owns a block.** -/
def Announced (r : Ring τ) : Prop := r.SendsPlainNr → r.HasBlock

theorem Announced.congr {r r' : Ring τ} (h : r.Alike r') : Announced r' ↔ Announced r := by
  unfold Announced
  rw [h.sendsPlainNr_iff, h.hasBlock_iff]

/-- The two rows that announce NR, or go on announcing it, over ports they do not look at. -/
structure BacksNr (r : Ring τ) (req : RingRequest) : Prop where
  /-- row 20 finds a block -/
  row20 : req = .clearSf → r.state = .protection → r.HasBlock
  /-- row 14 finds the RPL owner's own block in place -/
  row14 : req = .rapsNrRb → r.state = .idle → r.cfg.isRplOwner = true → r.SendsPlainNr →
    (r.port r.rpl).isBlocked = true

theorem BacksNr.congr {r r' : Ring UInt64} (ha : r.Alike r') {req : RingRequest}
    (h : BacksNr r req) : BacksNr r' req where
  row20 hreq hs := by
    rw [ha.state] at hs
    rw [ha.hasBlock_iff]
    exact h.row20 hreq hs
  row14 hreq hs hown hplain := by
    rw [ha.state] at hs
    rw [ha.cfg] at hown
    rw [ha.sendsPlainNr_iff] at hplain
    have hrpl : r'.rpl = r.rpl := by
      unfold Ring.rpl
      rw [ha.cfg]
    rw [hrpl, ha.blocked]
    exact h.row14 hreq hs hown hplain

namespace Announced

variable {r : Ring τ} {now : τ} {req : RingRequest} {port : Option PortId} {remote : Option NodeId}

theorem started (r : Ring τ) (now : τ) : Announced (r.started now) :=
  fun _ => (r.started_blocksOnly now).hasBlock

theorem advance (ha : Announced r) (hrpl : r.cfg.RplSet) (hb : BacksNr r req) :
    Announced (r.advance now req port remote) := by
  intro h
  obtain ⟨flags, hs, hrb⟩ := h
  rcases Ring.sending_advance_cases hs with ⟨he, hs⟩ | he
  · have hplain : r.SendsPlainNr := ⟨flags, hs, hrb⟩
    rcases Ring.effect_ports_of_keep he with hp | ⟨hreq, hidle, hown, hp⟩
    · exact (Ring.hasBlock_advance_of_keep hp).mpr (ha hplain)
    · rw [Ring.ringOtherPort_rplPort hrpl hown] at hp
      apply (Ring.hasBlock_advance_of_release hp).mpr
      rw [PortId.other_other]
      exact hb.row14 hreq hidle hown hplain
  · rcases Ring.effect_of_start_nr he with ⟨_, hp, hfound⟩ | ⟨rfl, _⟩
    · apply (Ring.hasBlock_advance_of_keep hp).mpr
      rcases hfound with hany | ⟨hreq, hprot⟩
      · exact Ring.hasBlock_iff.mpr hany
      · exact hb.row20 hreq hprot
    · rw [Ring.hasRb_revert] at hrb
      cases hrb

/-- Where the condition fails, the row leaves a node that announces a block it does not have. -/
theorem backsNr_of_advance (hrpl : r.cfg.RplSet)
    (ha : Announced (r.advance now req port remote)) : BacksNr r req where
  row20 hreq hprot := by
    subst hreq
    have he := Ring.effect_clearSf port remote hprot
    have hs : (r.advance now .clearSf port remote).SendsPlainNr := by
      refine ⟨0, ?_, hasRb_zero⟩
      rw [Ring.advance_sending, he]
      rfl
    exact (Ring.hasBlock_advance_of_keep (by rw [he])).mp (ha hs)
  row14 hreq hidle hown hplain := by
    subst hreq
    have he := Ring.effect_rapsNrRb_idle port remote hidle
    rw [if_pos hown, Ring.ringOtherPort_rplPort hrpl hown] at he
    obtain ⟨flags, hs, hrb⟩ := hplain
    have hs' : (r.advance now .rapsNrRb port remote).SendsPlainNr := by
      refine ⟨flags, ?_, hrb⟩
      rw [Ring.advance_sending, he]
      exact hs
    have hblock := (Ring.hasBlock_advance_of_release (by rw [he])).mp (ha hs')
    rwa [PortId.other_other] at hblock

end Announced

/-! ## Any message -/

/-- A node that transmits anything owns a block. -/
def Backed (r : Ring τ) : Prop := r.sending ≠ none → r.HasBlock

/-- RB is transmitted by the RPL owner only. -/
def RbOwned (r : Ring τ) : Prop := r.SendsNrRb → r.cfg.isRplOwner = true

section network

variable {r r' : Ring τ} {now : τ} {req : RingRequest} {port : Option PortId}
  {remote : Option NodeId}

theorem Backed.congr (ha : r.Alike r') : Backed r' ↔ Backed r := by
  unfold Backed
  rw [ha.sending, ha.hasBlock_iff]

theorem Backed.advance (hb : Backed r)
    (h20 : req = .clearSf → r.state = .protection → r.HasBlock)
    (h14 : req = .rapsNrRb → r.cfg.isRplOwner = false) :
    Backed (r.advance now req port remote) := by
  intro hs
  obtain ⟨⟨request, flags⟩, hs⟩ := Option.ne_none_iff_exists'.mp hs
  rcases Ring.sending_advance_cases hs with ⟨he, hs⟩ | he
  · rcases Ring.effect_ports_of_keep he with hp | ⟨hreq, _, hown, _⟩
    · exact (Ring.hasBlock_advance_of_keep hp).mpr (hb (by simp [hs]))
    · exact absurd hown (by simp [h14 hreq])
  · by_cases hnr : request = .nr
    · subst hnr
      rcases Ring.effect_of_start_nr he with ⟨_, hp, hfound⟩ | ⟨_, _, _, hp, _⟩
      · apply (Ring.hasBlock_advance_of_keep hp).mpr
        rcases hfound with hany | ⟨hreq, hprot⟩
        · exact Ring.hasBlock_iff.mpr hany
        · exact h20 hreq hprot
      · exact (Ring.hasBlock_advance_of_only hp).hasBlock
    · obtain ⟨p, hp⟩ := Ring.effect_of_start_other he hnr
      exact Ring.hasBlock_advance_of_blocks hp

theorem RbOwned.congr (ha : r.Alike r') : RbOwned r' ↔ RbOwned r := by
  unfold RbOwned
  rw [ha.sendsNrRb_iff, ha.cfg]

theorem RbOwned.advance (h : RbOwned r) : RbOwned (r.advance now req port remote) := by
  intro h
  obtain ⟨flags, hs, hrb⟩ := h
  rcases Ring.sending_advance_cases hs with ⟨_, hs⟩ | he
  · exact h ⟨flags, hs, hrb⟩
  · rcases Ring.effect_of_start_nr he with ⟨rfl, _⟩ | ⟨_, hown, _⟩
    · exact absurd hrb (by simp)
    · exact hown

/-- A local request never takes a node's last block away. -/
theorem Ring.HasBlock.advance_of_local (hb : r.HasBlock) (h : req.isRaps = false) :
    (r.advance now req port remote).HasBlock := by
  rcases Ring.effect_ports_of_local h with hp | ⟨p, hp⟩
  · exact (Ring.hasBlock_advance_of_keep hp).mpr hb
  · exact Ring.hasBlock_advance_of_blocks hp

end network

end Erps
