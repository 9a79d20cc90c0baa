import Erps.Ring.Announce

/-!
# Failed ports and the rows that open them

Outside FORCED_SWITCH a failed port should be blocked (`Protects`). Most rows respect that: they open
nothing, or use `unblock_nonfailed_ports`, or lead into FORCED_SWITCH. `KeepsFailed` lists the ones
that open a port without a look at `is_failed`, and the ones that leave FORCED_SWITCH with the ports
as they are; each field names the row and the port it must find working. The list is exact:
`Protects.advance` and `keepsFailed_of_advance` are the two directions.
-/

set_option autoImplicit false

namespace Erps

variable {τ : Type}

namespace Ring

variable {r : Ring τ} {req : RingRequest} {port : Option PortId} {remote : Option NodeId}

/-- Every failed port is blocked. -/
def FailedBlocked (r : Ring τ) : Prop :=
  ∀ p, (r.port p).isFailed = true → (r.port p).isBlocked = true

/-- What a row that does not end in FORCED_SWITCH does to the ports. -/
theorem effect_ports_cases (h : (r.effect req port remote).next ≠ .forcedSwitch) :
    (r.effect req port remote).ports = .keep ∨
      (r.effect req port remote).ports = .openNonfailed ∨
      ((req = .sf ∧ r.state ≠ .forcedSwitch ∨
          req = .ms ∧ (r.state = .idle ∨ r.state = .pending)) ∧
        (r.effect req port remote).ports = .only (named port)) ∨
      (((req = .clear ∨ req = .wtrExpires ∨ req = .wtbExpires) ∧ r.state = .pending ∧
          r.cfg.isRplOwner = true ∨
          req = .rapsNrRb ∧ r.state = .pending ∧ r.cfg.isRplNeighbour = true) ∧
        (r.effect req port remote).ports = .only r.rpl) ∨
      ((req = .rapsNrRb ∧ r.state = .pending ∧ r.cfg.isRplNeighbour = false ∧
          r.cfg.isRplOwner = false) ∧
        (r.effect req port remote).ports = .openAll) ∨
      ((req = .rapsNrRb ∧ r.state = .idle) ∧
        (r.effect req port remote).ports = .release (ringOtherPort r.cfg.rplPort)) := by
  have hrow := r.row req port remote
  generalize r.effect req port remote = e at hrow h ⊢
  cases hrow with
  | fs | fsAgain | rapsFs => exact absurd rfl h
  | stay | announce | lapse | clearSf | pass | rbOwner | rbEnds | nrProtection | nrEnds =>
    exact .inl rfl
  | rapsSf | rapsSfManual | rapsMs | nrIdle | nrPending => exact .inr (.inl rfl)
  | sf hs => exact .inr (.inr (.inl ⟨.inl ⟨rfl, hs⟩, rfl⟩))
  | ms hs => exact .inr (.inr (.inl ⟨.inr ⟨rfl, hs⟩, rfl⟩))
  | revert hs hown hreq =>
    exact .inr (.inr (.inr (.inl ⟨.inl ⟨hreq.request, hs, hown⟩, rfl⟩)))
  | rbNeighbour hs hnb => exact .inr (.inr (.inr (.inl ⟨.inr ⟨rfl, hs, hnb⟩, rfl⟩)))
  | rbPlain hs hnb hown => exact .inr (.inr (.inr (.inr (.inl ⟨⟨rfl, hs, hnb, hown⟩, rfl⟩))))
  | rbIdle hs => exact .inr (.inr (.inr (.inr (.inr ⟨⟨rfl, hs⟩, rfl⟩))))

/-- Rows 44, 56 and 57 are the ways out of FORCED_SWITCH. -/
theorem effect_of_leave (hs : r.state = .forcedSwitch)
    (h : (r.effect req port remote).next ≠ .forcedSwitch) :
    (req = .clear ∨ req = .rapsNr ∨ req = .rapsNrRb) ∧
      (r.effect req port remote).ports = .keep := by
  have hrow := r.row req port remote
  generalize r.effect req port remote = e at hrow h ⊢
  cases hrow with
  | stay => exact absurd hs h
  | announce hreq =>
    rcases hreq with ⟨hreq, _⟩ | ⟨_, hs'⟩
    · exact ⟨.inl hreq, rfl⟩
    · exact absurd (hs.symm.trans hs') (by simp)
  | lapse => exact ⟨.inl rfl, rfl⟩
  | rbEnds => exact ⟨.inr (.inr rfl), rfl⟩
  | nrEnds => exact ⟨.inr (.inl rfl), rfl⟩
  | fsAgain => exact absurd rfl h
  -- the other rows start from other states
  | _ => simp_all

theorem effect_leave (hs : r.state = .forcedSwitch)
    (hreq : req = .clear ∨ req = .rapsNr ∨ req = .rapsNrRb) (port : Option PortId)
    (remote : Option NodeId) :
    (r.effect req port remote).next = .pending ∧ (r.effect req port remote).ports = .keep := by
  rcases hreq with rfl | rfl | rfl <;> simp only [effect, announceEffect, hs]
  · split <;> simp
  · simp
  · simp

/-- The rows that end with one blocked port open the other, failed or not. -/
theorem isFailed_other_of_only {now : τ} {p : PortId}
    (hp : (r.effect req port remote).ports = .only p)
    (hf : (r.advance now req port remote).FailedBlocked) : (r.port p.other).isFailed = false := by
  apply Bool.eq_false_iff.mpr
  intro hfail
  have hb := hf p.other (by rw [advance_port]; exact hfail)
  rw [advance_port, hp] at hb
  simp [PortEffect.blocked, p.other_ne] at hb

theorem failedBlocked_of_only {now : τ} {p : PortId}
    (hp : (r.effect req port remote).ports = .only p)
    (h : (r.port p.other).isFailed = false) : (r.advance now req port remote).FailedBlocked := by
  intro q hq
  rw [advance_port] at hq ⊢
  rcases p.eq_or_eq_other q with rfl | rfl
  · simp [hp, PortEffect.blocked]
  · exact absurd hq (by simp [h])

end Ring

/-- **Failed ports are protected**, outside FORCED_SWITCH. -/
def Protects (r : Ring τ) : Prop := r.state ≠ .forcedSwitch → r.FailedBlocked

/-- The rows that open a port they have not looked at find it working, and those that leave
FORCED_SWITCH find its failed ports blocked. -/
structure KeepsFailed (r : Ring τ) (req : RingRequest) (port : Option PortId) : Prop where
  /-- rows 44, 56 and 57 -/
  leave : (req = .clear ∨ req = .rapsNr ∨ req = .rapsNrRb) → r.state = .forcedSwitch →
    r.FailedBlocked
  /-- rows 09 and 65 -/
  ms : req = .ms → r.state = .idle ∨ r.state = .pending →
    (r.port (Ring.named port).other).isFailed = false
  /-- rows 05, 19, 33 and 61 -/
  sf : req = .sf → r.state ≠ .forcedSwitch → (r.port (Ring.named port).other).isFailed = false
  /-- rows 58, 66 and 68 at the RPL owner -/
  revert : (req = .clear ∨ req = .wtrExpires ∨ req = .wtbExpires) → r.state = .pending →
    r.cfg.isRplOwner = true → (r.port r.rpl.other).isFailed = false
  /-- row 70 at the RPL neighbour -/
  row70_neighbour : req = .rapsNrRb → r.state = .pending → r.cfg.isRplNeighbour = true →
    (r.port r.rpl.other).isFailed = false
  /-- row 70 at a plain node -/
  row70_plain : req = .rapsNrRb → r.state = .pending → r.cfg.isRplNeighbour = false →
    r.cfg.isRplOwner = false → ∀ p, (r.port p).isFailed = false
  /-- row 14 -/
  row14 : req = .rapsNrRb → r.state = .idle →
    (r.port (ringOtherPort r.cfg.rplPort)).isFailed = false

namespace Protects

variable {r : Ring τ} {now : τ} {req : RingRequest} {port : Option PortId} {remote : Option NodeId}

/-- One row keeps the failed ports blocked. The port of an SF is the one that has just failed. -/
theorem advance (hP : r.state ≠ .forcedSwitch → ∀ q, (r.port q).isFailed = true →
      (r.port q).isBlocked = true ∨ (req = .sf ∧ q = Ring.named port))
    (hk : KeepsFailed r req port) : Protects (r.advance now req port remote) := by
  intro hnext
  rw [Ring.advance_state] at hnext
  by_cases hs : r.state = .forcedSwitch
  · obtain ⟨hreq, hp⟩ := Ring.effect_of_leave hs hnext
    intro q hq
    rw [Ring.advance_port] at hq ⊢
    simp only [hp, PortEffect.blocked]
    exact hk.leave hreq hs q hq
  · have hsf : req = .sf → (r.effect req port remote).ports = .only (Ring.named port) := by
      intro heq
      subst heq
      simp only [Ring.effect, if_neg hs, Ring.switchEffect]
    have hP' : req ≠ .sf → r.FailedBlocked := by
      intro hne q hq
      rcases hP hs q hq with hb | ⟨h, _⟩
      · exact hb
      · exact absurd h hne
    rcases Ring.effect_ports_cases hnext with hp | hp | ⟨hrow, hp⟩ | ⟨hrow, hp⟩ | ⟨hrow, hp⟩ |
      ⟨hrow, hp⟩
    · have hne : req ≠ .sf := by
        intro h
        rw [hsf h] at hp
        cases hp
      intro q hq
      rw [Ring.advance_port] at hq ⊢
      simp only [hp, PortEffect.blocked]
      exact hP' hne q hq
    · have hne : req ≠ .sf := by
        intro h
        rw [hsf h] at hp
        cases hp
      intro q hq
      rw [Ring.advance_port] at hq ⊢
      have hq : (r.port q).isFailed = true := hq
      simp only [hp, PortEffect.blocked, hq, Bool.true_and]
      exact hP' hne q hq
    · apply Ring.failedBlocked_of_only hp
      rcases hrow with ⟨hreq, _⟩ | ⟨hreq, hst⟩
      · exact hk.sf hreq hs
      · exact hk.ms hreq hst
    · apply Ring.failedBlocked_of_only hp
      rcases hrow with ⟨hreq, hst, hown⟩ | ⟨hreq, hst, hnb⟩
      · exact hk.revert hreq hst hown
      · exact hk.row70_neighbour hreq hst hnb
    · obtain ⟨hreq, hst, hnb, hown⟩ := hrow
      intro q hq
      rw [Ring.advance_port] at hq
      exact absurd hq (by simp [hk.row70_plain hreq hst hnb hown q])
    · obtain ⟨hreq, hst⟩ := hrow
      intro q hq
      rw [Ring.advance_port] at hq ⊢
      simp only [hp, PortEffect.blocked]
      by_cases hrel : q = ringOtherPort r.cfg.rplPort
      · have hq : (r.port q).isFailed = true := hq
        rw [hrel, hk.row14 hreq hst] at hq
        cases hq
      · simp only [hrel, decide_false, Bool.not_false, Bool.true_and]
        exact hP' (by simp [hreq]) q hq

/-- Where the condition fails, a failed port is open after the row. -/
theorem keepsFailed_of_advance (h : Protects (r.advance now req port remote)) :
    KeepsFailed r req port where
  leave hreq hs := by
    obtain ⟨hnext, hp⟩ := Ring.effect_leave hs hreq port remote
    have hf := h (by rw [Ring.advance_state, hnext]; decide)
    intro q hq
    have hb := hf q (by rw [Ring.advance_port]; exact hq)
    rw [Ring.advance_port, hp] at hb
    exact hb
  ms hreq hs := by
    subst hreq
    have he : r.effect .ms port remote = r.switchEffect .ms (Ring.named port) .manualSwitch := by
      rcases hs with hs | hs <;> simp only [Ring.effect, hs]
    exact Ring.isFailed_other_of_only (by rw [he]; rfl)
      (h (by rw [Ring.advance_state, he]; simp [Ring.switchEffect]))
  sf hreq hs := by
    subst hreq
    have he : r.effect .sf port remote = r.switchEffect .sf (Ring.named port) .protection := by
      simp only [Ring.effect, if_neg hs]
    exact Ring.isFailed_other_of_only (by rw [he]; rfl)
      (h (by rw [Ring.advance_state, he]; simp [Ring.switchEffect]))
  revert hreq hs hown := by
    have he : (r.effect req port remote).ports = .only r.rpl ∧
        (r.effect req port remote).next = .idle := by
      rcases hreq with rfl | rfl | rfl <;> simp [Ring.effect, hs, Ring.revertEffect, hown]
    exact Ring.isFailed_other_of_only he.1 (h (by rw [Ring.advance_state, he.2]; decide))
  row70_neighbour hreq hs hnb := by
    subst hreq
    have he : (r.effect .rapsNrRb port remote).ports = .only r.rpl ∧
        (r.effect .rapsNrRb port remote).next = .idle := by
      simp [Ring.effect, hs, hnb]
    exact Ring.isFailed_other_of_only he.1 (h (by rw [Ring.advance_state, he.2]; decide))
  row70_plain hreq hs hnb hown p := by
    subst hreq
    have he : (r.effect .rapsNrRb port remote).ports = .openAll ∧
        (r.effect .rapsNrRb port remote).next = .idle := by
      simp [Ring.effect, hs, hnb, hown]
    have hf := h (by rw [Ring.advance_state, he.2]; decide)
    apply Bool.eq_false_iff.mpr
    intro hp
    have hb := hf p (by rw [Ring.advance_port]; exact hp)
    rw [Ring.advance_port, he.1] at hb
    simp [PortEffect.blocked] at hb
  row14 hreq hs := by
    subst hreq
    have he := Ring.effect_rapsNrRb_idle (r := r) port remote hs
    have hf := h (by rw [Ring.advance_state, he]; simp)
    apply Bool.eq_false_iff.mpr
    intro hp
    have hb := hf (ringOtherPort r.cfg.rplPort) (by rw [Ring.advance_port]; exact hp)
    rw [Ring.advance_port, he] at hb
    simp [PortEffect.blocked] at hb

end Protects

end Erps
