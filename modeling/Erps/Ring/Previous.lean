import Erps.Ring.Retained

/-!
# What the previous request left behind

The duplicate filter drops a request that equals the previous one, so whether it is transparent is a
question about rows taken twice. `Settled` collects the answers: what the row of each kind of request
has left of state, ports and transmission for a second row to find. It needs a node none of whose
ports is failed; the kernel module never sets `is_failed`.

Only the fields of requests another node repeats are here. A local FS, SF or MS that passes the
priority filter is never a duplicate (`Coherent.prev_request_ne`).
-/

set_option autoImplicit false

namespace Erps

variable {τ : Type}

namespace Ring

/-- Both ports are open and nothing is transmitted: what `withdraw` leaves of a node without failed
ports. -/
structure Withdrawn (r : Ring τ) : Prop where
  isOpen : r.Open
  silent : r.sending = none

/-- No port is failed. -/
def Healthy (r : Ring τ) : Prop := ∀ p, (r.port p).isFailed = false

variable {r : Ring τ} {req : RingRequest} {port : Option PortId} {remote : Option NodeId}

/-! ## Rows, by where they lead -/

/-- PROTECTION is entered by SF, or by R-APS(SF) with the ports opened; any other row that ends there
started there and did nothing. -/
theorem effect_next_protection (h : (r.effect req port remote).next = .protection) :
    req = .sf ∨
      ((r.effect req port remote).ports = .openNonfailed ∧
        (r.effect req port remote).tx = .stop) ∨
      (r.state = .protection ∧ (req ≠ .clearSf ∧ req ≠ .rapsFs ∧ req ≠ .fs) ∧
        r.effect req port remote = r.stay) := by
  have hrow := r.row req port remote
  generalize r.effect req port remote = e at hrow h ⊢
  cases hrow with
  | stay hs =>
    have hst : r.state = .protection := h
    refine .inr (.inr ⟨hst, ?_, rfl⟩)
    refine ⟨?_, ?_, ?_⟩ <;>
    · intro hreq
      simp [hreq, stays, hst] at hs
  | sf => exact .inl rfl
  | rapsSf => exact .inr (.inl ⟨rfl, rfl⟩)
  | _ => cases h

theorem effect_rapsFs_next : (r.effect .rapsFs port remote).next = .forcedSwitch := by
  simp only [effect]
  split
  · assumption
  · rfl

/-- A CLEAR_SF leads out of PROTECTION and nowhere else. -/
theorem effect_clearSf_cases (r : Ring τ) (port : Option PortId) (remote : Option NodeId) :
    (r.effect .clearSf port remote).next = .pending ∨
      (r.state ≠ .protection ∧ r.effect .clearSf port remote = r.stay) := by
  cases hs : r.state <;> simp [effect, hs]

/-- Rows 7, 21, 35, 49 and 63. Row 35 opens the ports of a manual switch and stays in it. -/
theorem effect_rapsSf_cases (hinit : r.state ≠ .init) (port : Option PortId)
    (remote : Option NodeId) :
    (r.effect .rapsSf port remote = r.withdraw .openNonfailed .protection ∧
        (r.state = .idle ∨ r.state = .pending)) ∨
      (r.effect .rapsSf port remote = r.withdraw .openNonfailed .manualSwitch ∧
        r.state = .manualSwitch) ∨
      (r.effect .rapsSf port remote = r.stay ∧
        (r.state = .protection ∨ r.state = .forcedSwitch)) := by
  cases hs : r.state with
  | init => exact absurd hs hinit
  | idle | pending | manualSwitch | protection | forcedSwitch => simp [effect, hs]

/-! ## Opening the ports of a healthy node -/

theorem Healthy.advance (hh : r.Healthy) {now : τ} : (r.advance now req port remote).Healthy := by
  intro p
  rw [advance_port]
  exact hh p

theorem Healthy.open_advance (hh : r.Healthy) {now : τ}
    (h : (r.effect req port remote).ports = .openNonfailed) :
    (r.advance now req port remote).Open := by
  intro p
  simp [h, PortEffect.blocked, hh p]

theorem Healthy.withdrawn_advance (hh : r.Healthy) {now : τ}
    (hp : (r.effect req port remote).ports = .openNonfailed)
    (ht : (r.effect req port remote).tx = .stop) :
    (r.advance now req port remote).Withdrawn := by
  refine ⟨hh.open_advance hp, ?_⟩
  rw [advance_sending, ht]
  rfl

theorem Open.advance_of_keep (ho : r.Open) {now : τ}
    (h : (r.effect req port remote).ports = .keep) : (r.advance now req port remote).Open := by
  intro p
  simp [h, PortEffect.blocked, ho p]

theorem Withdrawn.advance_of_stay (hw : r.Withdrawn) {now : τ}
    (h : r.effect req port remote = r.stay) : (r.advance now req port remote).Withdrawn := by
  refine ⟨hw.isOpen.advance_of_keep (by rw [h]; rfl), ?_⟩
  rw [advance_sending, h]
  exact hw.silent

theorem open_iff_anyBlocked : r.Open ↔ r.anyBlocked = false := by
  constructor
  · intro h
    simp [anyBlocked, show r.port0.isBlocked = false from h .port0,
      show r.port1.isBlocked = false from h .port1, Ring.port]
  · intro h p
    simp only [anyBlocked, Bool.or_eq_false_iff] at h
    cases p with
    | port0 => exact h.1
    | port1 => exact h.2

end Ring

/-! ## The invariant -/

/-- What the previous request has left, by its kind. -/
structure Settled (r : Ring τ) : Prop where
  healthy : r.Healthy
  /-- a protection switch that is not local holds no port and says nothing -/
  protection : r.state = .protection → r.localRequest ≠ .sf → r.Withdrawn
  clearSf : r.prev.request = .clearSf → r.state ≠ .protection
  rapsFs : r.prev.request = .rapsFs → r.state = .forcedSwitch
  rapsSf : r.prev.request = .rapsSf →
    r.state = .protection ∨ r.state = .forcedSwitch ∨ (r.state = .manualSwitch ∧ r.Withdrawn)
  rapsMs : r.prev.request = .rapsMs → r.state ≠ .idle ∧ (r.state = .manualSwitch → r.Open)
  rapsNrRb : r.prev.request = .rapsNrRb →
    r.state = .pending ∨ (r.state = .idle ∧ (r.cfg.isRplOwner = false →
      (r.port (ringOtherPort r.cfg.rplPort)).isBlocked = false ∧ r.sending = none))
  rapsNr : r.prev.request = .rapsNr →
    r.state = .pending ∨ (r.state = .idle ∧ (r.cfg.isRplOwner = false →
      r.cfg.isRplNeighbour = false → r.isBelow (some r.prev.remoteNodeId) = true → r.Withdrawn))

namespace Settled

variable {r : Ring τ} {now : τ} {req : RingRequest} {port : Option PortId} {remote : Option NodeId}

theorem congr {r r' : Ring τ} (h : Settled r) (ha : r.Alike r')
    (hf : ∀ p, (r'.port p).isFailed = (r.port p).isFailed) : Settled r' := by
  have hw : r'.Withdrawn ↔ r.Withdrawn := by
    constructor
    · intro hw
      exact ⟨ha.open_iff.mp hw.isOpen, ha.sending.symm.trans hw.silent⟩
    · intro hw
      exact ⟨ha.open_iff.mpr hw.isOpen, ha.sending.trans hw.silent⟩
  have hbelow : ∀ id, r'.isBelow id = r.isBelow id := by
    intro id
    unfold Ring.isBelow
    rw [ha.cfg]
  refine ⟨fun p => (hf p).trans (h.healthy p), ?_, ?_, ?_, ?_, ?_, ?_, ?_⟩
  · rw [ha.state, ha.localRequest, hw]
    exact h.protection
  · rw [ha.state, ha.prev]
    exact h.clearSf
  · rw [ha.state, ha.prev]
    exact h.rapsFs
  · rw [ha.state, ha.prev, hw]
    exact h.rapsSf
  · rw [ha.state, ha.prev, ha.open_iff]
    exact h.rapsMs
  · rw [ha.state, ha.prev, ha.cfg, ha.blocked, ha.sending]
    exact h.rapsNrRb
  · rw [ha.state, ha.prev, ha.cfg, hbelow, hw]
    exact h.rapsNr

theorem started {r : Ring τ} (hp : ∀ p, (r.port p).isFailed = false)
    (hs : r.state = .pending) (hprev : r.prev.request = .invalid) : Settled r where
  healthy := hp
  protection h := absurd h (by simp [hs])
  clearSf h := absurd h (by simp [hprev])
  rapsFs h := absurd h (by simp [hprev])
  rapsSf h := absurd h (by simp [hprev])
  rapsMs h := absurd h (by simp [hprev])
  rapsNrRb h := absurd h (by simp [hprev])
  rapsNr h := absurd h (by simp [hprev])

theorem protection_advance (hs : Settled r) (ha : r.accepts req = true)
    (hnext : (r.effect req port remote).next = .protection) (hl : req.retained ≠ .sf) :
    (r.advance now req port remote).Withdrawn := by
  rcases Ring.effect_next_protection hnext with rfl | ⟨hp, ht⟩ | ⟨hstate, ⟨hcl, hfs, hf⟩, hstay⟩
  · exact absurd rfl hl
  · exact hs.healthy.withdrawn_advance hp ht
  · refine (hs.protection hstate ?_).advance_of_stay hstay
    -- what gets past a retained SF does not stay
    intro hsf
    rcases Ring.cases_of_accepts_of_sf ha hsf hstate with h | h | h
    · exact hcl h
    · exact hfs h
    · exact hf h

theorem rapsSf_advance (hs : Settled r) (hc : Coherent r) :
    (r.effect .rapsSf port remote).next = .protection ∨
      (r.effect .rapsSf port remote).next = .forcedSwitch ∨
      ((r.effect .rapsSf port remote).next = .manualSwitch ∧
        (r.advance now .rapsSf port remote).Withdrawn) := by
  rcases Ring.effect_rapsSf_cases hc.not_init port remote with ⟨he, _⟩ | ⟨he, _⟩ | ⟨he, hst⟩
  · exact .inl (by rw [he]; rfl)
  · refine .inr (.inr ⟨by rw [he]; rfl, hs.healthy.withdrawn_advance ?_ ?_⟩)
    · rw [he]
      rfl
    · rw [he]
      rfl
  · rw [he]
    rcases hst with hst | hst
    · exact .inl hst
    · exact .inr (.inl hst)

theorem rapsMs_advance (hs : Settled r) :
    (r.effect .rapsMs port remote).next = .manualSwitch →
      (r.advance now .rapsMs port remote).Open := by
  intro hnext
  cases hst : r.state with
  | init | protection | forcedSwitch => simp [Ring.effect, hst, Ring.stay] at hnext
  | idle | pending => exact hs.healthy.open_advance (by simp [Ring.effect, hst, Ring.withdraw])
  | manualSwitch =>
    cases hany : r.anyBlocked with
    | true => simp [Ring.effect, hst, hany, Ring.announceEffect] at hnext
    | false =>
      exact (Ring.open_iff_anyBlocked.mpr hany).advance_of_keep
        (by simp [Ring.effect, hst, hany, Ring.stay])

/-- Row 14, or row 70 after which row 14 has nothing left to do. -/
theorem rapsNrRb_advance (hc : Coherent r) :
    (r.effect .rapsNrRb port remote).next = .pending ∨
      ((r.effect .rapsNrRb port remote).next = .idle ∧ (r.cfg.isRplOwner = false →
        ((r.advance now .rapsNrRb port remote).port (ringOtherPort r.cfg.rplPort)).isBlocked = false ∧
          (r.advance now .rapsNrRb port remote).sending = none)) := by
  cases hst : r.state with
  | init => exact absurd hst hc.not_init
  | protection | manualSwitch | forcedSwitch => exact .inl (by simp [Ring.effect, hst])
  | idle =>
    refine .inr ⟨by simp [Ring.effect, hst], fun hown => ⟨?_, ?_⟩⟩
    · simp [Ring.effect, hst, PortEffect.blocked]
    · simp [Ring.effect, hst, hown, TxEffect.sending]
  | pending =>
    cases hnb : r.cfg.isRplNeighbour with
    | true =>
      refine .inr ⟨by simp [Ring.effect, hst, hnb], fun _ => ⟨?_, ?_⟩⟩
      · rw [Ring.rplPort_of_neighbour hc.rplSet hnb, ringOtherPort_some, Ring.advance_port]
        simp [Ring.effect, hst, hnb, PortEffect.blocked, PortId.other_ne]
      · simp [Ring.effect, hst, hnb, TxEffect.sending]
    | false =>
      refine .inr ⟨?_, fun hown => ⟨?_, ?_⟩⟩
      · cases hown : r.cfg.isRplOwner <;> simp [Ring.effect, hst, hnb, hown]
      · simp [Ring.effect, hst, hnb, hown, PortEffect.blocked]
      · simp [Ring.effect, hst, hnb, hown, TxEffect.sending]

theorem rapsNr_advance (hs : Settled r) (hc : Coherent r) :
    (r.effect .rapsNr port remote).next = .pending ∨
      ((r.effect .rapsNr port remote).next = .idle ∧ (r.cfg.isRplOwner = false →
        r.cfg.isRplNeighbour = false → r.isBelow remote = true →
          (r.advance now .rapsNr port remote).Withdrawn)) := by
  cases hst : r.state with
  | init => exact absurd hst hc.not_init
  | protection | manualSwitch | forcedSwitch => exact .inl (by simp [Ring.effect, hst])
  | pending =>
    refine .inl ?_
    simp only [Ring.effect, hst]
    split
    · rfl
    · exact hst
  | idle =>
    refine .inr ⟨?_, fun hown hnb hb => hs.healthy.withdrawn_advance ?_ ?_⟩
    · simp only [Ring.effect, hst]
      split
      · rfl
      · exact hst
    · simp [Ring.effect, hst, hown, hnb, hb]
    · simp [Ring.effect, hst, hown, hnb, hb]

/-- **One row.** -/
theorem advance (hs : Settled r) (hc : Coherent r) (ha : r.accepts req = true)
    (hremote : req.isRaps = true → remote.isSome = true) :
    Settled (r.advance now req port remote) where
  healthy := hs.healthy.advance
  protection hnext hl := hs.protection_advance ha hnext hl
  clearSf h := by
    obtain rfl : req = .clearSf := h
    rcases r.effect_clearSf_cases port remote with he | ⟨hne, he⟩
    · simp [he]
    · simp [he, Ring.stay, hne]
  rapsFs h := by
    obtain rfl : req = .rapsFs := h
    exact Ring.effect_rapsFs_next
  rapsSf h := by
    obtain rfl : req = .rapsSf := h
    exact hs.rapsSf_advance hc
  rapsMs h := by
    obtain rfl : req = .rapsMs := h
    refine ⟨?_, hs.rapsMs_advance⟩
    cases hst : r.state <;> simp [Ring.effect, hst, Ring.withdraw, Ring.stay]
    split <;> simp [Ring.announceEffect]
  rapsNrRb h := by
    obtain rfl : req = .rapsNrRb := h
    exact rapsNrRb_advance hc
  rapsNr h := by
    obtain rfl : req = .rapsNr := h
    obtain ⟨id, rfl⟩ := Option.isSome_iff_exists.mp (hremote rfl)
    exact hs.rapsNr_advance hc

end Settled

end Erps
