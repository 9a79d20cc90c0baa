import Erps.Ring.Idle

/-!
# Waiting in PENDING

PENDING is where a node waits to revert, and the only state whose timers mean anything. `Timed` says
so: the WTR and WTB timers run at a revertive RPL owner in PENDING and nowhere else, so an expiry
finds nothing retained, no duplicate and its row.

`Strands` lists the rows that enter PENDING without starting the WTR timer. Some of them start WTB
instead, some start nothing.
-/

set_option autoImplicit false

namespace Erps

variable {τ : Type}

namespace Ring

variable {r : Ring τ} {req : RingRequest} {port : Option PortId} {remote : Option NodeId}

@[simp] theorem advance_wtr (r : Ring τ) (now : τ) (req : RingRequest) (port : Option PortId)
    (remote : Option NodeId) : (r.advance now req port remote).timers.wtr =
      (r.effect req port remote).wtr.apply now r.timers.wtr := rfl

@[simp] theorem advance_wtb (r : Ring τ) (now : τ) (req : RingRequest) (port : Option PortId)
    (remote : Option NodeId) : (r.advance now req port remote).timers.wtb =
      (r.effect req port remote).wtb.apply now r.timers.wtb := rfl

/-- Row 66 at the RPL owner. -/
theorem effect_wtrExpires (port : Option PortId) (remote : Option NodeId)
    (hown : r.cfg.isRplOwner = true) (hs : r.state = .pending) :
    r.effect .wtrExpires port remote =
      ⟨.only r.rpl, .start .nr (rapsFlagRb ||| r.dnfIf r.rpl), .idle, .keep, .keep, .stop⟩ := by
  simp [effect, hs, revertEffect, hown]

/-- **The ways into PENDING past the WTR timer**, from PROTECTION and the two switches. -/
inductive Strands (r : Ring τ) : RingRequest → Prop
  /-- rows 30 and 44 -/
  | clear (hs : r.state = .manualSwitch ∨ r.state = .forcedSwitch) : Strands r .clear
  /-- rows 43 and 57 -/
  | rapsNr (hs : r.state = .manualSwitch ∨ r.state = .forcedSwitch) : Strands r .rapsNr
  /-- rows 28, 42 and 56 -/
  | rapsNrRb (hs : r.state = .protection ∨ r.state = .manualSwitch ∨ r.state = .forcedSwitch) :
      Strands r .rapsNrRb
  /-- row 36 -/
  | rapsMs (hs : r.state = .manualSwitch) (hb : r.HasBlock) : Strands r .rapsMs

theorem Strands.state_ne (h : Strands r req) : r.state ≠ .pending := by
  intro hs
  cases h with
  | clear h | rapsNr h => rcases h with h | h <;> exact absurd (hs.symm.trans h) (by simp)
  | rapsNrRb h => rcases h with h | h | h <;> exact absurd (hs.symm.trans h) (by simp)
  | rapsMs h => exact absurd (hs.symm.trans h) (by simp)

theorem Strands.effect (h : Strands r req) (port : Option PortId) (remote : Option NodeId) :
    (r.effect req port remote).next = .pending ∧ (r.effect req port remote).wtr = .keep := by
  cases h with
  | clear h =>
    rcases h with h | h <;> simp only [Ring.effect, h, announceEffect] <;> split <;> simp
  | rapsNr h => rcases h with h | h <;> simp [Ring.effect, h]
  | rapsNrRb h => rcases h with h | h | h <;> simp [Ring.effect, h]
  | rapsMs h hb => simp [Ring.effect, h, hasBlock_iff.mp hb, announceEffect]

/-- Every other way keeps the timer going or starts it. -/
theorem effect_next_pending (hinit : r.state ≠ .init)
    (h : (r.effect req port remote).next = .pending) :
    (r.state = .pending ∧ (r.effect req port remote).wtr = .keep) ∨
      (r.effect req port remote).wtr = r.ownerStart ∨ Strands r req := by
  have hrow := r.row req port remote
  generalize r.effect req port remote = e at hrow h ⊢
  cases hrow with
  | stay => exact .inl ⟨h, rfl⟩
  | nrPending hs => exact .inl ⟨hs, rfl⟩
  | clearSf | nrProtection => exact .inr (.inl rfl)
  | announce hreq hb =>
    rcases hreq with ⟨rfl, hs⟩ | ⟨rfl, hs⟩
    · exact .inr (.inr (.clear hs))
    · exact .inr (.inr (.rapsMs hs (hasBlock_iff.mpr hb)))
  | lapse hs => exact .inr (.inr (.clear hs))
  | nrEnds hs => exact .inr (.inr (.rapsNr (hs.resolve_left hinit)))
  | rbEnds hidle hpending =>
    refine .inr (.inr (.rapsNrRb ?_))
    cases hs : r.state <;> simp [hs] at hinit hidle hpending ⊢
  | _ => cases h

end Ring

/-- **Timer discipline.** -/
structure Timed (r : Ring τ) : Prop where
  /-- nothing is retained in IDLE and PENDING -/
  quiet : r.state = .idle ∨ r.state = .pending → r.localRequest = .invalid
  armed : r.timers.wtr.active = true ∨ r.timers.wtb.active = true →
    (r.cfg.isRplOwner = true ∧ r.cfg.isRevertive = true) ∧ r.state = .pending
  /-- an expiry is followed by IDLE until the next request -/
  expired : r.prev.request = .wtrExpires → r.state = .idle

namespace Timed

variable {r r' : Ring τ} {now : τ} {req : RingRequest} {port : Option PortId}
  {remote : Option NodeId}

theorem congr (ha : r.Alike r') (hwtr : r'.timers.wtr.active = true → r.timers.wtr.active = true)
    (hwtb : r'.timers.wtb.active = true → r.timers.wtb.active = true) (h : Timed r) :
    Timed r' where
  quiet hs := by
    rw [ha.localRequest]
    exact h.quiet (by rwa [ha.state] at hs)
  armed hact := by
    rw [ha.cfg, ha.state]
    rcases hact with hact | hact
    · exact h.armed (.inl (hwtr hact))
    · exact h.armed (.inr (hwtb hact))
  expired hp := by
    rw [ha.state]
    exact h.expired (by rwa [ha.prev] at hp)

theorem started {r : Ring τ} (hb : Blank r) (now : τ) : Timed (r.started now) where
  quiet _ := hb.localRequest
  armed hact := by
    refine ⟨?_, rfl⟩
    show r.cfg.isRplOwner = true ∧ r.cfg.isRevertive = true
    rcases hact with hact | hact
    · simp only [Ring.started, Effect.apply, Ring.initEffect] at hact
      split at hact
      · rename_i h
        exact Bool.and_eq_true _ _ |>.mp h
      · cases hact
    · cases hact
  expired hp := absurd hp (by simp [hb.prev_request])

/-- An expiry that is due passes the filter and is no duplicate. -/
theorem takes_wtrExpires (h : Timed r) (hw : r.timers.wtr.active = true) :
    r.Takes .wtrExpires none none := by
  obtain ⟨_, hs⟩ := h.armed (.inl hw)
  have hl := h.quiet (.inr hs)
  refine ⟨?_, rfl, ?_⟩
  · simp [Ring.accepts, hl, RingRequest.code]
  · have hprev : r.prev.request ≠ .wtrExpires := by
      intro hp
      exact absurd (hs.symm.trans (h.expired hp)) (by simp)
    simp [Ring.isImpossibleDupe, Ne.symm hprev]

/-- One row other than those of an expiry. -/
theorem advance (h : Timed r) (hwtr : req ≠ .wtrExpires) (hwtb : req ≠ .wtbExpires) :
    Timed (r.advance now req port remote) where
  quiet := Ring.retained_of_next
  armed hact := by
    obtain ⟨hwtr', hwtb'⟩ := r.timerRow req port remote
    rcases hact with hact | hact
    · exact hwtr'.armed hact hwtr fun h' => h.armed (.inl h')
    · exact hwtb'.armed hact hwtb fun h' => h.armed (.inr h')
  expired hp := absurd hp hwtr

end Timed

/-- What a reversion leaves: IDLE, with the RPL blocked and announced, and no timer running. -/
structure Reverted (r : Ring τ) : Prop where
  state : r.state = .idle
  rpl : ∃ p, r.cfg.rplPort = some p ∧ r.BlocksOnly p
  sends : r.SendsNrRb
  wtr : r.timers.wtr.active = false
  wtb : r.timers.wtb.active = false

/-- Row 66, and the flag that `ring_timer` clears after it. -/
theorem Timed.reverted {r : Ring τ} (h : Timed r) (hrpl : r.cfg.RplSet)
    (hw : r.timers.wtr.active = true) (now : τ) :
    Reverted (r.advance now .wtrExpires none none).stopWtrTimer := by
  obtain ⟨⟨hown, _⟩, hs⟩ := h.armed (.inl hw)
  have he := r.effect_wtrExpires none none hown hs
  have hblock : (r.advance now .wtrExpires none none).BlocksOnly r.rpl :=
    Ring.hasBlock_advance_of_only (by rw [he])
  have hsend : (r.advance now .wtrExpires none none).sending =
      some (.nr, rapsFlagRb ||| r.dnfIf r.rpl) := by
    rw [Ring.advance_sending, he]
    rfl
  refine ⟨?_, ⟨r.rpl, Ring.rplPort_of_owner hrpl hown, hblock⟩, ⟨_, hsend, Ring.hasRb_revert r _⟩,
    rfl, ?_⟩
  · show (r.effect .wtrExpires none none).next = .idle
    rw [he]
  · show ((r.effect .wtrExpires none none).wtb.apply now r.timers.wtb).active = false
    rw [he]
    rfl

/-- So a reversion keeps the discipline, too. -/
theorem Reverted.timed {r : Ring τ} (h : Reverted r) (hl : r.localRequest = .invalid) :
    Timed r where
  quiet _ := hl
  armed hact := by
    rcases hact with hact | hact
    · exact absurd hact (by simp [h.wtr])
    · exact absurd hact (by simp [h.wtb])
  expired _ := h.state

end Erps
