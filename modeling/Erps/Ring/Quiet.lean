import Erps.Ring.Announce

/-!
# A ring nobody touches

Without failures, and without an operator who does more than CLEAR, a node sees four requests, and
its machine shrinks to PENDING, IDLE and the rows between them. It never leaves IDLE, it stays in
PENDING on R-APS(NR) only, and there row 71 decides alone who goes on blocking: a node keeps its
block exactly against the ids below its own.
-/

set_option autoImplicit false

namespace Erps

variable {τ : Type}

/-- The requests of a ring without failures, FS and MS. -/
def RingRequest.isQuiet : RingRequest → Bool
  | .rapsNr | .rapsNrRb | .wtrExpires | .clear => true
  | _ => false

namespace Ring

variable {r : Ring τ} {req : RingRequest} {port : Option PortId} {remote : Option NodeId}

theorem next_of_quiet_idle (hq : req.isQuiet = true) (hs : r.state = .idle) :
    (r.effect req port remote).next = .idle := by
  cases req with
  | rapsNr =>
    simp only [effect, hs]
    split
    · rfl
    · exact hs
  | rapsNrRb | wtrExpires | clear => simp [effect, hs, stay]
  | _ => cases hq

theorem next_of_quiet_pending (hq : req.isQuiet = true) (hs : r.state = .pending) :
    (r.effect req port remote).next = if req = .rapsNr then .pending else .idle := by
  cases req with
  | rapsNr =>
    simp only [effect, hs]
    split
    · rfl
    · exact hs
  | rapsNrRb | wtrExpires | clear =>
    simp only [effect, hs, revertEffect]
    repeat' split
    all_goals first | rfl | contradiction
  | _ => cases hq

/-- Row 71. -/
theorem effect_rapsNr_pending (port : Option PortId) (remote : Option NodeId)
    (hs : r.state = .pending) :
    r.effect .rapsNr port remote =
      if r.isBelow remote then ⟨.openNonfailed, .stop, .pending, .keep, .keep, .keep⟩
      else r.stay := by
  simp only [effect, hs]

theorem isBelow_iff (id : NodeId) : r.isBelow (some id) = true ↔ r.cfg.nodeId < id := by
  unfold isBelow
  rw [decide_eq_true_eq]
  exact NodeId.memcmp_neg_iff _ _

/-- An R-APS request passes the filter of a node that retains nothing. -/
theorem accepts_of_raps (hl : r.localRequest = .invalid) (hraps : req.isRaps = true) :
    r.accepts req = true := by
  unfold accepts
  rw [hl]
  cases req with
  | rapsNr | rapsNrRb | rapsMs | rapsSf | rapsFs => simp [RingRequest.code]
  | _ => cases hraps

/-- What is swallowed is the previous request over again, and from the same node. -/
theorem prev_of_not_takes {id : NodeId} (ha : r.accepts req = true) (hraps : req.isRaps = true)
    (hn : ¬ r.Takes req port (some id)) :
    r.prev.request = req ∧ r.prev.remoteNodeId = id := by
  have himp : r.isImpossibleDupe req = false := by
    cases req with
    | wtbRunning | wtbExpires | wtrRunning | wtrExpires | clear => cases hraps
    | _ => rfl
  cases hd : r.isDupe req port (some id) with
  | false => exact absurd ⟨ha, hd, himp⟩ hn
  | true =>
    refine ⟨prev_request_of_dupe (.inl hd), ?_⟩
    cases req with
    | rapsNr | rapsNrRb | rapsMs | rapsSf | rapsFs =>
      simp only [isDupe, Bool.and_eq_true, beq_iff_eq, NodeId.memcmp_eq_zero_iff] at hd
      exact hd.2.symm
    | _ => cases hraps

end Ring

/-- The node is starting up or has settled, and nothing has failed. -/
structure Quiet (r : Ring τ) : Prop where
  phase : r.state = .pending ∨ r.state = .idle
  working : ∀ p, (r.port p).isFailed = false
  request : r.tx.raps.request = .nr

namespace Quiet

variable {r r' : Ring τ} {now : τ} {req : RingRequest} {port : Option PortId}
  {remote : Option NodeId}

theorem congr (ha : r.Alike r') (hp : ∀ p, (r'.port p).isFailed = (r.port p).isFailed)
    (htx : r'.tx.raps = r.tx.raps) (h : Quiet r) : Quiet r' where
  phase := by
    rw [ha.state]
    exact h.phase
  working p := by
    rw [hp]
    exact h.working p
  request := by
    rw [htx]
    exact h.request

theorem started (r : Ring τ) (now : τ) (hf : ∀ p, (r.port p).isFailed = false) :
    Quiet (r.started now) where
  phase := .inl rfl
  working p := by
    rw [Ring.started_port]
    exact hf p
  request := Transmission.start_request r.tx .nr 0

theorem advance (h : Quiet r) (hq : req.isQuiet = true) :
    Quiet (r.advance now req port remote) where
  phase := by
    show (r.effect req port remote).next = .pending ∨ (r.effect req port remote).next = .idle
    rcases h.phase with hs | hs
    · rw [Ring.next_of_quiet_pending hq hs]
      split
      · exact .inl rfl
      · exact .inr rfl
    · exact .inr (Ring.next_of_quiet_idle hq hs)
  working p := by
    rw [Ring.advance_port]
    exact h.working p
  request := by
    rw [Ring.advance_tx]
    cases he : (r.effect req port remote).tx with
    | keep | stop => exact h.request
    | start request flags =>
      show (r.tx.start request flags).raps.request = .nr
      rw [Transmission.start_request]
      rcases r.effect_start req port remote he with hnr | ⟨hreq, _⟩ | ⟨hreq, _⟩ | ⟨hreq, _⟩
      · exact hnr
      all_goals
        rw [hreq] at hq
        cases hq

/-- **Row 71 in a ring without failures.** -/
theorem hasBlock_advance_rapsNr (h : Quiet r) (hs : r.state = .pending) (id : NodeId) :
    (r.advance now .rapsNr port (some id)).HasBlock ↔ r.HasBlock ∧ ¬ r.cfg.nodeId < id := by
  have he := Ring.effect_rapsNr_pending port (some id) hs
  by_cases hlt : r.cfg.nodeId < id
  · rw [if_pos ((Ring.isBelow_iff id).mpr hlt)] at he
    constructor
    · intro h
      obtain ⟨p, hp⟩ := h
      rw [Ring.advance_port, he] at hp
      simp [PortEffect.blocked, h.working p] at hp
    · intro h
      obtain ⟨_, hn⟩ := h
      exact absurd hlt hn
  · rw [if_neg fun hb => hlt ((Ring.isBelow_iff id).mp hb)] at he
    rw [Ring.hasBlock_advance_of_keep (by rw [he]; rfl)]
    exact ⟨fun hb => ⟨hb, hlt⟩, fun hb => hb.1⟩

end Quiet

end Erps
