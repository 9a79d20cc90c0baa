import Erps.Ring.Retained

/-!
# Leaving INIT

Both `ring_create`s end with `ring_fsm(ret, RING_REQ_INVALID, 0, 0)`, the one request that finds the
machine in INIT. `Blank` is what they hand over, `started` what row 01 makes of it: the node blocks
one port, announces R-APS(NR) and waits in PENDING. The invariants of the retained request hold from
there on.
-/

set_option autoImplicit false

namespace Erps

variable {τ : Type}

/-- A ring as its constructor fills it in, before the first request. -/
structure Blank (r : Ring τ) : Prop where
  state : r.state = .init
  localRequest : r.localRequest = .invalid
  prev_request : r.prev.request = .invalid
  prev_port : r.prev.port = none
  port : ∀ p, r.port p = ⟨false, false⟩
  rplSet : r.cfg.RplSet

namespace Ring

/-- The ring after row 01. -/
def started (r : Ring τ) (now : τ) : Ring τ := r.initEffect.apply now r

theorem saveRequest_of_blank {r : Ring τ} (h : Blank r) : r.saveRequest .invalid none none = r := by
  have hprev : r.prev = ⟨.invalid, none, r.prev.remoteNodeId⟩ := by
    rw [← h.prev_request, ← h.prev_port]
  unfold saveRequest
  rw [Option.getD_none, ← hprev]

/-- INVALID is neither a duplicate nor an impossible one, so the first call always takes row 01. -/
theorem fsmRow_of_blank {r : Ring τ} (h : Blank r) (now : τ) :
    (r.saveRequest .invalid none none).fsmRow now .invalid none none = r.started now := by
  rw [saveRequest_of_blank h]
  unfold fsmRow
  rw [h.state]
  exact fsmInit_eq_apply r now h.rplSet

section started

variable (r : Ring τ) (now : τ)

@[simp] theorem started_state : (r.started now).state = .pending := rfl
@[simp] theorem started_prev : (r.started now).prev = r.prev := rfl
@[simp] theorem started_localRequest : (r.started now).localRequest = r.localRequest := rfl

@[simp] theorem started_port (p : PortId) :
    (r.started now).port p = { r.port p with isBlocked := decide (p = r.startPort) } :=
  apply_port r.initEffect now r p

@[simp] theorem started_sending : (r.started now).sending = some (.nr, 0) :=
  TxEffect.apply_sending (.start .nr 0) r.tx

end started

/-- A node without a role has no RPL port, and starts on `port0`. -/
theorem startPort_eq_rpl {r : Ring τ} (hset : r.cfg.RplSet) : r.startPort = r.rpl := by
  unfold startPort rpl
  split
  · rfl
  · rename_i hnone
    unfold Config.RplSet at hset
    rw [Bool.eq_false_iff.mpr hnone, Option.isSome_eq_false_iff, Option.isNone_iff_eq_none] at hset
    rw [hset]
    rfl

theorem started_blocksOnly (r : Ring τ) (now : τ) : (r.started now).BlocksOnly r.startPort := by
  constructor
  · simp
  · simp [PortId.other_ne]

end Ring

/-! ## The first invariants -/

theorem Coherent.started {r : Ring τ} (h : Blank r) (now : τ) : Coherent (r.started now) where
  not_init := by simp
  rplSet := h.rplSet
  retained := by simp [h.localRequest, h.prev_request, RingRequest.retained]

theorem Dominant.started {r : Ring τ} (h : Blank r) (now : τ) : Dominant (r.started now) where
  fs hl := absurd hl (by simp [h.localRequest])
  sf hl := absurd hl (by simp [h.localRequest])
  sends_fs hs := by
    obtain ⟨flags, hs⟩ := hs
    rw [Ring.started_sending] at hs
    cases hs
  sends_sf hs := by
    obtain ⟨flags, hs⟩ := hs
    rw [Ring.started_sending] at hs
    cases hs
  forced_open hs := absurd hs (by simp)
  not_both := ⟨r.startPort.other, (r.started_blocksOnly now).2⟩

end Erps
