import Erps.Ring.Retained

/-!
# Rings over two clocks

The kernel counts ticks and the simulator milliseconds, so two records of the same ring are never
equal. They *correspond* when they agree on all the state machine decides on. Row by row, the two
copies read nothing else, so what corresponds still does after a request (`Corresponds.processed`).

The second half is about the row of one R-APS request: `Splits` says, of the ring before it, that the
row leaves the port the frame came in on open and the other one blocked.
-/

set_option autoImplicit false

namespace Erps

namespace Ring

variable {τ σ : Type}

/-- Equal up to the ticks timers were started at, and up to what only the frame is encoded from. -/
structure Corresponds (r : Ring τ) (s : Ring σ) : Prop where
  isRplOwner : s.cfg.isRplOwner = r.cfg.isRplOwner
  isRplNeighbour : s.cfg.isRplNeighbour = r.cfg.isRplNeighbour
  isRevertive : s.cfg.isRevertive = r.cfg.isRevertive
  rplPort : s.cfg.rplPort = r.cfg.rplPort
  version : s.cfg.version = r.cfg.version
  nodeId : s.cfg.nodeId = r.cfg.nodeId
  state : s.state = r.state
  localRequest : s.localRequest = r.localRequest
  prev : s.prev = r.prev
  port : ∀ p, s.port p = r.port p
  guard : s.timers.guard.active = r.timers.guard.active
  wtr : s.timers.wtr.active = r.timers.wtr.active
  wtb : s.timers.wtb.active = r.timers.wtb.active
  sending : s.sending = r.sending

namespace Corresponds

variable {r : Ring τ} {s : Ring σ} {req : RingRequest} {port : Option PortId}
  {remote : Option NodeId}

theorem rplSet_iff (h : r.Corresponds s) : s.cfg.RplSet ↔ r.cfg.RplSet := by
  unfold Config.RplSet
  rw [h.rplPort, h.isRplOwner, h.isRplNeighbour]

/-! ## The same verdicts -/

theorem accepts_eq (h : r.Corresponds s) : s.accepts req = r.accepts req := by
  unfold accepts clearDenied
  rw [h.version, h.state, h.localRequest, h.isRplOwner]

theorem isDupe_eq (h : r.Corresponds s) :
    s.isDupe req port remote = r.isDupe req port remote := by
  unfold isDupe
  rw [h.prev]

theorem isImpossibleDupe_eq (h : r.Corresponds s) :
    s.isImpossibleDupe req = r.isImpossibleDupe req := by
  unfold isImpossibleDupe
  rw [h.prev]

/-! ## The same rows -/

theorem effect_eq (h : r.Corresponds s) : s.effect req port remote = r.effect req port remote := by
  have hbelow : s.isBelow remote = r.isBelow remote := by
    unfold isBelow
    rw [h.nodeId]
  unfold effect switchEffect withdraw stay revertEffect announceEffect ownerStart ownerStop dnfIf
    anyBlocked rpl
  simp only [h.state, h.isRplOwner, h.isRplNeighbour, h.isRevertive, h.rplPort, h.port, hbelow]

theorem apply (h : r.Corresponds s) (e : Effect) (now : τ) (now' : σ) :
    (e.apply now r).Corresponds (e.apply now' s) where
  isRplOwner := h.isRplOwner
  isRplNeighbour := h.isRplNeighbour
  isRevertive := h.isRevertive
  rplPort := h.rplPort
  version := h.version
  nodeId := h.nodeId
  state := rfl
  localRequest := h.localRequest
  prev := h.prev
  port p := by
    have hblocked : e.ports.blocked s p = e.ports.blocked r p := by
      cases e.ports <;> simp only [PortEffect.blocked, h.port]
    rw [apply_port, apply_port, h.port, hblocked]
  guard := by
    show (e.guard.apply now' s.timers.guard).active = (e.guard.apply now r.timers.guard).active
    cases e.guard with
    | keep => exact h.guard
    | start | stop => rfl
  wtr := by
    show (e.wtr.apply now' s.timers.wtr).active = (e.wtr.apply now r.timers.wtr).active
    cases e.wtr with
    | keep => exact h.wtr
    | start | stop => rfl
  wtb := by
    show (e.wtb.apply now' s.timers.wtb).active = (e.wtb.apply now r.timers.wtb).active
    cases e.wtb with
    | keep => exact h.wtb
    | start | stop => rfl
  sending := by
    show (e.tx.apply s.tx).sending = (e.tx.apply r.tx).sending
    rw [TxEffect.apply_sending, TxEffect.apply_sending]
    exact congrArg e.tx.sending h.sending

theorem retain (h : r.Corresponds s) (req : RingRequest) :
    Corresponds { r with localRequest := req.retained } { s with localRequest := req.retained } :=
  ⟨h.isRplOwner, h.isRplNeighbour, h.isRevertive, h.rplPort, h.version, h.nodeId, h.state, rfl,
    h.prev, fun p => by cases p <;> [exact h.port .port0; exact h.port .port1], h.guard, h.wtr,
    h.wtb, h.sending⟩

theorem advance (h : r.Corresponds s) (now : τ) (now' : σ) :
    (r.advance now req port remote).Corresponds (s.advance now' req port remote) := by
  have hret := h.retain req
  have hrec : (r.recorded req port remote).Corresponds (s.recorded req port remote) :=
    { hret with
      prev := by
        show PrevRequest.mk req port (remote.getD s.prev.remoteNodeId) =
          PrevRequest.mk req port (remote.getD r.prev.remoteNodeId)
        rw [h.prev]
      port := fun p => by cases p <;> [exact h.port .port0; exact h.port .port1] }
  unfold Ring.advance
  rw [h.effect_eq]
  exact hrec.apply _ now now'

theorem stopGuardTimer (h : r.Corresponds s) : r.stopGuardTimer.Corresponds s.stopGuardTimer :=
  { h with
    port := fun p => by cases p <;> [exact h.port .port0; exact h.port .port1]
    guard := rfl }

/-- **What corresponds processes a request alike.** -/
theorem processed (h : r.Corresponds s) {r' : Ring τ} {s' : Ring σ} {now : τ} {now' : σ}
    (hr : Processed r now req port remote r') (hs : Processed s now' req port remote s') :
    r'.Corresponds s' := by
  have hacc : s.accepts req = r.accepts req := h.accepts_eq
  have hdupe : s.isDupe req port remote = r.isDupe req port remote := h.isDupe_eq
  have himp : s.isImpossibleDupe req = r.isImpossibleDupe req := h.isImpossibleDupe_eq
  cases hr with
  | dropped ha =>
    cases hs with
    | dropped _ => exact h
    | dupe ha' _ => rw [hacc, ha] at ha'; cases ha'
    | row ht => rw [← hacc, ht.accepts] at ha; cases ha
  | dupe ha hd =>
    cases hs with
    | dropped ha' => rw [hacc, ha] at ha'; cases ha'
    | dupe _ _ => exact h.retain req
    | row ht =>
      rw [← hdupe, ← himp, ht.not_dupe, ht.not_impossible] at hd
      rcases hd with hd | hd <;> cases hd
  | row ht =>
    cases hs with
    | dropped ha => rw [hacc, ht.accepts] at ha; cases ha
    | dupe _ hd =>
      rw [hdupe, himp, ht.not_dupe, ht.not_impossible] at hd
      rcases hd with hd | hd <;> cases hd
    | row _ => exact h.advance now now'

end Corresponds

/-! ## The row of an R-APS request, and the two ports -/

/-- Rows 7, 8, 15, 35, 63, 64 and 71: the ports that have not failed are opened. -/
def opensNonfailed (r : Ring τ) (req : RingRequest) (remote : Option NodeId) : Bool :=
  match req, r.state with
  | .rapsSf, .idle | .rapsSf, .manualSwitch | .rapsSf, .pending => true
  | .rapsMs, .idle | .rapsMs, .pending => true
  | .rapsNr, .idle => !r.cfg.isRplOwner && !r.cfg.isRplNeighbour && r.isBelow remote
  | .rapsNr, .pending => r.isBelow remote
  | _, _ => false

/-- Rows 4, 18, 32 and 60, and row 70 at a node without the RPL: both ports are opened. -/
def opensBoth (r : Ring τ) (req : RingRequest) : Bool :=
  match req, r.state with
  | .rapsFs, .forcedSwitch => false
  | .rapsFs, _ => true
  | .rapsNrRb, .pending => !r.cfg.isRplOwner && !r.cfg.isRplNeighbour
  | _, _ => false

/-- After the row of this R-APS request port `p` is open and the other one is blocked. -/
def Splits (r : Ring τ) (p : PortId) (req : RingRequest) (remote : Option NodeId) : Prop :=
  if r.opensNonfailed req remote then
    (r.port p.other).isFailed = true ∧ (r.port p.other).isBlocked = true ∧
      ((r.port p).isFailed = true → (r.port p).isBlocked = false)
  else if r.opensBoth req then False
  -- row 14
  else if req = .rapsNrRb ∧ r.state = .idle then
    p = ringOtherPort r.cfg.rplPort ∧ (r.port p.other).isBlocked = true
  -- row 70
  else if req = .rapsNrRb ∧ r.state = .pending ∧ r.cfg.isRplNeighbour = true then p ≠ r.rpl
  else r.BlocksOnly p.other

/-- A block outlives the rows that open what works only on a port that has failed. -/
theorem not_splits_of_opensNonfailed {r : Ring τ} {p : PortId} {req : RingRequest}
    {remote : Option NodeId} (ho : r.opensNonfailed req remote = true)
    (hf : (r.port p.other).isFailed = false) : ¬ r.Splits p req remote := by
  intro h
  unfold Splits at h
  rw [if_pos ho, hf] at h
  cases h.1

theorem blocksOnly_other_iff {r : Ring τ} {p : PortId} :
    r.BlocksOnly p.other ↔ (r.port p.other).isBlocked = true ∧ (r.port p).isBlocked = false := by
  unfold BlocksOnly
  rw [PortId.other_other]

/-- The port column of the table, for R-APS requests. -/
theorem effect_ports_of_raps {r : Ring τ} {req : RingRequest} (port : Option PortId)
    (remote : Option NodeId) (hinit : r.state ≠ .init) (hraps : req.isRaps = true) :
    (r.effect req port remote).ports =
      if r.opensNonfailed req remote then .openNonfailed
      else if r.opensBoth req then .openAll
      else if req = .rapsNrRb ∧ r.state = .idle then .release (ringOtherPort r.cfg.rplPort)
      else if req = .rapsNrRb ∧ r.state = .pending ∧ r.cfg.isRplNeighbour = true then .only r.rpl
      else .keep := by
  cases req with
  | rapsFs | rapsSf =>
    cases hs : r.state <;> simp [opensNonfailed, opensBoth, effect, withdraw, stay, hs] at hinit ⊢
  | rapsMs =>
    cases hs : r.state <;> simp [opensNonfailed, opensBoth, effect, withdraw, stay, hs]
    -- row 36 announces what is blocked, and leaves it
    split <;> rfl
  | rapsNr =>
    cases hs : r.state <;> simp [opensNonfailed, opensBoth, effect, stay, hs]
    -- rows 15 and 71 compare the node ids
    all_goals split <;> rfl
  | rapsNrRb =>
    cases hs : r.state <;> simp [opensNonfailed, opensBoth, effect, hs]
    cases r.cfg.isRplNeighbour <;> cases r.cfg.isRplOwner <;> rfl
  | _ => cases hraps

theorem blocksOnly_advance_iff {r : Ring τ} {now : τ} {req : RingRequest} {port : Option PortId}
    {remote : Option NodeId} {p : PortId} (hinit : r.state ≠ .init) (hraps : req.isRaps = true) :
    (r.advance now req port remote).BlocksOnly p.other ↔ r.Splits p req remote := by
  rw [blocksOnly_other_iff]
  simp only [advance_port]
  rw [effect_ports_of_raps port remote hinit hraps]
  unfold Splits
  split
  · simp only [PortEffect.blocked, Bool.and_eq_true, Bool.and_eq_false_imp, and_assoc]
  · split
    · simp [PortEffect.blocked]
    · split
      · rcases PortId.eq_or_eq_other p (ringOtherPort r.cfg.rplPort) with h | h
        · simp [PortEffect.blocked, h, PortId.other_ne]
        · simp [PortEffect.blocked, h, (PortId.other_ne p).symm]
      · split
        · rcases PortId.eq_or_eq_other p r.rpl with h | h
          · simp [PortEffect.blocked, h, PortId.other_ne]
          · simp [PortEffect.blocked, h, (PortId.other_ne p).symm]
        · rw [blocksOnly_other_iff]
          rfl

/-- A ring past INIT, with an RPL port where it has a role. -/
structure Running (r : Ring τ) : Prop where
  not_init : r.state ≠ .init
  rplSet : r.cfg.RplSet

theorem Running.congr {r r' : Ring τ} (h : r.Running) (ha : r.Alike r') : r'.Running where
  not_init := ha.state ▸ h.not_init
  rplSet := ha.cfg ▸ h.rplSet

theorem Corresponds.running {r : Ring τ} {s : Ring σ} (h : r.Corresponds s) (hr : s.Running) :
    r.Running where
  not_init := h.state ▸ hr.not_init
  rplSet := h.rplSet_iff.mp hr.rplSet

section processed

variable {r r' : Ring τ} {now : τ} {req : RingRequest} {port : Option PortId}
  {remote : Option NodeId}

theorem Running.processed (h : r.Running) (hp : Processed r now req port remote r') :
    r'.Running := by
  cases hp with
  | dropped _ => exact h
  | dupe _ _ => exact ⟨h.not_init, h.rplSet⟩
  | row _ => exact ⟨effect_next_ne_init h.not_init, h.rplSet⟩

/-- How an R-APS request leaves the two ports. -/
theorem blocksOnly_processed (hinit : r.state ≠ .init) (hraps : req.isRaps = true)
    (hp : Processed r now req port remote r') (p : PortId) :
    (¬ r.Takes req port remote ∧ (r'.BlocksOnly p.other ↔ r.BlocksOnly p.other)) ∨
      (r.Takes req port remote ∧ (r'.BlocksOnly p.other ↔ r.Splits p req remote)) := by
  cases hp with
  | dropped ha =>
    refine .inl ⟨?_, Iff.rfl⟩
    intro ht
    rw [ht.accepts] at ha
    cases ha
  | dupe _ hd =>
    refine .inl ⟨?_, ?_⟩
    · intro ht
      rw [ht.not_dupe, ht.not_impossible] at hd
      rcases hd with hd | hd <;> cases hd
    · cases p <;> exact Iff.rfl
  | row ht => exact .inr ⟨ht, blocksOnly_advance_iff hinit hraps⟩

end processed

end Ring

end Erps
