import Erps.Ring.Table

/-!
# Priority filter and request processing

The front of `ring_process_request`, the same in `ring.c` and `er_ring.c`: which requests are
denied, which retained local request they must beat, and what is retained afterwards. What passes
goes to `ring_fsm`, of which the two copies differ, so the function itself is in `Sim` and `Kernel`.

`Processed` is everything either copy can do with a request: drop it, swallow it as a duplicate, or
take its row. Invariants are proved over `Processed` and hold of both.
-/

set_option autoImplicit false

namespace Erps

/-- A local request is retained "if it is also local", i.e. SF, FS or MS; any other one clears what
was retained. -/
def RingRequest.retained : RingRequest → RingRequest
  | .sf => .sf
  | .fs => .fs
  | .ms => .ms
  | _ => .invalid

/-- The arguments of a call, with what the callers guarantee: MS, FS, SF and CLEAR_SF name a port of
the ring, and R-APS requests carry the node id of their sender. -/
structure Request where
  request : RingRequest
  port : Option PortId
  remoteNodeId : Option NodeId
  port_isSome : request.namesPort = true → port.isSome = true
  remoteNodeId_isSome : request.isRaps = true → remoteNodeId.isSome = true

namespace Request

/-- A request without arguments: CLEAR, and the expiry of a timer. -/
def bare (request : RingRequest) (hport : request.namesPort = false)
    (hraps : request.isRaps = false) : Request :=
  ⟨request, none, none, fun h => absurd h (by simp [hport]), fun h => absurd h (by simp [hraps])⟩

/-- A local request on a port. -/
def onPort (request : RingRequest) (p : PortId) (hraps : request.isRaps = false) : Request :=
  ⟨request, some p, none, fun _ => rfl, fun h => absurd h (by simp [hraps])⟩

/-- A request of the node `id`, received at `p`. -/
def fromNode (request : RingRequest) (p : PortId) (id : NodeId) : Request :=
  ⟨request, some p, some id, fun _ => rfl, fun _ => rfl⟩

end Request

/-- The switch over `raps->request` that both R-APS handlers make; `none` is its default. -/
def Raps.ringRequest (raps : Raps) : Option RingRequest :=
  match raps.request with
  | .nr => if hasRb raps.flags then some .rapsNrRb else some .rapsNr
  | .ms => some .rapsMs
  | .sf => some .rapsSf
  | .fs => some .rapsFs
  | .event => none

theorem Raps.isRaps_of_ringRequest {raps : Raps} {request : RingRequest}
    (h : raps.ringRequest = some request) : request.isRaps = true := by
  unfold Raps.ringRequest at h
  cases hreq : raps.request <;> simp only [hreq] at h
  · split at h <;> (cases h; rfl)
  all_goals cases h
  all_goals rfl

namespace Ring

variable {τ : Type}

/-- The `denied` of a local CLEAR. -/
def clearDenied (r : Ring τ) : Bool :=
  let denied := true
  -- we are in MS or FS state, caused by local request
  let denied := if r.localRequest = .ms ∨ r.localRequest = .fs then false else denied
  -- we are RPL owner and we are triggering reversion
  if r.cfg.isRplOwner then
    if r.state ≠ .forcedSwitch ∧ r.state ≠ .manualSwitch ∧ r.state ≠ .protection ∧
        r.state ≠ .idle then false
    else denied
  else denied

/-- What becomes of a request before `ring_fsm` is called, with the ring as it is by then. -/
inductive Verdict (τ : Type)
  | drop (r : Ring τ)
  | pass (r : Ring τ)

/-- `ring_process_request` up to the call of `ring_fsm`. -/
def filterRequest (r : Ring τ) (request : RingRequest) : Verdict τ :=
  -- filter local requests based on ERPS version
  if r.cfg.version = 1 ∧ (request = .fs ∨ request = .ms) then .drop r
  -- local SF is ignored, if ring is in FORCED_SWITCH state
  else if request = .sf ∧ r.state = .forcedSwitch then .drop r
  else if request = .clear ∧ r.clearDenied = true then .drop r
  else
    -- local clear SF signal; the source's "TODO: check port state!" stands here
    let r := if r.localRequest = .sf ∧ request = .clearSf then { r with localRequest := .invalid }
      else r
    if r.localRequest.code < request.code then .pass { r with localRequest := request.retained }
    else .drop r

/-- The request passes the priority filter. -/
def accepts (r : Ring τ) (request : RingRequest) : Bool :=
  !(decide (r.cfg.version = 1) && (decide (request = .fs) || decide (request = .ms))) &&
    !(decide (request = .sf) && decide (r.state = .forcedSwitch)) &&
    !(decide (request = .clear) && r.clearDenied) &&
    (decide (r.localRequest.code < request.code) ||
      (decide (r.localRequest = .sf) && decide (request = .clearSf)))

/-- The filter is its acceptance test: a dropped request leaves the ring as it was. -/
theorem filterRequest_eq (r : Ring τ) (request : RingRequest) :
    r.filterRequest request =
      if r.accepts request then .pass { r with localRequest := request.retained } else .drop r := by
  unfold filterRequest accepts
  by_cases hv : r.cfg.version = 1 ∧ (request = .fs ∨ request = .ms)
  · have hv' : (decide (r.cfg.version = 1) &&
        (decide (request = .fs) || decide (request = .ms))) = true := by simpa using hv
    rw [if_pos hv, hv']
    rfl
  · by_cases hf : request = .sf ∧ r.state = .forcedSwitch
    · simp [hf]
    · by_cases hc : request = .clear ∧ r.clearDenied = true
      · simp [hc]
      · have hv' : (decide (r.cfg.version = 1) &&
            (decide (request = .fs) || decide (request = .ms))) = false := by simpa using hv
        have hf' : (decide (request = .sf) && decide (r.state = .forcedSwitch)) = false := by
          simpa using hf
        have hc' : (decide (request = .clear) && r.clearDenied) = false := by simpa using hc
        rw [if_neg hv, if_neg hf, if_neg hc, hv', hf', hc']
        by_cases hs : r.localRequest = .sf ∧ request = .clearSf
        · obtain ⟨hl, rfl⟩ := hs
          simp [hl, RingRequest.code]
        · have hs' : (decide (r.localRequest = .sf) && decide (request = .clearSf)) = false := by
            simpa using hs
          simp [if_neg hs, hs']

/-- The ring a row starts from: the request retained, if it is local, and saved. -/
def recorded (r : Ring τ) (req : RingRequest) (port : Option PortId) (remote : Option NodeId) :
    Ring τ :=
  { r with localRequest := req.retained }.saveRequest req port remote

/-- The ring after an accepted request that is not a duplicate. -/
def advance (r : Ring τ) (now : τ) (req : RingRequest) (port : Option PortId)
    (remote : Option NodeId) : Ring τ :=
  (r.effect req port remote).apply now (r.recorded req port remote)

section advance

variable (r : Ring τ) (now : τ) (req : RingRequest) (port : Option PortId) (remote : Option NodeId)

@[simp] theorem advance_cfg : (r.advance now req port remote).cfg = r.cfg := rfl

@[simp] theorem advance_state :
    (r.advance now req port remote).state = (r.effect req port remote).next := rfl

@[simp] theorem advance_localRequest :
    (r.advance now req port remote).localRequest = req.retained := rfl

@[simp] theorem advance_prev_request : (r.advance now req port remote).prev.request = req := rfl

@[simp] theorem advance_prev_port : (r.advance now req port remote).prev.port = port := rfl

@[simp] theorem advance_prev_remoteNodeId :
    (r.advance now req port remote).prev.remoteNodeId =
      remote.getD r.prev.remoteNodeId := rfl

@[simp] theorem advance_tx :
    (r.advance now req port remote).tx = (r.effect req port remote).tx.apply r.tx := rfl

@[simp] theorem advance_port (p : PortId) :
    (r.advance now req port remote).port p =
      { r.port p with isBlocked := (r.effect req port remote).ports.blocked r p } := by
  have hport : (r.recorded req port remote).port p = r.port p := by cases p <;> rfl
  have hblocked : ∀ e : PortEffect, e.blocked (r.recorded req port remote) p = e.blocked r p := by
    intro e
    cases e <;> simp only [PortEffect.blocked, hport]
  simp only [advance, apply_port, hport, hblocked]

end advance

/-- Rows read neither the retained nor the saved request, so recording a request first does not
change its effect. -/
theorem fsmRow_recorded (r : Ring τ) (now : τ) {req : RingRequest} {port : Option PortId}
    {remote : Option NodeId} (hinit : r.state ≠ .init)
    (hport : req.namesPort = true → port.isSome = true) (hrpl : r.cfg.RplSet) :
    (r.recorded req port remote).fsmRow now req port remote = r.advance now req port remote :=
  fsmRow_eq_apply (r.recorded req port remote) now hinit hport hrpl

end Ring

/-- The state machine takes the request: it passes the filter and is no duplicate. -/
structure Ring.Takes {τ : Type} (r : Ring τ) (req : RingRequest) (port : Option PortId)
    (remote : Option NodeId) : Prop where
  accepts : r.accepts req = true
  not_dupe : r.isDupe req port remote = false
  not_impossible : r.isImpossibleDupe req = false

namespace Ring.Alike

variable {τ : Type} {r r' : Ring τ}

theorem accepts_eq (h : r.Alike r') (req : RingRequest) : r'.accepts req = r.accepts req := by
  unfold accepts clearDenied
  rw [h.cfg, h.state, h.localRequest]

theorem takes (h : r.Alike r') {req : RingRequest} {port : Option PortId} {remote : Option NodeId}
    (ht : r.Takes req port remote) : r'.Takes req port remote where
  accepts := by
    rw [h.accepts_eq]
    exact ht.accepts
  not_dupe := by
    have hd := ht.not_dupe
    unfold isDupe at hd ⊢
    rwa [h.prev]
  not_impossible := by
    have hi := ht.not_impossible
    unfold isImpossibleDupe at hi ⊢
    rwa [h.prev]

end Ring.Alike

/-- **Everything that can become of a request**, in either copy. -/
inductive Processed {τ : Type} (r : Ring τ) (now : τ) (req : RingRequest) (port : Option PortId)
    (remote : Option NodeId) : Ring τ → Prop
  | dropped (h : r.accepts req = false) : Processed r now req port remote r
  | dupe (h : r.accepts req = true)
      (hd : r.isDupe req port remote = true ∨ r.isImpossibleDupe req = true) :
      Processed r now req port remote { r with localRequest := req.retained }
  | row (h : r.Takes req port remote) :
      Processed r now req port remote (r.advance now req port remote)

/-- An accepted request is retained even where it is swallowed afterwards. -/
theorem Processed.localRequest {τ : Type} {r r' : Ring τ} {now : τ} {req : RingRequest}
    {port : Option PortId} {remote : Option NodeId} (hp : Processed r now req port remote r')
    (ha : r.accepts req = true) : r'.localRequest = req.retained := by
  cases hp with
  | dropped h => exact absurd h (by simp [ha])
  | dupe | row => rfl

/-- A duplicate is a request that equals the previous one. -/
theorem Ring.prev_request_of_dupe {τ : Type} {r : Ring τ} {req : RingRequest}
    {port : Option PortId} {remote : Option NodeId}
    (hd : r.isDupe req port remote = true ∨ r.isImpossibleDupe req = true) :
    r.prev.request = req := by
  rcases hd with hd | hd
  · cases req <;> simp [isDupe] at hd <;> exact hd.1.symm
  · cases req <;> simp [isImpossibleDupe] at hd <;> exact hd.symm

end Erps
