import Erps.Ring.Wait
import Erps.Sim.Runs

/-!
# Timers of the simulator node, and the branch that ends it

`handle_eq` takes a callback apart exactly: what it changes before it calls `ring_process_request`,
the call, and what it changes after. Over it stand

* `timers_disciplined`: the timers run where they should, and an expired WTR timer always reverts;
* `survives_iff`: the process dies of an "impossible duplicit request" exactly when an RPL owner that
  waits in PENDING after a CLEAR is cleared again;
* `reverts_exactly`: an RPL owner in PENDING always reverts on a later tick, as long as it does not
  enter PENDING past the WTR timer. WTB, the timer some of those rows start, is never polled.
-/

set_option autoImplicit false

namespace Erps.Sim

open Bytes

variable {host : ByteOrder}

/-! ## A callback, taken apart -/

/-- The frame gets past the classifiers of `port_cb` and past the guard timer. -/
def Hears (host : ByteOrder) (r : Ring UInt64) (now : UInt64) (data : List UInt8) : Bool :=
  isRapsFrame data && !isLocalRapsFrame host data r.cfg.nodeId &&
    !(r.timers.guard.active && decide (tickDiffMsec now r.timers.guard.activeSince < 500))

/-- The ring a callback hands to `ring_process_request`: a command may have noted a failure, a frame
may have cleared the guard timer. -/
def Input.entry (host : ByteOrder) (r : Ring UInt64) (i : Input) : Ring UInt64 :=
  match i.event with
  | .command c => Event.prepare r (.command c)
  | .timer => r
  | .frame data _ =>
    if Hears host r i.now data && r.timers.guard.active then r.stopGuardTimer else r

/-- What a callback does after the call. -/
def Event.leave (r : Ring UInt64) : Event → Ring UInt64
  | .timer => r.stopWtrTimer
  | _ => r

theorem portCb_ring (host : ByteOrder) (r : Ring UInt64) (now : UInt64) (data : List UInt8)
    (port : PortId) :
    (portCb host r now data port).map Prod.fst =
      if isRapsFrame data && !isLocalRapsFrame host data r.cfg.nodeId then
        ringProcessRaps host r now data port
      else some r := by
  unfold portCb
  cases isRapsFrame data with
  | false => rfl
  | true =>
    cases isLocalRapsFrame host data r.cfg.nodeId with
    | true => rfl
    | false =>
      simp only [if_true, Bool.false_eq_true, if_false]
      cases ringProcessRaps host r now data port <;> rfl

/-- What a frame that is heard asks for. -/
theorem request_frame (host : ByteOrder) (r : Ring UInt64) (now : UInt64) (data : List UInt8)
    (port : PortId) :
    Input.request host r ⟨now, .frame data port⟩ =
      if Hears host r now data then
        (rapsParse host data).bind fun raps =>
          raps.ringRequest.map fun request => .fromNode request port raps.nodeId
      else none := rfl

theorem ringProcessRaps_eq (host : ByteOrder) (r : Ring UInt64) (now : UInt64) (data : List UInt8)
    (port : PortId) (hh : Hears host r now data = true) :
    ringProcessRaps host r now data port =
      match Input.request host r ⟨now, .frame data port⟩ with
      | none => some (if r.timers.guard.active then r.stopGuardTimer else r)
      | some q => ringProcessRequest (if r.timers.guard.active then r.stopGuardTimer else r) now
          q.request q.port q.remoteNodeId := by
  have hg : (r.timers.guard.active &&
      decide (tickDiffMsec now r.timers.guard.activeSince < 500)) = false := by
    simp only [Hears, Bool.and_eq_true, Bool.not_eq_true'] at hh
    exact hh.2
  rw [request_frame, if_pos hh]
  simp only [ringProcessRaps, hg, Bool.false_eq_true, if_false]
  cases rapsParse host data with
  | none => rfl
  | some raps =>
    rw [Option.bind_some]
    simp only
    cases raps.ringRequest <;> rfl

theorem handle_frame (host : ByteOrder) (r : Ring UInt64) (now : UInt64) (data : List UInt8)
    (port : PortId) :
    handle host r ⟨now, .frame data port⟩ =
      match Input.request host r ⟨now, .frame data port⟩ with
      | none => some (Input.entry host r ⟨now, .frame data port⟩)
      | some q => (ringProcessRequest (Input.entry host r ⟨now, .frame data port⟩) now q.request
          q.port q.remoteNodeId).map fun r => Event.leave r (.frame data port) := by
  show (portCb host r now data port).map Prod.fst = _
  rw [portCb_ring]
  cases hh : Hears host r now data with
  | true =>
    have hpass := hh
    simp only [Hears, Bool.and_eq_true] at hpass
    have hent : Input.entry host r ⟨now, .frame data port⟩ =
        if r.timers.guard.active then r.stopGuardTimer else r := by
      simp [Input.entry, hh]
    rw [if_pos (by simp only [Bool.and_eq_true]; exact hpass.1), ringProcessRaps_eq _ _ _ _ _ hh,
      hent]
    cases Input.request host r ⟨now, .frame data port⟩ with
    | none => rfl
    | some q => exact Option.map_id_apply.symm
  | false =>
    have hent : Input.entry host r ⟨now, .frame data port⟩ = r := by simp [Input.entry, hh]
    have hreq : Input.request host r ⟨now, .frame data port⟩ = none := by simp [request_frame, hh]
    rw [hreq, hent]
    cases hf : isRapsFrame data && !isLocalRapsFrame host data r.cfg.nodeId with
    | false => rfl
    | true =>
      -- the guard timer is what keeps the frame out
      have hg : (r.timers.guard.active &&
          decide (tickDiffMsec now r.timers.guard.activeSince < 500)) = true := by
        unfold Hears at hh
        rw [hf, Bool.true_and, Bool.not_eq_false'] at hh
        exact hh
      show ringProcessRaps host r now data port = some r
      unfold ringProcessRaps
      simp only [hg, if_true]

/-- **A callback is at most one call of `ring_process_request`.** -/
theorem handle_eq (host : ByteOrder) (r : Ring UInt64) (i : Input) :
    handle host r i =
      match i.request host r with
      | none => some (i.entry host r)
      | some q => (ringProcessRequest (i.entry host r) i.now q.request q.port q.remoteNodeId).map
          fun r => i.event.leave r := by
  obtain ⟨now, e⟩ := i
  cases e with
  | command c =>
    cases c with
    | status => rfl
    | clear | ms | fs | fail | recover =>
      simp only [handle, rioClient, Input.request, Input.entry, Event.prepare, Event.leave,
        Request.bare, Request.onPort]
      simp
  | timer =>
    simp only [handle, ringTimer, Input.request, Input.entry, Event.leave]
    cases r.timers.wtr.active with
    | false => rfl
    | true =>
      by_cases hx : tickDiffMsec now r.timers.wtr.activeSince ≥ wtrTimer * 1000
      · simp [hx, Request.bare]
      · simp [hx]
  | frame data port => exact handle_frame host r now data port

theorem alike_entry (r : Ring UInt64) (i : Input) : r.Alike (i.entry host r) := by
  obtain ⟨now, e⟩ := i
  cases e with
  | command c => exact alike_prepare r (.command c)
  | timer => exact ⟨rfl, rfl, rfl, rfl, rfl, fun _ => rfl⟩
  | frame data port =>
    unfold Input.entry
    simp only
    split <;> exact ⟨rfl, rfl, rfl, rfl, rfl, fun _ => rfl⟩

/-- It touches neither of the RPL owner's timers. -/
theorem entry_timers (host : ByteOrder) (r : Ring UInt64) (i : Input) :
    (i.entry host r).timers.wtr = r.timers.wtr ∧ (i.entry host r).timers.wtb = r.timers.wtb := by
  obtain ⟨now, e⟩ := i
  cases e with
  | timer => exact ⟨rfl, rfl⟩
  | frame data port =>
    unfold Input.entry
    simp only
    split <;> exact ⟨rfl, rfl⟩
  | command c =>
    cases c with
    | status | clear | ms | fs => exact ⟨rfl, rfl⟩
    | fail p | recover p => cases p <;> exact ⟨rfl, rfl⟩

/-- The requests of the callbacks: an expiry comes from the timer callback alone, and only of a WTR
timer that runs. -/
theorem request_expiry {r : Ring UInt64} {i : Input} {q : Request}
    (hq : i.request host r = some q) :
    q.request ≠ .wtbExpires ∧
      (i.event = .timer → q = .bare .wtrExpires rfl rfl ∧ r.timers.wtr.active = true) ∧
      (q.request = .wtrExpires → i.event = .timer) := by
  obtain ⟨now, e⟩ := i
  cases e with
  | timer =>
    simp only [Input.request] at hq
    split at hq
    · rename_i h
      cases hq
      exact ⟨by simp [Request.bare], fun _ => ⟨rfl, (Bool.and_eq_true _ _ |>.mp h).1⟩,
        fun _ => rfl⟩
    · cases hq
  | frame data port =>
    have hraps := isRaps_of_request hq
    refine ⟨?_, fun h => (by cases h), ?_⟩
    · intro h
      rw [h] at hraps
      cases hraps
    · intro h
      rw [h] at hraps
      cases hraps
  | command c =>
    cases c with
    | status => cases hq
    | clear | ms | fs | fail | recover =>
      cases hq
      refine ⟨by simp [Request.bare, Request.onPort], fun h => (by cases h), ?_⟩
      intro h
      cases h

/-- A callback leaves the ring it hands over as it is, or its request is taken and its row is. -/
theorem handle_entry {r r' : Ring UInt64} (hc : Coherent r) {i : Input}
    (h : handle host r i = some r') :
    (i.request host r = none ∧ r' = i.entry host r) ∨
      ∃ q, i.request host r = some q ∧
        ((¬ Takes r q ∧ r' = i.event.leave (i.entry host r)) ∨
          (Takes r q ∧ r' = i.event.leave (advance (i.entry host r) i.now q))) := by
  rw [handle_eq] at h
  cases hq : i.request host r with
  | none =>
    rw [hq] at h
    cases h
    exact .inl ⟨rfl, rfl⟩
  | some q =>
    rw [hq] at h
    obtain ⟨r₁, h₁, rfl⟩ := Option.map_eq_some_iff.mp h
    have ha : r.Alike (i.entry host r) := alike_entry r i
    have hce := hc.congr ha
    refine .inr ⟨q, rfl, ?_⟩
    rcases hce.processed_cases (processed hce h₁) with ⟨hn, rfl⟩ | ⟨ht, rfl⟩
    · exact .inl ⟨fun ht => hn (ha.takes ht), rfl⟩
    · exact .inr ⟨ha.symm.takes ht, rfl⟩

/-- A request the state machine takes is processed. -/
theorem ringProcessRequest_of_takes {r : Ring UInt64} (hc : Coherent r) {q : Request}
    (ht : Takes r q) (now : UInt64) :
    ringProcessRequest r now q.request q.port q.remoteNodeId = some (advance r now q) := by
  unfold ringProcessRequest
  rw [Ring.filterRequest_eq, ht.accepts, if_pos rfl]
  have himp : Ring.isImpossibleDupe { r with localRequest := q.request.retained } q.request = false :=
    ht.not_impossible
  have hdup : Ring.isDupe { r with localRequest := q.request.retained } q.request q.port
      q.remoteNodeId = false := ht.not_dupe
  show ringFsm { r with localRequest := q.request.retained } now q.request q.port q.remoteNodeId = _
  unfold ringFsm
  rw [himp, hdup, if_neg (by simp), if_neg (by simp)]
  exact congrArg some (r.fsmRow_recorded now hc.not_init q.port_isSome hc.rplSet)

/-! ## Timer discipline -/

/-- `ring_create` with the flag it sets as a parameter. -/
def ringCreateWith (isRevertive : Bool) (now : UInt64) (rplPort : Option PortId)
    (isRplOwner isRplNeighbour : Bool) (nodeId : NodeId) : Option (Ring UInt64) :=
  let r := ringBlank rplPort isRplOwner isRplNeighbour nodeId
  ringFsm { r with cfg := { r.cfg with isRevertive := isRevertive } } now .invalid none none

/-- The simulator node, revertive or not. -/
def fixedNode (host : ByteOrder) : Lts (Ring UInt64) Input :=
  .ofStep (fun r => ∃ isRevertive now nodeId, ∃ role : Role,
    ringCreateWith isRevertive now role.rplPort role.isRplOwner role.isRplNeighbour nodeId = some r)
    (handle host)

/-- The source's node is the revertive one. -/
theorem fixedNode_init {r : Ring UInt64} (h : Created r) : (fixedNode host).init r := by
  obtain ⟨now, nodeId, role, h⟩ := h
  exact ⟨true, now, nodeId, role, h⟩

theorem fixedNode_reachable {r : Ring UInt64} (h : (node host).Reachable r) :
    (fixedNode host).Reachable r := by
  refine Lts.Reachable.invariant (L := node host) (I := (fixedNode host).Reachable) ?_ ?_ h
  · intro s hs
    exact .init (fixedNode_init hs)
  · intro s i t _ hs hst
    exact hs.step hst

/-- Between two callbacks. -/
structure TimedNode (r : Ring UInt64) : Prop where
  coherent : Coherent r
  timed : Timed r

namespace TimedNode

theorem init {r : Ring UInt64} (h : (fixedNode host).init r) : TimedNode r := by
  obtain ⟨isRevertive, now, nodeId, role, h⟩ := h
  have hb := blank_ringBlank role nodeId
  have hb' : Blank { ringBlank role.rplPort role.isRplOwner role.isRplNeighbour nodeId with
      cfg := { (ringBlank role.rplPort role.isRplOwner role.isRplNeighbour nodeId).cfg with
        isRevertive := isRevertive } } :=
    ⟨hb.state, hb.localRequest, hb.prev_request, hb.prev_port, hb.port, hb.rplSet⟩
  have heq := Ring.fsmRow_of_blank hb' now
  unfold ringCreateWith ringFsm at h
  rw [if_neg (by simp [Ring.isImpossibleDupe]), if_neg (by simp [Ring.isDupe]),
    Option.some.injEq] at h
  rw [← h, heq]
  exact ⟨Coherent.started hb' now, Timed.started hb' now⟩

theorem entry {r : Ring UInt64} (h : TimedNode r) (host : ByteOrder) (i : Input) : TimedNode (i.entry host r) := by
  obtain ⟨hwtr, hwtb⟩ := entry_timers host r i
  refine ⟨h.coherent.congr (alike_entry r i), h.timed.congr (alike_entry r i) ?_ ?_⟩
  · rw [hwtr]
    exact id
  · rw [hwtb]
    exact id

/-- **Every callback keeps the discipline.** -/
theorem handle {r r' : Ring UInt64} (h : TimedNode r) {i : Input}
    (hst : Sim.handle host r i = some r') : TimedNode r' := by
  have he := h.entry host i
  rcases handle_entry h.coherent hst with ⟨_, rfl⟩ | ⟨q, hq, hcases⟩
  · exact he
  · obtain ⟨hwtb, htimer, hexp⟩ := request_expiry hq
    rcases hcases with ⟨hn, rfl⟩ | ⟨ht, rfl⟩
    · cases hev : i.event with
      | timer =>
        obtain ⟨rfl, hw⟩ := htimer hev
        exact absurd (h.timed.takes_wtrExpires hw) hn
      | command | frame => exact he
    · cases hev : i.event with
      | timer =>
        obtain ⟨rfl, hw⟩ := htimer hev
        have hw' : (i.entry host r).timers.wtr.active = true := by
          rw [(entry_timers host r i).1]
          exact hw
        have hadv : Coherent ((i.entry host r).advance i.now .wtrExpires none none) :=
          he.coherent.advance
        exact ⟨⟨hadv.not_init, hadv.rplSet, hadv.retained⟩,
          (he.timed.reverted he.coherent.rplSet hw' i.now).timed rfl⟩
      | command | frame =>
        refine ⟨he.coherent.advance, he.timed.advance ?_ hwtb⟩
        intro h
        exact absurd (hexp h) (by simp [hev])

theorem of_reachable {r : Ring UInt64} (h : (fixedNode host).Reachable r) : TimedNode r := by
  refine h.invariant (I := TimedNode) (fun s hs => init hs) ?_
  intro s i t _ hs hst
  exact hs.handle hst

end TimedNode

/-- **Timers run at a waiting owner only, and an expired WTR timer reverts.** -/
theorem timers_disciplined {r : Ring UInt64} (h : (fixedNode host).Reachable r) :
    (r.timers.wtr.active = true ∨ r.timers.wtb.active = true →
      (r.cfg.isRplOwner = true ∧ r.cfg.isRevertive = true) ∧ r.state = .pending ∧
        r.localRequest = .invalid) ∧
    ∀ now, r.timers.wtr.active = true →
      tickDiffMsec now r.timers.wtr.activeSince ≥ wtrTimer * 1000 →
      Takes r (.bare .wtrExpires rfl rfl) ∧ ∃ r', ringTimer r now = some r' ∧ Reverted r' := by
  obtain ⟨hc, ht⟩ := TimedNode.of_reachable h
  constructor
  · intro hact
    obtain ⟨hrole, hs⟩ := ht.armed hact
    exact ⟨hrole, hs, ht.quiet (.inr hs)⟩
  · intro now hw hx
    have htk : r.Takes .wtrExpires none none := ht.takes_wtrExpires hw
    have hpass : ringProcessRequest r now .wtrExpires none none =
        some (r.advance now .wtrExpires none none) :=
      ringProcessRequest_of_takes hc (q := .bare .wtrExpires rfl rfl) htk now
    refine ⟨htk, (r.advance now .wtrExpires none none).stopWtrTimer, ?_,
      ht.reverted hc.rplSet hw now⟩
    unfold ringTimer
    rw [if_pos hw, if_pos hx, hpass]
    rfl

/-- The owner 15 seconds after it was created. -/
theorem timers_disciplined_owner :
    ∃ r, ringTimer (started 0 owner (nodeId 1)) 15000 = some r ∧ Reverted r := by
  have hr : (fixedNode .little).Reachable (started 0 owner (nodeId 1)) :=
    .init (fixedNode_init (created_started owner (nodeId 1)))
  exact ((timers_disciplined hr).2 15000 rfl (by decide)).2

/-! ## The impossible duplicate -/

/-- The RPL owner waits in PENDING after a CLEAR and is cleared again. -/
structure ClearsAgain (r : Ring UInt64) (i : Input) : Prop where
  event : i.event = .command .clear
  owner : r.cfg.isRplOwner = true
  state : r.state = .pending
  prev : r.prev.request = .clear

/-- Of the requests that must not repeat, the callbacks make two. -/
theorem request_of_impossible {r r' : Ring UInt64} {i : Input} {q : Request}
    (hq : i.request host r = some q) (hi : r'.isImpossibleDupe q.request = true) :
    (i.event = .command .clear ∧ q.request = .clear) ∨
      (q.request = .wtrExpires ∧ r.timers.wtr.active = true) := by
  obtain ⟨now, e⟩ := i
  cases e with
  | timer =>
    obtain ⟨rfl, hw⟩ := (request_expiry hq).2.1 rfl
    exact .inr ⟨rfl, hw⟩
  | frame data port =>
    have hraps := isRaps_of_request hq
    cases hreq : q.request <;> simp [hreq, RingRequest.isRaps, Ring.isImpossibleDupe] at hraps hi
  | command c =>
    cases c with
    | clear =>
      cases hq
      exact .inl ⟨rfl, rfl⟩
    | status => cases hq
    | ms | fs | fail | recover =>
      cases hq
      cases hi

/-- **When the process dies.** -/
theorem handle_eq_none_iff {r : Ring UInt64} (h : TimedNode r) {i : Input} :
    handle host r i = none ↔ ClearsAgain r i := by
  have ha : r.Alike (i.entry host r) := alike_entry r i
  have himp : ∀ req, (i.entry host r).isImpossibleDupe req = r.isImpossibleDupe req := by
    intro req
    unfold Ring.isImpossibleDupe
    rw [ha.prev]
  rw [handle_eq]
  constructor
  · intro hnone
    cases hq : i.request host r with
    | none =>
      rw [hq] at hnone
      cases hnone
    | some q =>
      rw [hq] at hnone
      have hnone := Option.map_eq_none_iff.mp hnone
      rw [ringProcessRequest_eq_none_iff, ha.accepts_eq, himp] at hnone
      obtain ⟨hacc, hi⟩ := hnone
      have hdupe : r.isDupe q.request none none = true ∨ r.isImpossibleDupe q.request = true :=
        .inr hi
      have hprev := Ring.prev_request_of_dupe hdupe
      rcases request_of_impossible hq hi with ⟨hev, hclear⟩ | ⟨hexp, hw⟩
      · rw [hclear] at hacc hprev
        have hl : r.localRequest = .invalid := by
          rw [h.coherent.retained, hprev]
          rfl
        rcases Ring.cases_of_accepts_clear hacc with h' | h' | ⟨hown, hs | hs⟩
        · exact absurd (hl.symm.trans h') (by simp)
        · exact absurd (hl.symm.trans h') (by simp)
        · exact ⟨hev, hown, hs, hprev⟩
        · exact absurd hs h.coherent.not_init
      · -- the expiry of a timer that runs is never a repeat
        have ht := (h.timed.takes_wtrExpires hw).not_impossible
        rw [hexp] at hi
        exact absurd hi (by simp [ht])
  · intro hc
    obtain ⟨hev, hown, hs, hprev⟩ := hc
    have hq : i.request host r = some (.bare .clear rfl rfl) := by
      unfold Input.request
      rw [hev]
    have hl : r.localRequest = .invalid := by
      rw [h.coherent.retained, hprev]
      rfl
    rw [hq]
    apply Option.map_eq_none_iff.mpr
    rw [ringProcessRequest_eq_none_iff, ha.accepts_eq, himp]
    constructor
    · simp [Request.bare, Ring.accepts, Ring.clearDenied, hl, hown, hs, RingRequest.code]
    · simp [Request.bare, Ring.isImpossibleDupe, hprev]

/-- **The runs that survive.** The process lives through a list of callbacks exactly if none of them
clears a waiting RPL owner for a second time. -/
theorem survives_iff {s : Ring UInt64} {is : List Input} (hs : (node host).init s) :
    (∃ t, (node host).Run s is t) ↔
      ∀ js i ks t, is = js ++ i :: ks → (node host).Run s js t → ¬ ClearsAgain t i := by
  have hnode : ∀ js t, (node host).Run s js t → TimedNode t := by
    intro js t hrun
    exact .of_reachable (fixedNode_reachable ⟨s, js, hs, hrun⟩)
  have hgo : (∃ t, (node host).Run s is t) ↔
      ∀ js i ks t, is = js ++ i :: ks → (node host).Run s js t → handle host t i ≠ none :=
    Lts.exists_run_iff
  rw [hgo]
  constructor
  · intro h js i ks t heq hrun hc
    exact h js i ks t heq hrun ((handle_eq_none_iff (hnode js t hrun)).mpr hc)
  · intro h js i ks t heq hrun hnone
    exact h js i ks t heq hrun ((handle_eq_none_iff (hnode js t hrun)).mp hnone)

/-- One CLEAR is survived. -/
theorem survives_owner :
    ∃ t, (node .little).Run (started 0 owner (nodeId 1)) [⟨1000, .command .clear⟩] t := by
  refine (survives_iff (created_started owner (nodeId 1))).mpr ?_
  intro js i ks t heq hrun hc
  cases js with
  | nil =>
    cases Lts.exec_of_run hrun
    cases hc.prev
  | cons j js => simp at heq

/-- An MS, its CLEAR, and one CLEAR more. -/
theorem survives_counterexample :
    ¬ ∀ (host : ByteOrder) (s : Ring UInt64) (is : List Input), (node host).init s →
      ∃ t, (node host).Run s is t := by
  intro h
  obtain ⟨t, ht⟩ := h .little (started 0 owner (nodeId 1))
    [⟨1000, .command (.ms .port1)⟩, ⟨2000, .command .clear⟩, ⟨3000, .command .clear⟩]
    (created_started owner (nodeId 1))
  cases Lts.exec_of_run ht

/-! ## Reversion -/

/-- From any time on it takes 15 seconds at most until there is a tick at which `ring_timer` takes the
node to IDLE behind its RPL. Time is counted in milliseconds, and the clock shows its low 64 bits. -/
def Reverts (r : Ring UInt64) : Prop :=
  ∀ now : Nat, ∃ t, now ≤ t ∧ t ≤ now + 15000 ∧ ∃ r', ringTimer r (UInt64.ofNat t) = some r' ∧
    r'.state = .idle ∧ ∃ p, r.cfg.rplPort = some p ∧ (r'.port p).isBlocked = true

/-- A node in PENDING is not stuck there. -/
def RevertsLater (r : Ring UInt64) : Prop := r.state = .pending → Reverts r

/-- The callback does not take the node into PENDING past the WTR timer. -/
def StartsWtr (host : ByteOrder) (r : Ring UInt64) (i : Input) : Prop :=
  ∀ q, i.request host r = some q → Takes r q → ¬ r.Strands q.request

/-- The invariant of the runs that meet the condition. -/
structure Waits (r : Ring UInt64) : Prop where
  node : TimedNode r
  owner : r.cfg.isRplOwner = true
  revertive : r.cfg.isRevertive = true
  wtr : r.state = .pending → r.timers.wtr.active = true

theorem strands_congr {r r' : Ring UInt64} (ha : r.Alike r') {req : RingRequest}
    (h : r.Strands req) : r'.Strands req := by
  cases h with
  | clear hs => exact .clear (by rwa [ha.state])
  | rapsNr hs => exact .rapsNr (by rwa [ha.state])
  | rapsNrRb hs => exact .rapsNrRb (by rwa [ha.state])
  | rapsMs hs hb => exact .rapsMs (by rwa [ha.state]) (ha.hasBlock_iff.mpr hb)

/-- A timer is due already, or will be before another 15 seconds are over. -/
theorem exists_due (since : UInt64) (now : Nat) :
    ∃ t, now ≤ t ∧ t ≤ now + 15000 ∧
      tickDiffMsec (UInt64.ofNat t) since ≥ wtrTimer * 1000 := by
  have hdue : ∀ t, tickDiffMsec (UInt64.ofNat t) since ≥ wtrTimer * 1000 ↔
      15000 ≤ (2 ^ 64 - since.toNat + t % 2 ^ 64) % 2 ^ 64 := by
    intro t
    rw [ge_iff_le, UInt64.le_iff_toNat_le, tickDiffMsec, UInt64.toNat_sub, UInt64.toNat_ofNat']
    rfl
  have hsince := since.toNat_lt
  by_cases hnow : 15000 ≤ (2 ^ 64 - since.toNat + now % 2 ^ 64) % 2 ^ 64
  · exact ⟨now, Nat.le_refl now, Nat.le_add_right .., (hdue now).mpr hnow⟩
  · have hlater := (hdue (now + (15000 - (2 ^ 64 - since.toNat + now % 2 ^ 64) % 2 ^ 64))).mpr
      (by omega)
    exact ⟨_, by omega, by omega, hlater⟩

namespace Waits

theorem init {r : Ring UInt64} (h : (Sim.node host).init r) (hown : r.cfg.isRplOwner = true) :
    Waits r := by
  refine ⟨@TimedNode.init host _ (fixedNode_init h), hown, ?_, ?_⟩
  · obtain ⟨now, nodeId, role, rfl⟩ := Created.exists_started h
    rfl
  · intro _
    obtain ⟨now, nodeId, role, rfl⟩ := Created.exists_started h
    have hrole : role.isRplOwner = true := hown
    simp [started, Ring.started, Effect.apply, Ring.initEffect, ringBlank, hrole,
      TimerEffect.apply]

theorem revertsLater {r : Ring UInt64} (h : Waits r) : RevertsLater r := by
  intro hs now
  have hw := h.wtr hs
  obtain ⟨t, hle, hsoon, hdue⟩ := exists_due r.timers.wtr.activeSince now
  have hpass : ringProcessRequest r (UInt64.ofNat t) .wtrExpires none none =
      some (r.advance (UInt64.ofNat t) .wtrExpires none none) :=
    ringProcessRequest_of_takes h.node.coherent (q := .bare .wtrExpires rfl rfl)
      (h.node.timed.takes_wtrExpires hw) _
  have hrev := h.node.timed.reverted h.node.coherent.rplSet hw (UInt64.ofNat t)
  obtain ⟨p, hp, hblock⟩ := hrev.rpl
  refine ⟨t, hle, hsoon, _, ?_, hrev.state, p, hp, hblock.1⟩
  unfold ringTimer
  rw [if_pos hw, if_pos hdue, hpass]
  rfl

/-- One callback that meets the condition. -/
theorem handle {r r' : Ring UInt64} (h : Waits r) {i : Input} (hc : StartsWtr host r i)
    (hst : Sim.handle host r i = some r') : Waits r' := by
  have ha : r.Alike (i.entry host r) := alike_entry r i
  have hcfg : r'.cfg = r.cfg := (handle_outcome h.node.coherent hst).cfg
  refine ⟨h.node.handle hst, by rw [hcfg]; exact h.owner, by rw [hcfg]; exact h.revertive, ?_⟩
  have hentry : (i.entry host r).state = .pending → (i.entry host r).timers.wtr.active = true := by
    rw [ha.state, (entry_timers host r i).1]
    exact h.wtr
  rcases handle_entry h.node.coherent hst with ⟨_, rfl⟩ | ⟨q, hq, hcases⟩
  · exact hentry
  · obtain ⟨_, htimer, _⟩ := request_expiry hq
    rcases hcases with ⟨hn, rfl⟩ | ⟨ht, rfl⟩
    · cases hev : i.event with
      | timer =>
        obtain ⟨rfl, hw⟩ := htimer hev
        exact absurd (h.node.timed.takes_wtrExpires hw) hn
      | command | frame => exact hentry
    · cases hev : i.event with
      | timer =>
        -- row 66 leaves PENDING
        obtain ⟨rfl, hw⟩ := htimer hev
        obtain ⟨_, hs⟩ := h.node.timed.armed (.inl hw)
        have hown : (i.entry host r).cfg.isRplOwner = true := by
          rw [ha.cfg]
          exact h.owner
        have he := Ring.effect_wtrExpires none none hown (ha.state.trans hs)
        intro hnext
        have hnext : ((i.entry host r).effect .wtrExpires none none).next = .pending := hnext
        rw [he] at hnext
        cases hnext
      | command | frame =>
        intro hnext
        have hnext : ((i.entry host r).effect q.request q.port q.remoteNodeId).next = .pending :=
          hnext
        show (((i.entry host r).effect q.request q.port q.remoteNodeId).wtr.apply i.now
          (i.entry host r).timers.wtr).active = true
        have hinit : (i.entry host r).state ≠ .init := by
          rw [ha.state]
          exact h.node.coherent.not_init
        rcases Ring.effect_next_pending hinit hnext with ⟨hs, hkeep⟩ | hstart | hstrand
        · rw [hkeep]
          exact hentry hs
        · rw [hstart, Ring.ownerStart, ha.cfg, h.owner, h.revertive]
          rfl
        · exact absurd (strands_congr ha.symm hstrand) (hc q hq ht)

/-- A callback that does not meet it leaves the node stuck. -/
theorem startsWtr_of_revertsLater {r r' : Ring UInt64} (h : Waits r) {i : Input}
    (hst : Sim.handle host r i = some r') (hrev : RevertsLater r') : StartsWtr host r i := by
  intro q hq ht hstrand
  have ha : r.Alike (i.entry host r) := alike_entry r i
  have heff := (strands_congr ha hstrand).effect q.port q.remoteNodeId
  have hoff : r.timers.wtr.active = false := by
    apply Bool.eq_false_iff.mpr
    intro hw
    exact hstrand.state_ne (h.node.timed.armed (.inl hw)).2
  rcases handle_entry h.node.coherent hst with ⟨hnone, _⟩ | ⟨q', hq', hcases⟩
  · rw [hq] at hnone
    cases hnone
  · rw [hq, Option.some.injEq] at hq'
    subst hq'
    rcases hcases with ⟨hn, _⟩ | ⟨_, rfl⟩
    · exact hn ht
    · have hleave : i.event.leave (advance (i.entry host r) i.now q) =
          advance (i.entry host r) i.now q := by
        cases hev : i.event with
        | timer =>
          obtain ⟨rfl, hw⟩ := (request_expiry hq).2.1 hev
          exact absurd hw (by simp [hoff])
        | command | frame => rfl
      rw [hleave] at hrev
      have hw : (advance (i.entry host r) i.now q).timers.wtr.active = false := by
        show (((i.entry host r).effect q.request q.port q.remoteNodeId).wtr.apply i.now
          (i.entry host r).timers.wtr).active = false
        rw [heff.2, (entry_timers host r i).1]
        exact hoff
      obtain ⟨t, _, _, r', hr', hidle, _⟩ := hrev heff.1 0
      have hsame : ringTimer (advance (i.entry host r) i.now q) (UInt64.ofNat t) =
          some (advance (i.entry host r) i.now q) := by
        unfold ringTimer
        rw [if_neg (by simp [hw])]
      rw [hsame, Option.some.injEq] at hr'
      rw [← hr'] at hidle
      exact absurd (heff.1.symm.trans hidle) (by simp)

end Waits

/-- **A revertive owner reverts** within 15 seconds of any moment in PENDING, throughout a run exactly
when no callback takes it into PENDING past the WTR timer. -/
theorem reverts_exactly {s t : Ring UInt64} {is : List Input} (hs : (node host).init s)
    (hown : s.cfg.isRplOwner = true) :
    RevertsLater s ∧ (((node host).restrict (StartsWtr host)).Run s is t ↔
      ((node host).within RevertsLater).Run s is t) := by
  have hinit : Waits s := .init hs hown
  refine ⟨hinit.revertsLater, Lts.run_restrict_iff (J := Waits) (fun _ h => h.revertsLater) ?_ ?_
    hinit⟩
  · intro r i r' h hc hst
    exact h.handle hc hst
  · intro r i r' h hst hrev
    exact h.startsWtr_of_revertsLater hst hrev

/-- A failure and its recovery meet the condition. -/
theorem reverts_exactly_owner :
    ∃ r, ((node .little).within RevertsLater).Run (started 0 owner (nodeId 1))
      [⟨1000, .command (.fail .port1)⟩] r := by
  have hstep : ∃ r, handle .little (started 0 owner (nodeId 1))
      ⟨1000, .command (.fail .port1)⟩ = some r := ⟨_, rfl⟩
  obtain ⟨r, hr⟩ := hstep
  refine ⟨r, (reverts_exactly (created_started owner (nodeId 1)) rfl).2.mp
    (Lts.Run.nil.snoc ⟨?_, hr⟩)⟩
  intro q hq _
  have hq' : some (Request.onPort .sf .port1 rfl) = some q := hq
  cases hq'
  intro hstrand
  cases hstrand

/-- An MS and its CLEAR: row 30 starts WTB, which nothing polls. -/
theorem reverts_exactly_counterexample :
    ¬ ∀ host r, ((node host).restrict (SparesOwner host)).Reachable r → r.cfg.isRplOwner = true →
      r.cfg.isRevertive = true → RevertsLater r := by
  intro h
  have hrun : ∃ r₁ r₂, handle .little (started 0 owner (nodeId 1))
        ⟨1000, .command (.ms .port1)⟩ = some r₁ ∧
      handle .little r₁ ⟨2000, .command .clear⟩ = some r₂ ∧ r₂.cfg.isRplOwner = true ∧
      r₂.cfg.isRevertive = true ∧ r₂.state = .pending ∧ r₂.timers.wtr.active = false :=
    ⟨_, _, rfl, rfl, rfl, rfl, rfl, rfl⟩
  obtain ⟨r₁, r₂, h₁, h₂, hown, hrev, hs, hw⟩ := hrun
  have h₀ : ((node .little).restrict (SparesOwner .little)).Reachable
      (started 0 owner (nodeId 1)) := .init (created_started owner (nodeId 1))
  have hspare : ∀ r now c, SparesOwner .little r ⟨now, .command c⟩ := by
    intro r now c q hq hreq
    cases c <;> cases hq <;> cases hreq
  have hreach := (h₀.step ⟨hspare _ _ _, h₁⟩).step ⟨hspare _ _ _, h₂⟩
  obtain ⟨t, _, _, r', hr', hidle, _⟩ := h .little r₂ hreach hown hrev hs 0
  unfold ringTimer at hr'
  rw [if_neg (by simp [hw]), Option.some.injEq] at hr'
  rw [← hr'] at hidle
  exact absurd (hs.symm.trans hidle) (by simp)

end Erps.Sim
