import Erps.Lib.Lts
import Erps.Ring.Start

/-!
# The simulator node: `ring.c`, `ring_io.c` and `ringd.c`

The user-space node: its copy of `ring_fsm` and `ring_process_request`, `ring_create`, and the three
callbacks that feed it: `rio_client` (a command on the control socket), `ring_timer` and `port_cb` (a
frame on a ring port). A tick is a 64-bit number of milliseconds.

The simulator `die`s on an impossible duplicate, so its functions are partial and `none` is the end
of the process.

`node` is the transition system of the three callbacks. `handle_cases` says what one of them can do
to the ring: at most one request is taken, and beside its row only `is_failed` and the timers move.
-/

set_option autoImplicit false

namespace Erps

open Bytes

namespace Ring

variable {τ : Type}

/-- `port->is_failed = failed`. -/
def setFailed (r : Ring τ) (p : PortId) (failed : Bool) : Ring τ :=
  match p with
  | .port0 => { r with port0 := { r.port0 with isFailed := failed } }
  | .port1 => { r with port1 := { r.port1 with isFailed := failed } }

end Ring

namespace Sim

/-! ## Requests -/

/-- `tick_diff_msec`. -/
def tickDiffMsec (t1 t2 : UInt64) : UInt64 := t1 - t2

/-- `WTR_TIMER`. -/
def wtrTimer : UInt64 := 15

/-- `ring_fsm`. -/
def ringFsm (r : Ring UInt64) (now : UInt64) (req : RingRequest) (port : Option PortId)
    (remote : Option NodeId) : Option (Ring UInt64) :=
  -- "impossible duplicit request received!"
  if r.isImpossibleDupe req then none
  -- "same request ignored"
  else if r.isDupe req port remote then some r
  else some ((r.saveRequest req port remote).fsmRow now req port remote)

/-- `ring_process_request`. -/
def ringProcessRequest (r : Ring UInt64) (now : UInt64) (request : RingRequest)
    (port : Option PortId) (remote : Option NodeId) : Option (Ring UInt64) :=
  match r.filterRequest request with
  | .drop r => some r
  | .pass r => ringFsm r now request port remote

/-- The ring `ring_create` has filled in when it calls `ring_fsm`. The frame buffer is not
initialised there; the encode of the first R-APS(NR) overwrites all of it. -/
def ringBlank (rplPort : Option PortId) (isRplOwner isRplNeighbour : Bool) (nodeId : NodeId) :
    Ring UInt64 :=
  { port0 := { isBlocked := false, isFailed := false }
    port1 := { isBlocked := false, isFailed := false }
    cfg :=
      { isRplOwner := isRplOwner
        isRplNeighbour := isRplNeighbour
        isRevertive := true
        rplPort := rplPort
        version := 0
        ringId := 1
        rapsVid := 4093
        nodeId := nodeId }
    timers :=
      { guard := { active := false, activeSince := 0 }
        wtr := { active := false, activeSince := 0 }
        wtb := { active := false, activeSince := 0 } }
    localRequest := .invalid
    state := .init
    prev := { request := .invalid, port := none, remoteNodeId := .zero }
    tx :=
      { isSendingRaps := false
        raps :=
          { ringId := 1
            vid := 4093
            version := 0
            flags := 0xff
            request := .nr
            subcode := 0
            nodeId := nodeId }
        rapsFrame := List.replicate 55 0
        rapsFrameLen := rapsGetLen
        rapsBurstsRemain := 0 } }

/-- `ring_create`. -/
def ringCreate (now : UInt64) (rplPort : Option PortId) (isRplOwner isRplNeighbour : Bool)
    (nodeId : NodeId) : Option (Ring UInt64) :=
  ringFsm (ringBlank rplPort isRplOwner isRplNeighbour nodeId) now .invalid none none

/-! ## Callbacks -/

/-- The commands of `ring_io.h`, with the port of those that take one. -/
inductive Command
  | status
  | clear
  | ms (p : PortId)
  | fs (p : PortId)
  | fail (p : PortId)
  | recover (p : PortId)
  deriving DecidableEq, Repr

/-- `rio_client`, past the decoding of the message. -/
def rioClient (r : Ring UInt64) (now : UInt64) : Command → Option (Ring UInt64)
  | .status => some r
  | .clear => ringProcessRequest r now .clear none none
  | .ms p => ringProcessRequest r now .ms (some p) none
  | .fs p => ringProcessRequest r now .fs (some p) none
  | .fail p => ringProcessRequest (r.setFailed p true) now .sf (some p) none
  | .recover p => ringProcessRequest (r.setFailed p false) now .clearSf (some p) none

/-- `ring_timer`. -/
def ringTimer (r : Ring UInt64) (now : UInt64) : Option (Ring UInt64) :=
  -- WTR timer
  if r.timers.wtr.active then
    if tickDiffMsec now r.timers.wtr.activeSince ≥ wtrTimer * 1000 then
      (ringProcessRequest r now .wtrExpires none none).map Ring.stopWtrTimer
    else some r
  else some r

/-- `ring_process_raps`, on a frame received at `origin`. -/
def ringProcessRaps (host : ByteOrder) (r : Ring UInt64) (now : UInt64) (data : List UInt8)
    (origin : PortId) : Option (Ring UInt64) :=
  let guard := r.timers.guard
  -- guard timer
  if guard.active && tickDiffMsec now guard.activeSince < 500 then some r
  else
    let r := if guard.active then r.stopGuardTimer else r
    match rapsParse host data with
    | none => some r
    | some raps =>
      match raps.ringRequest with
      | none => some r
      | some request => ringProcessRequest r now request (some origin) (some raps.nodeId)

/-- `port_cb`: the ring afterwards, and the port the frame is sent on from. -/
def portCb (host : ByteOrder) (r : Ring UInt64) (now : UInt64) (data : List UInt8)
    (port : PortId) : Option (Ring UInt64 × Option PortId) :=
  if isRapsFrame data then
    if isLocalRapsFrame host data r.cfg.nodeId then some (r, none)
    else
      (ringProcessRaps host r now data port).map fun r =>
        (r, if (r.port port).isBlocked then none else some (ringOtherPort (some port)))
  else some (r, none)

/-- `send_raps_cb`: the ring afterwards, and the frame it has sent on both ports. -/
def sendRapsCb (r : Ring UInt64) : Ring UInt64 × Option (List UInt8) :=
  if !r.tx.isSendingRaps then (r, none)
  else
    let r := if r.tx.rapsBurstsRemain > 0 then
        { r with tx := { r.tx with rapsBurstsRemain := r.tx.rapsBurstsRemain - 1 } }
      else r
    (r, some r.tx.rapsFrame)

/-! ## The node as a transition system -/

/-- What the event loop of `ringd` runs. -/
inductive Event
  | command (c : Command)
  | timer
  | frame (data : List UInt8) (port : PortId)

/-- One callback, at the tick it reads from the clock. -/
structure Input where
  now : UInt64
  event : Event

def handle (host : ByteOrder) (r : Ring UInt64) (i : Input) : Option (Ring UInt64) :=
  match i.event with
  | .command c => rioClient r i.now c
  | .timer => ringTimer r i.now
  | .frame data port => (portCb host r i.now data port).map Prod.fst

/-- How `ringd` is configured: never both roles, and an RPL port exactly under one of them. -/
structure Role where
  rplPort : Option PortId
  isRplOwner : Bool
  isRplNeighbour : Bool
  rplPort_isSome : rplPort.isSome = (isRplOwner || isRplNeighbour)
  not_both : (isRplOwner && isRplNeighbour) = false

/-- A node as `ring_create` leaves it. -/
def Created (r : Ring UInt64) : Prop :=
  ∃ now nodeId, ∃ role : Role,
    ringCreate now role.rplPort role.isRplOwner role.isRplNeighbour nodeId = some r

/-- **The simulator node**: it is created, and takes any callback at any time. -/
def node (host : ByteOrder) : Lts (Ring UInt64) Input := .ofStep Created (handle host)

/-! ## What a callback does -/

theorem blank_ringBlank (role : Role) (nodeId : NodeId) :
    Blank (ringBlank role.rplPort role.isRplOwner role.isRplNeighbour nodeId) where
  state := rfl
  localRequest := rfl
  prev_request := rfl
  prev_port := rfl
  port p := by cases p <;> rfl
  rplSet := role.rplPort_isSome

/-- The ring a node of this role starts from. -/
def started (now : UInt64) (role : Role) (nodeId : NodeId) : Ring UInt64 :=
  (ringBlank role.rplPort role.isRplOwner role.isRplNeighbour nodeId).started now

theorem ringCreate_eq (now : UInt64) (role : Role) (nodeId : NodeId) :
    ringCreate now role.rplPort role.isRplOwner role.isRplNeighbour nodeId =
      some (started now role nodeId) := by
  unfold ringCreate ringFsm
  rw [if_neg (by simp [Ring.isImpossibleDupe]), if_neg (by simp [Ring.isDupe])]
  exact congrArg some (Ring.fsmRow_of_blank (blank_ringBlank role nodeId) now)

theorem Created.exists_started {r : Ring UInt64} (h : Created r) :
    ∃ now nodeId role, r = started now role nodeId := by
  obtain ⟨now, nodeId, role, h⟩ := h
  rw [ringCreate_eq, Option.some.injEq] at h
  exact ⟨now, nodeId, role, h.symm⟩

/-- A call of `ring_process_request` that the process survives drops the request, swallows it or
takes its row. -/
theorem processed_of_rplSet {r r' : Ring UInt64} (hinit : r.state ≠ .init) (hrpl : r.cfg.RplSet)
    {now : UInt64} {q : Request}
    (h : ringProcessRequest r now q.request q.port q.remoteNodeId = some r') :
    Processed r now q.request q.port q.remoteNodeId r' := by
  unfold ringProcessRequest at h
  rw [Ring.filterRequest_eq] at h
  cases ha : r.accepts q.request with
  | false =>
    rw [ha, if_neg (by simp)] at h
    cases h
    exact .dropped ha
  | true =>
    rw [ha, if_pos rfl] at h
    -- de-duplication reads the previous request, not the retained one
    change ringFsm { r with localRequest := q.request.retained } now q.request q.port
      q.remoteNodeId = some r' at h
    unfold ringFsm at h
    split at h
    · cases h
    · rename_i hi
      split at h
      · rename_i hd
        cases h
        exact .dupe ha (.inl hd)
      · rename_i hd
        have hrow : ({ r with localRequest := q.request.retained }.saveRequest q.request q.port
            q.remoteNodeId).fsmRow now q.request q.port q.remoteNodeId =
              r.advance now q.request q.port q.remoteNodeId :=
          r.fsmRow_recorded now hinit q.port_isSome hrpl
        rw [hrow, Option.some.injEq] at h
        rw [← h]
        exact .row ⟨ha, Bool.eq_false_iff.mpr hd, Bool.eq_false_iff.mpr hi⟩

theorem processed {r r' : Ring UInt64} (hc : Coherent r) {now : UInt64} {q : Request}
    (h : ringProcessRequest r now q.request q.port q.remoteNodeId = some r') :
    Processed r now q.request q.port q.remoteNodeId r' :=
  processed_of_rplSet hc.not_init hc.rplSet h

/-- A request brings the process down if it is accepted and an impossible duplicate. -/
theorem ringProcessRequest_eq_none_iff (r : Ring UInt64) (now : UInt64) (request : RingRequest)
    (port : Option PortId) (remote : Option NodeId) :
    ringProcessRequest r now request port remote = none ↔
      r.accepts request = true ∧ r.isImpossibleDupe request = true := by
  unfold ringProcessRequest
  rw [Ring.filterRequest_eq]
  cases ha : r.accepts request with
  | false => simp
  | true =>
    rw [if_pos rfl]
    show ringFsm { r with localRequest := request.retained } now request port remote = none ↔ _
    have himp : Ring.isImpossibleDupe { r with localRequest := request.retained } request =
        r.isImpossibleDupe request := rfl
    unfold ringFsm
    rw [himp]
    cases r.isImpossibleDupe request with
    | true => simp
    | false =>
      simp only [Bool.false_eq_true, if_false, and_false, iff_false]
      split <;> exact Option.some_ne_none _

/-- What a callback changes before it hands over a request, the guard timer apart. -/
def Event.prepare (r : Ring UInt64) : Event → Ring UInt64
  | .command (.fail p) => r.setFailed p true
  | .command (.recover p) => r.setFailed p false
  | _ => r

/-- The request a callback hands over, if any. -/
def Input.request (host : ByteOrder) (r : Ring UInt64) (i : Input) : Option Request :=
  match i.event with
  | .command .status => none
  | .command .clear => some (.bare .clear rfl rfl)
  | .command (.ms p) => some (.onPort .ms p rfl)
  | .command (.fs p) => some (.onPort .fs p rfl)
  | .command (.fail p) => some (.onPort .sf p rfl)
  | .command (.recover p) => some (.onPort .clearSf p rfl)
  | .timer =>
    if r.timers.wtr.active &&
        decide (tickDiffMsec i.now r.timers.wtr.activeSince ≥ wtrTimer * 1000) then
      some (.bare .wtrExpires rfl rfl)
    else none
  | .frame data port =>
    if isRapsFrame data && !isLocalRapsFrame host data r.cfg.nodeId &&
        !(r.timers.guard.active &&
          decide (tickDiffMsec i.now r.timers.guard.activeSince < 500)) then
      (rapsParse host data).bind fun raps =>
        raps.ringRequest.map fun request => .fromNode request port raps.nodeId
    else none

/-- The ring, with other timers. -/
def withTimers (r : Ring UInt64) (t : Timers UInt64) : Ring UInt64 := { r with timers := t }

@[simp] theorem withTimers_state (r : Ring UInt64) (t : Timers UInt64) :
    (withTimers r t).state = r.state := rfl

@[simp] theorem withTimers_port (r : Ring UInt64) (t : Timers UInt64) (p : PortId) :
    (withTimers r t).port p = r.port p := by
  cases p <;> rfl

/-- No row reads a timer. -/
theorem effect_withTimers (r : Ring UInt64) (t : Timers UInt64) (req : RingRequest)
    (port : Option PortId) (remote : Option NodeId) :
    (withTimers r t).effect req port remote = r.effect req port remote := by
  cases req <;> rfl

theorem advance_withTimers (r : Ring UInt64) (t : Timers UInt64) (now : UInt64) (q : Request) :
    ∃ t', (withTimers r t).advance now q.request q.port q.remoteNodeId =
        withTimers (r.advance now q.request q.port q.remoteNodeId) t' ∧
      (t.wtr = r.timers.wtr →
        t'.wtr = (r.advance now q.request q.port q.remoteNodeId).timers.wtr) := by
  refine ⟨((withTimers r t).advance now q.request q.port q.remoteNodeId).timers, ?_, ?_⟩
  · have he := effect_withTimers r t q.request q.port q.remoteNodeId
    unfold Ring.advance
    rw [he]
    cases (r.effect q.request q.port q.remoteNodeId).ports <;> rfl
  · intro hw
    have he := effect_withTimers r t q.request q.port q.remoteNodeId
    unfold Ring.advance
    rw [he]
    exact congrArg ((r.effect q.request q.port q.remoteNodeId).wtr.apply now) hw

theorem alike_withTimers (r : Ring UInt64) (t : Timers UInt64) : r.Alike (withTimers r t) :=
  ⟨rfl, rfl, rfl, rfl, rfl, fun p => by simp⟩

/-- Noting a failure touches nothing the state machine decides on. -/
theorem alike_setFailed (r : Ring UInt64) (p : PortId) (failed : Bool) :
    r.Alike (r.setFailed p failed) := by
  cases p <;> exact ⟨rfl, rfl, rfl, rfl, rfl, fun q => by cases q <;> rfl⟩

theorem alike_prepare (r : Ring UInt64) (e : Event) : r.Alike (e.prepare r) := by
  cases e with
  | timer | frame => exact ⟨rfl, rfl, rfl, rfl, rfl, fun _ => rfl⟩
  | command c =>
    cases c with
    | status | clear | ms | fs => exact ⟨rfl, rfl, rfl, rfl, rfl, fun _ => rfl⟩
    | fail p => exact alike_setFailed r p true
    | recover p => exact alike_setFailed r p false

theorem prepare_tx (r : Ring UInt64) (e : Event) : (e.prepare r).tx = r.tx := by
  cases e with
  | timer | frame => rfl
  | command c =>
    cases c with
    | status | clear | ms | fs => rfl
    | fail p | recover p => cases p <;> rfl

theorem prepare_wtr (r : Ring UInt64) (e : Event) : (e.prepare r).timers.wtr = r.timers.wtr := by
  cases e with
  | timer | frame => rfl
  | command c =>
    cases c with
    | status | clear | ms | fs => rfl
    | fail p | recover p => cases p <;> rfl

/-- Shorthand: the state machine takes `q`. -/
def Takes (r : Ring UInt64) (q : Request) : Prop := r.Takes q.request q.port q.remoteNodeId

/-- Shorthand: the row of `q`. -/
def advance (r : Ring UInt64) (now : UInt64) (q : Request) : Ring UInt64 :=
  r.advance now q.request q.port q.remoteNodeId

/-- What `ring_process_request` makes of a ring whose guard timer may have been touched. -/
theorem request_cases {r r' : Ring UInt64} (hc : Coherent r) {t : Timers UInt64}
    (hw : t.wtr = r.timers.wtr) {now : UInt64} {q : Request}
    (h : ringProcessRequest (withTimers r t) now q.request q.port q.remoteNodeId = some r') :
    (¬ Takes r q ∧ r' = withTimers r t) ∨
      (Takes r q ∧ ∃ t', r' = withTimers (advance r now q) t' ∧
        t'.wtr = (advance r now q).timers.wtr) := by
  rcases (hc.congr (alike_withTimers r t)).processed_cases (processed (hc.congr (alike_withTimers r t)) h) with
    ⟨hn, heq⟩ | ⟨ht, heq⟩
  · exact .inl ⟨fun ht => hn ⟨ht.accepts, ht.not_dupe, ht.not_impossible⟩, heq⟩
  · obtain ⟨t', ht', hw'⟩ := advance_withTimers r t now q
    exact .inr ⟨⟨ht.accepts, ht.not_dupe, ht.not_impossible⟩, t', heq.trans ht', hw' hw⟩

/-- **The outcome of a callback**, up to the timers: nothing is taken, or one request is and takes
its row. A WTR timer that runs afterwards ran before, or was started by the row. -/
inductive Outcome (host : ByteOrder) (r : Ring UInt64) (i : Input) : Ring UInt64 → Prop
  | still {t : Timers UInt64} (hq : ∀ q, i.request host r = some q → ¬ Takes (i.event.prepare r) q)
      (hw : t.wtr.active = true → r.timers.wtr.active = true) :
      Outcome host r i (withTimers (i.event.prepare r) t)
  | taken {t : Timers UInt64} {q : Request} (hq : i.request host r = some q)
      (ht : Takes (i.event.prepare r) q)
      (hw : t.wtr.active = true →
        (advance (i.event.prepare r) i.now q).timers.wtr.active = true) :
      Outcome host r i (withTimers (advance (i.event.prepare r) i.now q) t)

/-- A command hands over the request it stands for. -/
theorem outcome_of_command {host : ByteOrder} {r r' : Ring UInt64} (hc : Coherent r) {i : Input}
    {q : Request} (hq : i.request host r = some q)
    (h : ringProcessRequest (i.event.prepare r) i.now q.request q.port q.remoteNodeId = some r') :
    Outcome host r i r' := by
  have hself : i.event.prepare r = withTimers (i.event.prepare r) (i.event.prepare r).timers := rfl
  rw [hself] at h
  rcases request_cases (hc.congr (alike_prepare r i.event)) rfl h with ⟨hn, rfl⟩ | ⟨ht, t', rfl, hw'⟩
  · refine .still ?_ ?_
    · intro q' hq'
      rw [hq, Option.some.injEq] at hq'
      rw [← hq']
      exact hn
    · rw [prepare_wtr]
      exact id
  · exact .taken hq ht (by rw [hw']; exact id)

/-- The guard timer is off once a frame has got past it. -/
theorem guard_passed (r : Ring UInt64) :
    ∃ t, (if r.timers.guard.active then r.stopGuardTimer else r) = withTimers r t ∧
      t.wtr = r.timers.wtr := by
  cases r.timers.guard.active
  · exact ⟨r.timers, rfl, rfl⟩
  · exact ⟨r.stopGuardTimer.timers, rfl, rfl⟩

/-- A callback that hands over nothing moves at most the guard timer. -/
theorem outcome_of_no_request {host : ByteOrder} {r : Ring UInt64} {i : Input}
    {t : Timers UInt64} (hq : i.request host r = none) (hw : t.wtr = r.timers.wtr) :
    Outcome host r i (withTimers (i.event.prepare r) t) := by
  refine .still ?_ (by rw [hw]; exact id)
  intro q hq'
  rw [hq] at hq'
  cases hq'

theorem outcome_of_timer {host : ByteOrder} {r r' : Ring UInt64} (hc : Coherent r) {now : UInt64}
    (h : ringTimer r now = some r') : Outcome host r ⟨now, .timer⟩ r' := by
  have hstill : Input.request host r ⟨now, .timer⟩ = none → Outcome host r ⟨now, .timer⟩ r :=
    fun hq => outcome_of_no_request (t := r.timers) hq rfl
  unfold ringTimer at h
  by_cases ha : r.timers.wtr.active = true
  · rw [if_pos ha] at h
    by_cases hx : tickDiffMsec now r.timers.wtr.activeSince ≥ wtrTimer * 1000
    · rw [if_pos hx] at h
      obtain ⟨r₁, h₁, rfl⟩ := Option.map_eq_some_iff.mp h
      have hq : Input.request host r ⟨now, .timer⟩ = some (.bare .wtrExpires rfl rfl) := by
        simp [Input.request, ha, hx]
      have h₁' : ringProcessRequest (withTimers r r.timers) now .wtrExpires none none = some r₁ := h₁
      rcases request_cases (q := .bare .wtrExpires rfl rfl) hc rfl h₁' with
        ⟨hn, rfl⟩ | ⟨ht, t', rfl, _⟩
      · refine .still (t := r.stopWtrTimer.timers) ?_ (fun hw => by cases hw)
        intro q hq'
        rw [hq, Option.some.injEq] at hq'
        rw [← hq']
        exact hn
      · exact .taken (t := { t' with wtr := { t'.wtr with active := false } }) hq ht
          (fun hw => by cases hw)
    · rw [if_neg hx, Option.some.injEq] at h
      exact h ▸ hstill (by simp [Input.request, ha, hx])
  · rw [if_neg ha, Option.some.injEq] at h
    exact h ▸ hstill (by simp [Input.request, ha])

/-- `ring_process_raps` on a frame the classifiers of `port_cb` have let through. -/
theorem outcome_of_raps {host : ByteOrder} {r r' : Ring UInt64} (hc : Coherent r) {now : UInt64}
    {data : List UInt8} {port : PortId} (hf : isRapsFrame data = true)
    (hl : isLocalRapsFrame host data r.cfg.nodeId = false)
    (h : ringProcessRaps host r now data port = some r') :
    Outcome host r ⟨now, .frame data port⟩ r' := by
  simp only [ringProcessRaps] at h
  cases hg : r.timers.guard.active &&
      decide (tickDiffMsec now r.timers.guard.activeSince < 500) with
  | true =>
    rw [hg, if_pos rfl, Option.some.injEq] at h
    have hq : Input.request host r ⟨now, .frame data port⟩ = none := by
      simp only [Input.request, hg]
      simp
    exact h ▸ outcome_of_no_request (t := r.timers) hq rfl
  | false =>
    rw [hg, if_neg (by simp)] at h
    obtain ⟨t, ht, hw⟩ := guard_passed r
    rw [ht] at h
    have hq : Input.request host r ⟨now, .frame data port⟩ =
        (rapsParse host data).bind fun raps =>
          raps.ringRequest.map fun request => .fromNode request port raps.nodeId := by
      simp only [Input.request, hf, hl, hg]
      simp
    cases hp : rapsParse host data with
    | none =>
      rw [hp, Option.bind_none] at hq
      simp only [hp, Option.some.injEq] at h
      exact h ▸ outcome_of_no_request hq hw
    | some raps =>
      rw [hp, Option.bind_some] at hq
      simp only [hp] at h
      cases hreq : raps.ringRequest with
      | none =>
        rw [hreq, Option.map_none] at hq
        simp only [hreq, Option.some.injEq] at h
        exact h ▸ outcome_of_no_request hq hw
      | some request =>
        rw [hreq, Option.map_some] at hq
        simp only [hreq] at h
        rcases request_cases (q := .fromNode request port raps.nodeId) hc hw h with
          ⟨hn, rfl⟩ | ⟨htk, t', rfl, hw'⟩
        · refine .still ?_ (by rw [hw]; exact id)
          intro q hq'
          rw [hq, Option.some.injEq] at hq'
          rw [← hq']
          exact hn
        · exact .taken hq htk (by rw [hw']; exact id)

theorem outcome_of_frame {host : ByteOrder} {r r' : Ring UInt64} (hc : Coherent r) {now : UInt64}
    {data : List UInt8} {port : PortId}
    (h : (portCb host r now data port).map Prod.fst = some r') :
    Outcome host r ⟨now, .frame data port⟩ r' := by
  unfold portCb at h
  cases hf : isRapsFrame data with
  | false =>
    rw [hf, if_neg (by simp), Option.map_some, Option.some.injEq] at h
    exact h ▸ outcome_of_no_request (t := r.timers) (by simp [Input.request, hf]) rfl
  | true =>
    rw [hf, if_pos rfl] at h
    cases hl : isLocalRapsFrame host data r.cfg.nodeId with
    | true =>
      rw [hl, if_pos rfl, Option.map_some, Option.some.injEq] at h
      exact h ▸ outcome_of_no_request (t := r.timers) (by simp [Input.request, hl]) rfl
    | false =>
      rw [hl, if_neg (by simp), Option.map_map] at h
      obtain ⟨r₁, h₁, rfl⟩ := Option.map_eq_some_iff.mp h
      exact outcome_of_raps hc hf hl h₁

/-- **Every callback has one of the two outcomes.** -/
theorem handle_outcome {host : ByteOrder} {r r' : Ring UInt64} (hc : Coherent r) {i : Input}
    (h : handle host r i = some r') : Outcome host r i r' := by
  obtain ⟨now, e⟩ := i
  cases e with
  | timer => exact outcome_of_timer hc h
  | frame data port => exact outcome_of_frame hc h
  | command c =>
    cases c with
    | status =>
      have hs : Outcome host r ⟨now, .command .status⟩ (withTimers r r.timers) :=
        .still (fun q hq => by cases hq) id
      cases h
      exact hs
    | clear => exact outcome_of_command hc (q := .bare .clear rfl rfl) rfl h
    | ms p => exact outcome_of_command hc (q := .onPort .ms p rfl) rfl h
    | fs p => exact outcome_of_command hc (q := .onPort .fs p rfl) rfl h
    | fail p => exact outcome_of_command hc (q := .onPort .sf p rfl) rfl h
    | recover p => exact outcome_of_command hc (q := .onPort .clearSf p rfl) rfl h

theorem Outcome.coherent {host : ByteOrder} {r r' : Ring UInt64} (hc : Coherent r) {i : Input}
    (h : Outcome host r i r') : Coherent r' := by
  cases h with
  | still => exact (hc.congr (alike_prepare r i.event)).congr (alike_withTimers _ _)
  | taken => exact (hc.congr (alike_prepare r i.event)).advance.congr (alike_withTimers _ _)

theorem Outcome.cfg {host : ByteOrder} {r r' : Ring UInt64} {i : Input}
    (h : Outcome host r i r') : r'.cfg = r.cfg := by
  cases h with
  | still => exact (alike_prepare r i.event).cfg
  | taken => exact (alike_prepare r i.event).cfg

/-- `send_raps_cb` counts bursts and touches nothing else. -/
theorem sendRapsCb_eq (r : Ring UInt64) :
    ∃ n, (sendRapsCb r).1 = { r with tx := { r.tx with rapsBurstsRemain := n } } := by
  unfold sendRapsCb
  split
  · exact ⟨r.tx.rapsBurstsRemain, rfl⟩
  · dsimp only
    split
    · exact ⟨r.tx.rapsBurstsRemain - 1, rfl⟩
    · exact ⟨r.tx.rapsBurstsRemain, rfl⟩

theorem alike_sendRapsCb (r : Ring UInt64) : r.Alike (sendRapsCb r).1 := by
  obtain ⟨n, hn⟩ := sendRapsCb_eq r
  rw [hn]
  exact ⟨rfl, rfl, rfl, rfl, rfl, fun p => by cases p <;> rfl⟩

theorem Created.coherent {r : Ring UInt64} (h : Created r) : Coherent r := by
  obtain ⟨now, nodeId, role, rfl⟩ := h.exists_started
  exact Coherent.started (blank_ringBlank role nodeId) now

end Sim

end Erps
