import Erps.Lib.Lts
import Erps.Ring.Start

/-!
# The kernel node: `er_ring.c`

`ring_fsm` and `ring_process_request` of the kernel module, and `er_ring_create`. The kernel cannot
`die`: an impossible duplicate is logged and forgotten, so every request has a result. A tick is the
`int` of `<sys/kernel.h>`.

The module ends with the node as a transition system (`requests`) whose labels are the calls of
`ring_process_request`, and with the invariants every call keeps.
-/

set_option autoImplicit false

namespace Erps.Kernel

/-- `ring_fsm`. -/
def ringFsm (r : Ring Int32) (now : Int32) (req : RingRequest) (port : Option PortId)
    (remote : Option NodeId) : Ring Int32 :=
  -- "impossible duplicit request received!"
  if r.isImpossibleDupe req then r
  -- "same request ignored"
  else if r.isDupe req port remote then r
  else (r.saveRequest req port remote).fsmRow now req port remote

/-- `ring_process_request`. -/
def ringProcessRequest (r : Ring Int32) (now : Int32) (request : RingRequest)
    (port : Option PortId) (remote : Option NodeId) : Ring Int32 :=
  match r.filterRequest request with
  | .drop r => r
  | .pass r => ringFsm r now request port remote

/-! ## Creating a ring -/

/-- `ERPS_RPL_NONE`. -/
def erpsRplNone : UInt8 := 0

/-- `rpl == ERPS_RPL_PORT0 ? ret->port0 : ret->port1`. -/
def rplPortOf (rpl : UInt8) : PortId := if rpl = 1 then .port0 else .port1

/-- The ring `er_ring_create` has filled in when it calls `ring_fsm`. What it does not assign is the
zero of `M_ZERO`, `version`, the timers and `node_id` among it: the parameter of that name is never
read. -/
def ringBlank (ringId : UInt16) (rplOwner rplNeighbour : UInt8) : Ring Int32 :=
  let rplPort := none
  let rplPort := if rplOwner ≠ erpsRplNone then some (rplPortOf rplOwner) else rplPort
  let rplPort := if rplNeighbour ≠ erpsRplNone then some (rplPortOf rplNeighbour) else rplPort
  let cfg : Config :=
    { isRplOwner := decide (rplOwner ≠ erpsRplNone)
      isRplNeighbour := decide (rplNeighbour ≠ erpsRplNone)
      isRevertive := false
      rplPort := rplPort
      version := 0
      ringId := ringId.toNat
      rapsVid := 4093
      nodeId := .zero }
  { port0 := { isBlocked := false, isFailed := false }
    port1 := { isBlocked := false, isFailed := false }
    cfg := cfg
    timers :=
      { guard := { active := false, activeSince := 0 }
        wtr := { active := false, activeSince := 0 }
        wtb := { active := false, activeSince := 0 } }
    localRequest := .invalid
    state := .init
    prev := { request := .invalid, port := none, remoteNodeId := .zero }
    tx :=
      { isSendingRaps := false
        raps :=
          { ringId := ringId.toUInt8
            vid := 4093
            version := 0
            flags := 0xff
            request := .nr
            subcode := 0
            nodeId := .zero }
        rapsFrame := List.replicate 55 0
        rapsFrameLen := rapsGetLen
        rapsBurstsRemain := 0 } }

/-- `er_ring_create`, where every allocation and every port succeeds. -/
def erRingCreate (now : Int32) (ringId : UInt16) (rplOwner rplNeighbour : UInt8) : Ring Int32 :=
  ringFsm (ringBlank ringId rplOwner rplNeighbour) now .invalid none none

/-- The fields of the configuration the caller of `er_ring_create` writes afterwards. -/
def configure (r : Ring Int32) (version : UInt8) (rapsVid : Nat) (isRevertive : Bool) :
    Ring Int32 :=
  { r with cfg := { r.cfg with version := version, rapsVid := rapsVid, isRevertive := isRevertive } }

/-! ## The two functions, as one relation -/

theorem blank_ringBlank (ringId : UInt16) (rplOwner rplNeighbour : UInt8) :
    Blank (ringBlank ringId rplOwner rplNeighbour) where
  state := rfl
  localRequest := rfl
  prev_request := rfl
  prev_port := rfl
  port p := by cases p <;> rfl
  rplSet := by
    unfold Config.RplSet ringBlank
    by_cases ho : rplOwner = erpsRplNone <;> by_cases hn : rplNeighbour = erpsRplNone <;>
      simp [ho, hn]

theorem erRingCreate_eq (now : Int32) (ringId : UInt16) (rplOwner rplNeighbour : UInt8) :
    erRingCreate now ringId rplOwner rplNeighbour =
      (ringBlank ringId rplOwner rplNeighbour).started now := by
  unfold erRingCreate ringFsm
  rw [if_neg (by simp [Ring.isImpossibleDupe]), if_neg (by simp [Ring.isDupe])]
  exact Ring.fsmRow_of_blank (blank_ringBlank ringId rplOwner rplNeighbour) now

/-- One call of `ring_process_request` drops the request, swallows it or takes its row. -/
theorem processed_of_rplSet {r : Ring Int32} (hinit : r.state ≠ .init) (hrpl : r.cfg.RplSet)
    (now : Int32) (q : Request) :
    Processed r now q.request q.port q.remoteNodeId
      (ringProcessRequest r now q.request q.port q.remoteNodeId) := by
  unfold ringProcessRequest
  rw [Ring.filterRequest_eq]
  cases ha : r.accepts q.request with
  | false => exact .dropped ha
  | true =>
    rw [if_pos rfl]
    -- de-duplication reads the previous request, not the retained one
    show Processed r now q.request q.port q.remoteNodeId
      (ringFsm { r with localRequest := q.request.retained } now q.request q.port q.remoteNodeId)
    unfold ringFsm
    split
    · rename_i hi
      exact .dupe ha (.inr hi)
    · rename_i hi
      split
      · rename_i hd
        exact .dupe ha (.inl hd)
      · rename_i hd
        have hrow : ({ r with localRequest := q.request.retained }.saveRequest q.request q.port
            q.remoteNodeId).fsmRow now q.request q.port q.remoteNodeId =
              r.advance now q.request q.port q.remoteNodeId :=
          r.fsmRow_recorded now hinit q.port_isSome hrpl
        rw [hrow]
        exact .row ⟨ha, Bool.eq_false_iff.mpr hd, Bool.eq_false_iff.mpr hi⟩

theorem processed {r : Ring Int32} (hc : Coherent r) (now : Int32) (q : Request) :
    Processed r now q.request q.port q.remoteNodeId
      (ringProcessRequest r now q.request q.port q.remoteNodeId) :=
  processed_of_rplSet hc.not_init hc.rplSet now q

/-! ## The node as a transition system -/

/-- One call of `ring_process_request`: a request and the tick it is processed at. -/
structure Call where
  now : Int32
  req : Request

/-- The ring after a call. -/
def handle (r : Ring Int32) (c : Call) : Ring Int32 :=
  ringProcessRequest r c.now c.req.request c.req.port c.req.remoteNodeId

/-- **The kernel node.** It starts as `er_ring_create` leaves it, with any configuration written over
it, and takes any call in any order. -/
def requests : Lts (Ring Int32) Call where
  init r := ∃ now ringId rplOwner rplNeighbour version rapsVid isRevertive,
    r = configure (erRingCreate now ringId rplOwner rplNeighbour) version rapsVid isRevertive
  step r c r' := r' = handle r c

/-- The filter accepts the request of the call. -/
def Call.Accepted (r : Ring Int32) (c : Call) (request : RingRequest) : Prop :=
  c.req.request = request ∧ r.accepts request = true

/-- **The node's invariant.** -/
structure Sound (r : Ring Int32) : Prop where
  coherent : Coherent r
  dominant : Dominant r

/-- A call leaves the ring as it is, or its request is accepted and takes its row. -/
theorem handle_cases {r : Ring Int32} (hc : Coherent r) (c : Call) :
    handle r c = r ∨ (r.accepts c.req.request = true ∧
      handle r c = r.advance c.now c.req.request c.req.port c.req.remoteNodeId) := by
  rcases hc.processed_cases (processed hc c.now c.req) with ⟨_, heq⟩ | ⟨ht, heq⟩
  · exact .inl heq
  · exact .inr ⟨ht.accepts, heq⟩

theorem Sound.init {r : Ring Int32} (h : requests.init r) : Sound r := by
  obtain ⟨now, ringId, rplOwner, rplNeighbour, version, rapsVid, isRevertive, rfl⟩ := h
  rw [erRingCreate_eq]
  have hb := blank_ringBlank ringId rplOwner rplNeighbour
  have hc := Coherent.started hb now
  have hd := Dominant.started hb now
  -- neither invariant reads a field that is written afterwards
  exact ⟨⟨hc.not_init, hc.rplSet, hc.retained⟩,
    ⟨fun h => absurd h (by simp [configure, hb.localRequest]),
      fun h => absurd h (by simp [configure, hb.localRequest]),
      hd.sends_fs, hd.sends_sf, hd.forced_open, hd.not_both⟩⟩

theorem Sound.handle {r : Ring Int32} (h : Sound r) (c : Call) : Sound (handle r c) := by
  have hp := processed h.coherent c.now c.req
  exact ⟨h.coherent.processed hp, h.dominant.processed h.coherent hp c.req.port_isSome⟩

theorem Sound.of_reachable {r : Ring Int32} (h : requests.Reachable r) : Sound r :=
  h.invariant (I := Sound) (fun _ => Sound.init) fun _ c _ _ hs hst => hst ▸ hs.handle c

end Erps.Kernel
