import Erps.Raps

/-!
# The ring record

`struct ring` of the simulator (`ring.h`) and the part of `struct er_ring` of the kernel module
(`er_ring.h`) that the two share: everything the state machine reads and writes. The fields follow
the comment groups of the struct. The tick type `τ` is a parameter, because the simulator counts
64-bit milliseconds and the kernel counts 32-bit ticks.

A `struct ring_port *` that is one of the ring's two ports is a `PortId`; where the source may also
hold a null pointer it is an `Option PortId`.
-/

set_option autoImplicit false

namespace Erps

/-- `enum ring_state`, table 10-2. -/
inductive RingState
  | init
  | idle
  | protection
  | manualSwitch
  | forcedSwitch
  | pending
  deriving DecidableEq, Repr

/-- `enum ring_request`, table 10-1. The order of the enumerators is the order of priority. -/
inductive RingRequest
  | invalid
  | rapsNr
  | rapsNrRb
  | wtbRunning
  | wtbExpires
  | wtrRunning
  | wtrExpires
  | ms
  | rapsMs
  | rapsSf
  | clearSf
  | sf
  | rapsFs
  | fs
  | clear
  deriving DecidableEq, Repr

/-- The value of the enumerator. -/
def RingRequest.code : RingRequest → Nat
  | .invalid => 0
  | .rapsNr => 1
  | .rapsNrRb => 2
  | .wtbRunning => 3
  | .wtbExpires => 4
  | .wtrRunning => 5
  | .wtrExpires => 6
  | .ms => 7
  | .rapsMs => 8
  | .rapsSf => 9
  | .clearSf => 10
  | .sf => 11
  | .rapsFs => 12
  | .fs => 13
  | .clear => 14

/-- The requests that come in an R-APS message and carry the sender's node id. -/
def RingRequest.isRaps : RingRequest → Bool
  | .rapsNr | .rapsNrRb | .rapsMs | .rapsSf | .rapsFs => true
  | _ => false

/-- The local requests that name one of the ring's ports. -/
def RingRequest.namesPort : RingRequest → Bool
  | .ms | .sf | .fs | .clearSf => true
  | _ => false

/-- One of the two port pointers of a ring, `port0` or `port1`. -/
inductive PortId
  | port0
  | port1
  deriving DecidableEq, Repr

/-- `ring_other_port` / `er_ring_other_port`: a comparison with `port1`, so the other port of a
null pointer is `port1`. -/
def ringOtherPort (port : Option PortId) : PortId :=
  if port = some .port1 then .port0 else .port1

/-- The part of `struct ring_port` / `struct er_port` the state machine uses. -/
structure Port where
  isBlocked : Bool
  isFailed : Bool
  deriving DecidableEq, Repr

/-- Ring configuration. -/
structure Config where
  isRplOwner : Bool
  isRplNeighbour : Bool
  isRevertive : Bool
  rplPort : Option PortId
  version : UInt8
  ringId : Nat
  rapsVid : Nat
  nodeId : NodeId
  deriving DecidableEq, Repr

/-- One timer: the flag and the tick it was set at. -/
structure Timer (τ : Type) where
  active : Bool
  activeSince : τ
  deriving DecidableEq, Repr

structure Timers (τ : Type) where
  guard : Timer τ
  wtr : Timer τ
  wtb : Timer τ
  deriving DecidableEq, Repr

/-- FSM request de-duplication: the previous request and its parameters. -/
structure PrevRequest where
  request : RingRequest
  port : Option PortId
  remoteNodeId : NodeId
  deriving DecidableEq, Repr

/-- R-APS message transmission. `rapsFrame` is the frame buffer, `raps` the message it was last
encoded from. -/
structure Transmission where
  isSendingRaps : Bool
  raps : Raps
  rapsFrame : List UInt8
  rapsFrameLen : Nat
  rapsBurstsRemain : Nat
  deriving DecidableEq, Repr

/-- What is transmitted at the moment: the request and the flags, or nothing. -/
def Transmission.sending (tx : Transmission) : Option (RapsRequest × UInt8) :=
  if tx.isSendingRaps then some (tx.raps.request, tx.raps.flags) else none

structure Ring (τ : Type) where
  port0 : Port
  port1 : Port
  cfg : Config
  timers : Timers τ
  /-- top priority local request: FS, MS or SF -/
  localRequest : RingRequest
  state : RingState
  prev : PrevRequest
  tx : Transmission
  deriving DecidableEq, Repr

/-! ## Ports -/

/-- The port that is not `p`. -/
def PortId.other : PortId → PortId
  | .port0 => .port1
  | .port1 => .port0

@[simp] theorem ringOtherPort_some (p : PortId) : ringOtherPort (some p) = p.other := by
  cases p <;> rfl

@[simp] theorem PortId.other_other (p : PortId) : p.other.other = p := by
  cases p <;> rfl

theorem PortId.other_ne (p : PortId) : p.other ≠ p := by
  cases p <;> simp [PortId.other]

theorem PortId.eq_or_eq_other (p q : PortId) : q = p ∨ q = p.other := by
  cases p <;> cases q <;> simp [PortId.other]

namespace Ring

variable {τ : Type}

def port (r : Ring τ) : PortId → Port
  | .port0 => r.port0
  | .port1 => r.port1

/-- What the node transmits at the moment. -/
def sending (r : Ring τ) : Option (RapsRequest × UInt8) := r.tx.sending

/-- The node is transmitting R-APS with this request, whatever its flags. -/
def Sends (r : Ring τ) (request : RapsRequest) : Prop := ∃ flags, r.sending = some (request, flags)

/-- The node is transmitting R-APS(NR) with the RB flag. -/
def SendsNrRb (r : Ring τ) : Prop := ∃ flags, r.sending = some (.nr, flags) ∧ hasRb flags = true

/-- The node is transmitting R-APS(NR) without the RB flag. -/
def SendsPlainNr (r : Ring τ) : Prop := ∃ flags, r.sending = some (.nr, flags) ∧ hasRb flags = false

/-- Some ring port is blocked. -/
def HasBlock (r : Ring τ) : Prop := ∃ p, (r.port p).isBlocked = true

/-- Port `p` is blocked and the other one is not. -/
def BlocksOnly (r : Ring τ) (p : PortId) : Prop :=
  (r.port p).isBlocked = true ∧ (r.port p.other).isBlocked = false

/-- Both ring ports are open. -/
def Open (r : Ring τ) : Prop := ∀ p, (r.port p).isBlocked = false

/-- Equal in everything but the timers, the failure flags and the frame buffer. -/
structure Alike (r r' : Ring τ) : Prop where
  state : r'.state = r.state
  cfg : r'.cfg = r.cfg
  localRequest : r'.localRequest = r.localRequest
  prev : r'.prev = r.prev
  sending : r'.sending = r.sending
  blocked : ∀ p, (r'.port p).isBlocked = (r.port p).isBlocked

namespace Alike

variable {r r' : Ring τ}

theorem symm (h : Alike r r') : Alike r' r where
  state := h.state.symm
  cfg := h.cfg.symm
  localRequest := h.localRequest.symm
  prev := h.prev.symm
  sending := h.sending.symm
  blocked p := (h.blocked p).symm

theorem hasBlock_iff (h : Alike r r') : r'.HasBlock ↔ r.HasBlock := by
  unfold HasBlock
  simp only [h.blocked]

theorem blocksOnly_iff (h : Alike r r') (p : PortId) : r'.BlocksOnly p ↔ r.BlocksOnly p := by
  unfold BlocksOnly
  simp only [h.blocked]

theorem open_iff (h : Alike r r') : r'.Open ↔ r.Open := by
  unfold Open
  simp only [h.blocked]

theorem sends_iff (h : Alike r r') (request : RapsRequest) : r'.Sends request ↔ r.Sends request := by
  unfold Sends
  rw [h.sending]

theorem sendsPlainNr_iff (h : Alike r r') : r'.SendsPlainNr ↔ r.SendsPlainNr := by
  unfold SendsPlainNr
  rw [h.sending]

theorem sendsNrRb_iff (h : Alike r r') : r'.SendsNrRb ↔ r.SendsNrRb := by
  unfold SendsNrRb
  rw [h.sending]

end Alike

end Ring

/-- The RPL configuration the callers hand over: a port exactly when the node is RPL owner or RPL
neighbour. -/
def Config.RplSet (c : Config) : Prop :=
  c.rplPort.isSome = (c.isRplOwner || c.isRplNeighbour)

end Erps
