import Erps.Ring.State

/-!
# The state machine of table 10-2

`ring_fsm` of `ring.c`, and word for word of `er_ring.c`: the actions, the 71 rows, and the request
de-duplication in front of them. The two copies differ in one branch, a repeated CLEAR, WTR or WTB
request, so everything up to that branch is shared and `Sim.ringFsm` and `Kernel.ringFsm` are built
from it where their callers are.

`now` is the tick the timer actions store. The `D(..)` lines and `flush_fdb`, which only prints, have
no counterpart.
-/

set_option autoImplicit false

namespace Erps

open Bytes

/-- `start_tx` on the transmission fields: encode and burst only what differs from the last
message. -/
def Transmission.start (tx : Transmission) (request : RapsRequest) (flags : UInt8) :
    Transmission :=
  if tx.raps.request ≠ request ∨ tx.raps.flags ≠ flags then
    let raps := { tx.raps with request := request, flags := flags }
    { tx with
      raps := raps
      rapsFrame := (rapsEncode raps tx.rapsFrame tx.rapsFrameLen).2
      rapsBurstsRemain := 3
      isSendingRaps := true }
  else
    { tx with isSendingRaps := true }

namespace Ring

variable {τ : Type}

/-! ## Actions -/

def startWtrTimer (r : Ring τ) (now : τ) : Ring τ :=
  { r with timers := { r.timers with wtr := { active := true, activeSince := now } } }

def stopWtrTimer (r : Ring τ) : Ring τ :=
  { r with timers := { r.timers with wtr := { r.timers.wtr with active := false } } }

def startWtbTimer (r : Ring τ) (now : τ) : Ring τ :=
  { r with timers := { r.timers with wtb := { active := true, activeSince := now } } }

def stopWtbTimer (r : Ring τ) : Ring τ :=
  { r with timers := { r.timers with wtb := { r.timers.wtb with active := false } } }

def startGuardTimer (r : Ring τ) (now : τ) : Ring τ :=
  { r with timers := { r.timers with guard := { active := true, activeSince := now } } }

def stopGuardTimer (r : Ring τ) : Ring τ :=
  { r with timers := { r.timers with guard := { r.timers.guard with active := false } } }

/-- `block_port`. A null port is never handed over: the requests of rows that block a named port
carry one, and `rpl_port` is read only under a role that has it. -/
def blockPort (r : Ring τ) : Option PortId → Ring τ
  | some .port0 => { r with port0 := { r.port0 with isBlocked := true } }
  | some .port1 => { r with port1 := { r.port1 with isBlocked := true } }
  | none => r

def unblockPort (r : Ring τ) : PortId → Ring τ
  | .port0 => { r with port0 := { r.port0 with isBlocked := false } }
  | .port1 => { r with port1 := { r.port1 with isBlocked := false } }

def isPortBlocked (r : Ring τ) : Option PortId → Bool
  | some p => (r.port p).isBlocked
  | none => false

def unblockNonfailedPorts (r : Ring τ) : Ring τ :=
  let r := if !r.port0.isFailed then r.unblockPort .port0 else r
  if !r.port1.isFailed then r.unblockPort .port1 else r

def startTx (r : Ring τ) (request : RapsRequest) (flags : UInt8) : Ring τ :=
  { r with tx := r.tx.start request flags }

def stopTx (r : Ring τ) : Ring τ :=
  { r with tx := { r.tx with isSendingRaps := false } }

/-- `new_state`, as the end of `ring_fsm` stores it. -/
def enter (r : Ring τ) (state : RingState) : Ring τ := { r with state := state }

/-- The tie-break `memcmp(r->node_id, remote_node_id, 6) < 0`. -/
def isBelow (r : Ring τ) : Option NodeId → Bool
  | some remote => memcmp r.cfg.nodeId.bytes remote.bytes < 0
  | none => false

/-- `if (r->is_rpl_owner) { stop_wtr_timer(r); stop_wtb_timer(r); }` -/
def stopOwnerTimers (r : Ring τ) : Ring τ :=
  if r.cfg.isRplOwner then r.stopWtrTimer.stopWtbTimer else r

/-- The body the FS, SF and MS rows share: block `port`, open the other one, announce `request`,
with DNF where the block was already there. -/
def switchPort (r : Ring τ) (request : RapsRequest) (port : Option PortId) : Ring τ :=
  if r.isPortBlocked port then
    (r.startTx request rapsFlagDnf).unblockPort (ringOtherPort port)
  else
    ((r.blockPort port).startTx request 0).unblockPort (ringOtherPort port)

/-- The body the reversion rows 58, 66 and 68 share: the block goes back to the RPL. -/
def revertRpl (r : Ring τ) : Ring τ :=
  if r.isPortBlocked r.cfg.rplPort then
    (r.startTx .nr (rapsFlagRb ||| rapsFlagDnf)).unblockPort (ringOtherPort r.cfg.rplPort)
  else
    ((r.blockPort r.cfg.rplPort).startTx .nr rapsFlagRb).unblockPort (ringOtherPort r.cfg.rplPort)

/-- The body of rows 30, 36 and 44 under `is_port_blocked(port0) || is_port_blocked(port1)`: a
blocked port is announced, and the RPL owner starts to wait to block. -/
def announceBlock (r : Ring τ) (now : τ) : Ring τ :=
  let r := (r.startGuardTimer now).startTx .nr 0
  if r.cfg.isRplOwner && r.cfg.isRevertive then r.startWtbTimer now else r

/-- Nothing that requests are decided on is a timer. -/
theorem alike_stopGuardTimer (r : Ring τ) : r.Alike r.stopGuardTimer :=
  ⟨rfl, rfl, rfl, rfl, rfl, fun p => by cases p <;> rfl⟩

/-! ## The rows -/

/-- Row 01. -/
def fsmInit (r : Ring τ) (now : τ) : Ring τ :=
  let r := r.stopGuardTimer.stopWtrTimer.stopWtbTimer
  if r.cfg.isRplOwner then
    let r := ((r.blockPort r.cfg.rplPort).unblockPort (ringOtherPort r.cfg.rplPort)).startTx .nr 0
    (if r.cfg.isRevertive then r.startWtrTimer now else r).enter .pending
  else if r.cfg.isRplNeighbour then
    (((r.blockPort r.cfg.rplPort).unblockPort (ringOtherPort r.cfg.rplPort)).startTx .nr 0).enter
      .pending
  else
    (((r.blockPort (some .port0)).unblockPort .port1).startTx .nr 0).enter .pending

/-- Rows 02 to 15. -/
def fsmIdle (r : Ring τ) (req : RingRequest) (port : Option PortId) (remote : Option NodeId) :
    Ring τ :=
  match req with
  | .clear => r                                                               -- row 02
  | .fs => (r.switchPort .fs port).enter .forcedSwitch                        -- row 03
  | .rapsFs =>                                                                -- row 04
    ((r.unblockPort .port0).unblockPort .port1).stopTx.enter .forcedSwitch
  | .sf => (r.switchPort .sf port).enter .protection                          -- row 05
  | .clearSf => r                                                             -- row 06
  | .rapsSf => r.unblockNonfailedPorts.stopTx.enter .protection               -- row 07
  | .rapsMs => r.unblockNonfailedPorts.stopTx.enter .manualSwitch             -- row 08
  | .ms => (r.switchPort .ms port).enter .manualSwitch                        -- row 09
  | .wtrExpires | .wtrRunning | .wtbExpires | .wtbRunning => r                -- rows 10 to 13
  | .rapsNrRb =>                                                              -- row 14
    let r := r.unblockPort (ringOtherPort r.cfg.rplPort)
    if !r.cfg.isRplOwner then r.stopTx else r
  | .rapsNr =>                                                                -- row 15
    if !r.cfg.isRplOwner && !r.cfg.isRplNeighbour && r.isBelow remote then
      r.unblockNonfailedPorts.stopTx
    else r
  | .invalid => r

/-- Rows 16 to 29. -/
def fsmProtection (r : Ring τ) (now : τ) (req : RingRequest) (port : Option PortId) : Ring τ :=
  match req with
  | .clear => r                                                               -- row 16
  | .fs => (r.switchPort .fs port).enter .forcedSwitch                        -- row 17
  | .rapsFs =>                                                                -- row 18
    ((r.unblockPort .port0).unblockPort .port1).stopTx.enter .forcedSwitch
  | .sf => r.switchPort .sf port                                              -- row 19
  | .clearSf =>                                                               -- row 20
    let r := (r.startGuardTimer now).startTx .nr 0
    (if r.cfg.isRplOwner && r.cfg.isRevertive then r.startWtrTimer now else r).enter .pending
  | .rapsSf | .rapsMs | .ms => r                                              -- rows 21 to 23
  | .wtrExpires | .wtrRunning | .wtbExpires | .wtbRunning => r                -- rows 24 to 27
  | .rapsNrRb => r.enter .pending                                             -- row 28
  | .rapsNr =>                                                                -- row 29
    (if r.cfg.isRplOwner && r.cfg.isRevertive then r.startWtrTimer now else r).enter .pending
  | .invalid => r

/-- Rows 30 to 43. -/
def fsmManualSwitch (r : Ring τ) (now : τ) (req : RingRequest) (port : Option PortId) : Ring τ :=
  match req with
  | .clear =>                                                                 -- row 30
    (if r.isPortBlocked (some .port1) || r.isPortBlocked (some .port0) then r.announceBlock now
      else r).enter .pending
  | .fs => (r.switchPort .fs port).enter .forcedSwitch                        -- row 31
  | .rapsFs =>                                                                -- row 32
    ((r.unblockPort .port0).unblockPort .port1).stopTx.enter .forcedSwitch
  | .sf => (r.switchPort .sf port).enter .protection                          -- row 33
  | .clearSf => r                                                             -- row 34
  | .rapsSf => r.unblockNonfailedPorts.stopTx                                 -- row 35
  | .rapsMs =>                                                                -- row 36
    if r.isPortBlocked (some .port0) || r.isPortBlocked (some .port1) then
      (r.announceBlock now).enter .pending
    else r.enter .manualSwitch
  | .ms => r                                                                  -- row 37
  | .wtrExpires | .wtrRunning | .wtbExpires | .wtbRunning => r                -- rows 38 to 41
  | .rapsNrRb => r.enter .pending                                             -- row 42
  | .rapsNr =>                                                                -- row 43
    (if r.cfg.isRplOwner && r.cfg.isRevertive then r.startWtbTimer now else r).enter .pending
  | .invalid => r

/-- Rows 44 to 57. -/
def fsmForcedSwitch (r : Ring τ) (now : τ) (req : RingRequest) (port : Option PortId) : Ring τ :=
  match req with
  | .clear =>                                                                 -- row 44
    (if r.isPortBlocked (some .port0) || r.isPortBlocked (some .port1) then r.announceBlock now
      else r).enter .pending
  | .fs => (r.blockPort port).startTx .fs 0                                   -- row 45
  | .rapsFs | .sf | .clearSf | .rapsSf | .rapsMs | .ms => r                   -- rows 46 to 51
  | .wtrExpires | .wtrRunning | .wtbExpires | .wtbRunning => r                -- rows 52 to 55
  | .rapsNrRb => r.enter .pending                                             -- row 56
  | .rapsNr =>                                                                -- row 57
    (if r.cfg.isRplOwner && r.cfg.isRevertive then r.startWtbTimer now else r).enter .pending
  | .invalid => r

/-- Rows 58 to 71. -/
def fsmPending (r : Ring τ) (req : RingRequest) (port : Option PortId) (remote : Option NodeId) :
    Ring τ :=
  match req with
  | .clear =>                                                                 -- row 58
    (if r.cfg.isRplOwner then r.stopWtrTimer.stopWtbTimer.revertRpl else r).enter .idle
  | .fs => (r.switchPort .fs port).stopOwnerTimers.enter .forcedSwitch        -- row 59
  | .rapsFs =>                                                                -- row 60
    ((r.unblockPort .port0).unblockPort .port1).stopTx.stopOwnerTimers.enter .forcedSwitch
  | .sf => (r.switchPort .sf port).stopOwnerTimers.enter .protection          -- row 61
  | .clearSf => r                                                             -- row 62
  | .rapsSf =>                                                                -- row 63
    r.unblockNonfailedPorts.stopTx.stopOwnerTimers.enter .protection
  | .rapsMs =>                                                                -- row 64
    r.unblockNonfailedPorts.stopTx.stopOwnerTimers.enter .manualSwitch
  | .ms => (r.stopOwnerTimers.switchPort .ms port).enter .manualSwitch        -- row 65
  | .wtrExpires =>                                                            -- row 66
    (if r.cfg.isRplOwner then r.stopWtbTimer.revertRpl else r).enter .idle
  | .wtrRunning => r                                                          -- row 67
  | .wtbExpires =>                                                            -- row 68
    (if r.cfg.isRplOwner then r.stopWtrTimer.revertRpl else r).enter .idle
  | .wtbRunning => r                                                          -- row 69
  | .rapsNrRb =>                                                              -- row 70
    let r := r.stopOwnerTimers
    let r := if !r.cfg.isRplOwner && !r.cfg.isRplNeighbour then
        ((r.unblockPort .port0).unblockPort .port1).stopTx
      else r
    let r := if r.cfg.isRplNeighbour then
        ((r.blockPort r.cfg.rplPort).unblockPort (ringOtherPort r.cfg.rplPort)).stopTx
      else r
    r.enter .idle
  | .rapsNr =>                                                                -- row 71
    if r.isBelow remote then r.unblockNonfailedPorts.stopTx else r
  | .invalid => r

/-- The two nested switches of `ring_fsm`. -/
def fsmRow (r : Ring τ) (now : τ) (req : RingRequest) (port : Option PortId)
    (remote : Option NodeId) : Ring τ :=
  match r.state with
  | .init => r.fsmInit now
  | .idle => r.fsmIdle req port remote
  | .protection => r.fsmProtection now req port
  | .manualSwitch => r.fsmManualSwitch now req port
  | .forcedSwitch => r.fsmForcedSwitch now req port
  | .pending => r.fsmPending req port remote

/-! ## Request de-duplication -/

/-- The switch that sets `dupe`. An R-APS request must match in address and request, a request on a
port in port and request. -/
def isDupe (r : Ring τ) (req : RingRequest) (port : Option PortId) (remote : Option NodeId) : Bool :=
  match req with
  | .rapsNr | .rapsNrRb | .rapsSf | .rapsMs | .rapsFs =>
    req == r.prev.request &&
      match remote with
      | some id => memcmp id.bytes r.prev.remoteNodeId.bytes == 0
      | none => false
  | .ms | .sf | .fs | .clearSf => req == r.prev.request && port == r.prev.port
  | _ => false

/-- The branch of that switch behind the message "impossible duplicit request received!". -/
def isImpossibleDupe (r : Ring τ) (req : RingRequest) : Bool :=
  match req with
  | .wtbRunning | .wtbExpires | .wtrRunning | .wtrExpires | .clear => req == r.prev.request
  | _ => false

/-- Save request parameters, for future comparison. -/
def saveRequest (r : Ring τ) (req : RingRequest) (port : Option PortId) (remote : Option NodeId) :
    Ring τ :=
  { r with prev := { request := req, port := port,
                     remoteNodeId := remote.getD r.prev.remoteNodeId } }

end Ring

end Erps
