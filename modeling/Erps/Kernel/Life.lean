import Erps.Kernel.Create
import Erps.Kernel.Foreign
import Erps.Kernel.Roles

/-!
# The module, from MOD_LOAD to MOD_UNLOAD

`erps.c` with all it calls: the device, the one ring it can have, and what that ring holds of memory
and of netmap. `er_lookup_ring` answers every id with `er_global`, so there is no second ring, and
there is no command to take the first one down: only the unloading of the module does.

The functions of `Create` are here once more with the memory they take and give back (`Held`), and with
the ring they make; the equations say that beyond that nothing is different.
-/

set_option autoImplicit false

namespace Erps.Kernel.Life

open Bytes Create

/-! ## Memory -/

/-- What a piece of memory holds. -/
inductive Kind
  | ring
  | port
  | raps
  | frame
  deriving DecidableEq, Repr

/-- Netmap, and how much of each kind `er_malloc` has handed out and `er_free` has not got back. -/
@[ext] structure Held where
  heap : Kind → Int
  netmap : Netmap (List UInt8)

namespace Held

/-- Nothing is held. -/
def nothing : Held := ⟨fun _ => 0, .empty⟩

/-- `er_malloc`. -/
def malloc (m : Held) (k : Kind) : Held := { m with heap := Function.update m.heap k (m.heap k + 1) }

/-- `er_free`. -/
def free (m : Held) (k : Kind) : Held := { m with heap := Function.update m.heap k (m.heap k - 1) }

@[simp] theorem netmap_malloc (m : Held) (k : Kind) : (m.malloc k).netmap = m.netmap := rfl
@[simp] theorem netmap_free (m : Held) (k : Kind) : (m.free k).netmap = m.netmap := rfl

end Held

/-! ## Ports -/

/-- `strncpy` into a field of `n` bytes. -/
def strncpy (n : Nat) (src : List UInt8) : List UInt8 :=
  let s := (src.take n).takeWhile (· ≠ 0)
  s ++ List.replicate (n - s.length) 0

/-- `IFNAMSIZ`. -/
def ifnamsiz : Nat := 16

/-- `port->name`, as `er_port_create` copies it. -/
def portName (name : List UInt8) : List UInt8 := (strncpy ifnamsiz name).set (ifnamsiz - 1) 0

/-- `er_port_create`. -/
def erPortCreate (ignoresNull : Bool) (calls : PortCalls) (name : List UInt8) (m : Held) :
    Option (ErPort (List UInt8)) × Held :=
  if !calls.malloc then (none, m)
  else
    let m := m.malloc .port
    let port : ErPort (List UInt8) := { name := portName name, na := none }
    if !calls.attach then
      (none, { m with netmap := erPortCleanup ignoresNull port m.netmap }.free .port)
    else
      match erNetmapGetAdapter ignoresNull calls.getNa port (m.netmap.attach port.name) with
      | (false, port, netmap) =>
        (none, { m with netmap := erPortCleanup ignoresNull port netmap }.free .port)
      | (true, port, netmap) => (some port, { m with netmap := netmap })

/-- `er_port_destroy`. Nothing sets `link_event`. -/
def erPortDestroy (ignoresNull : Bool) (port : ErPort (List UInt8)) (m : Held) : Held :=
  { m with netmap := (erNetmapUngetAdapter ignoresNull port m.netmap).detach port.name }.free .port

/-! ## Rings -/

/-- The rest of `struct er_ring`, as far as it is used: the ports, and the times of the timers. -/
structure GlobalRing where
  er : ErRing
  port0 : ErPort (List UInt8)
  port1 : ErPort (List UInt8)
  guardTime : UInt32
  wtrTime : UInt32
  wtbTime : UInt32

/-- `er_ring_create`; `none` is a read through a null pointer. `idx` is what netmap answers for the
indices of the ports. -/
def erRingCreate (ignoresNull : Bool) (calls : Calls) (idx : PortId → Int) (now : Int32)
    (ringId : UInt16) (port0Name port1Name : List UInt8) (rplOwner rplNeighbour : UInt8)
    (_nodeId : NodeId) (m : Held) : Option (Option GlobalRing × Held) :=
  if !calls.malloc then some (none, m)
  else
    match erPortCreate ignoresNull calls.port0 port0Name (m.malloc .ring) with
    | (none, m) => some (none, m.free .ring)
    | (some port0, m) =>
      match erPortCreate ignoresNull calls.port1 port1Name m with
      | (none, m) => some (none, m.free .ring)
      | (some port1, m) =>
        -- `ret->raps = er_raps_create(); ret->raps->vid = ...`
        if !calls.rapsCreate then none
        else if !calls.frameMalloc then some (none, (m.malloc .raps).free .ring)
        else
          let er : ErRing :=
            { ring := Kernel.erRingCreate now ringId rplOwner rplNeighbour
              port0Idx := idx .port0
              port1Idx := idx .port1
              active := false }
          some (some ⟨er, port0, port1, 0, 0, 0⟩, (m.malloc .raps).malloc .frame)

/-- `er_ring_destroy`. `raps_frame` is not among the things it frees. -/
def erRingDestroy (ignoresNull : Bool) (ring : GlobalRing) (m : Held) : Held :=
  let m := erPortDestroy ignoresNull ring.port0 m
  let m := erPortDestroy ignoresNull ring.port1 m
  (m.free .raps).free .ring

/-! ## The device -/

/-- `struct erreq`, as far as `er_ioctl` uses it. -/
structure ErReqData extends ErReq where
  erPort0Failed : UInt8
  erPort1Failed : UInt8
  erPort0Blocked : UInt8
  erPort1Blocked : UInt8
  erGuardTime : UInt32
  erWtrTime : UInt32

inductive Errno
  | ok
  | einval
  | enxio
  deriving DecidableEq, Repr

/-- The commands of `/dev/erps`, and anything else. -/
inductive Cmd
  | init
  | addif
  | delif
  | status
  | command
  | other
  deriving DecidableEq, Repr

/-- The module; then what is only on record: the rings made and the frames ignored so far. -/
structure State where
  /-- there is a device -/
  cdev : Bool
  erGlobal : Option GlobalRing
  held : Held
  created : Nat
  ignored : Nat

/-- Before the module is loaded. -/
def State.boot : State := ⟨false, none, .nothing, 0, 0⟩

/-- The range check of `guard_time`. -/
def guardTimeOf (t : UInt32) : UInt32 := if t < 10 ∨ t > 2000 then 500 else t

/-- The range check of `wtr_time`. -/
def wtrTimeOf (t : UInt32) : UInt32 := if t < 1 * 60000 ∨ t > 12 * 60000 then 5 * 60000 else t

/-- ERIOCINIT, over the new ring: "configure ring according to request, while validating inputs". -/
def erConfigure (req : ErReqData) (ring : GlobalRing) : GlobalRing :=
  let version := if ring.er.ring.cfg.version = 0 then 2 else ring.er.ring.cfg.version
  let r := configure ring.er.ring version (rapsVidOf req.erRapsVid) (decide (req.erRevertive ≠ 0))
  let guardTime := guardTimeOf req.erGuardTime
  { ring with
    er := { ring.er with ring := r }
    guardTime := guardTime
    wtrTime := wtrTimeOf req.erWtrTime
    wtbTime := guardTime + 5000 }

/-- ERIOCINIT. -/
def erIoctlInit (ignoresNull : Bool) (calls : Calls) (idx : PortId → Int) (now : Int32)
    (req : ErReqData) (s : State) : Option (Errno × State) :=
  if s.erGlobal.isSome then some (.einval, s)
  else if !validRpl req.toErReq then some (.einval, s)
  else
    let rplOwnerPort := if req.erRplOwner ≠ 0 then req.erRplPort.toUInt8 else erpsRplNone
    let rplNeighbourPort := if req.erRplNeighbour ≠ 0 then req.erRplPort.toUInt8 else erpsRplNone
    match erRingCreate ignoresNull calls idx now req.erId.toUInt16 req.erPort0 req.erPort1
        rplOwnerPort rplNeighbourPort req.erNodeId s.held with
    | none => none
    | some (none, held) => some (.einval, { s with held := held })
    | some (some ring, held) =>
      let ring := erConfigure req ring
      some (.ok, { s with
        erGlobal := some { ring with er := erActivateRing ring.er }
        held := held
        created := s.created + 1 })

/-- A `bool` in a `uint8_t`. -/
def flag (b : Bool) : UInt8 := if b then 1 else 0

/-- ERIOCSTATUS: the request with the answers filled in. -/
def erIoctlStatus (ring : GlobalRing) (req : ErReqData) : ErReqData :=
  { req with
    erPort0 := strncpy ifnamsiz ring.port0.name
    erPort1 := strncpy ifnamsiz ring.port1.name
    erPort0Failed := flag ring.er.ring.port0.isFailed
    erPort1Failed := flag ring.er.ring.port1.isFailed
    erPort0Blocked := flag ring.er.ring.port0.isBlocked
    erPort1Blocked := flag ring.er.ring.port1.isBlocked
    erRplOwner := flag ring.er.ring.cfg.isRplOwner
    erRplNeighbour := flag ring.er.ring.cfg.isRplNeighbour }

/-- `er_ioctl`: the answer, the data afterwards and the module. -/
def erIoctl (ignoresNull : Bool) (calls : Calls) (idx : PortId → Int) (now : Int32) (cmd : Cmd)
    (data : Option ErReqData) (s : State) : Option (Errno × Option ErReqData × State) :=
  match data with
  | none => some (.einval, none, s)
  | some req =>
    match cmd with
    | .init => (erIoctlInit ignoresNull calls idx now req s).map fun (err, s) => (err, some req, s)
    | .delif => some (.ok, some req, s)
    | .status =>
      match s.erGlobal with
      | none => some (.einval, some req, s)
      | some ring => some (.ok, some (erIoctlStatus ring req), s)
    -- "not implemented"
    | .command => some (.einval, some req, s)
    | .addif | .other => some (.enxio, some req, s)

/-! ## Frames -/

/-- `process_raps_frame`; `none` is a write through a null pointer. What is not parsed is not freed
either. -/
def processRapsFrame (host : ByteOrder) (hz now : Int32) (rapsCreate : Bool) (r : Ring Int32)
    (data : List UInt8) (origin : PortId) (m : Held) : Option (Ring Int32 × Held) :=
  let guard := r.timers.guard
  -- guard timer
  if guard.active && tickDiffMsec hz now guard.activeSince < 500 then some (r, m)
  else
    let r := if guard.active then r.stopGuardTimer else r
    let m := if rapsCreate then m.malloc .raps else m
    match rapsParse host data with
    | none => some (r, m)
    | some raps =>
      if !rapsCreate then none
      else
        match raps.ringRequest with
        | none => some (r, m)
        | some request =>
          some (ringProcessRequest r now request (some origin) (some raps.nodeId), m.free .raps)

/-- `er_forward_lookup`. -/
def erForwardLookup (host : ByteOrder) (hz now : Int32) (rapsCreate : Bool) (er : ErRing)
    (recvPort : Option PortId) (data : List UInt8) (m : Held) : Option (Bool × ErRing × Held) :=
  if isKeepaliveFrame data then some (false, er, m)
  else if isRapsFrame data then
    match recvPort with
    -- drop all R-APS messages from non-"ring link" ports
    | none => some (false, er, m)
    | some p =>
      if isValidRapsFrame er data then
        if isLocalRapsFrame host data er.ring.cfg.nodeId then some (false, er, m)
        else
          (processRapsFrame host hz now rapsCreate er.ring data p m).map fun (ring, m) =>
            let er := { er with ring := ring }
            let otherPort := ringOtherPort (some p)
            if !er.blocked p && !er.blocked otherPort then
              -- `return other_port->idx`, through the `bool` of the signature
              (decide (er.idx otherPort ≠ 0), er, m)
            else (false, er, m)
      else some (false, er, m)
  else
    match recvPort with
    -- "destination port is blocked via VALE and NAF_SW_ONLY flag"
    | some p => if er.blocked p then some (false, er, m) else some (true, er, m)
    | none => some (true, er, m)

/-- `er_netmap_on_recv`: where the frame goes, and the module afterwards. -/
def erNetmapOnRecv (host : ByteOrder) (hz now : Int32) (rapsCreate : Bool)
    (learning : List UInt8 → Int → Destination) (bdgPort : Int) (data : List UInt8) (s : State) :
    Option (Option Destination × State) :=
  match s.erGlobal with
  | none => some (none, s)
  | some ring =>
    if !ring.er.active then some (none, s)
    else
      (erForwardLookup host hz now rapsCreate ring.er (recvPort ring.er bdgPort) data s.held).map
        fun (forward, er, held) =>
          let s := { s with erGlobal := some { ring with er := er }, held := held }
          (if forward then some (learning data bdgPort) else none, s)

/-! ## Loading and unloading -/

/-- `er_module_init`. `makeDev` says whether there is a device. -/
def erModuleInit (makeDev : Bool) (s : State) : State := { s with erGlobal := none, cdev := makeDev }

/-- `er_destroy_all_rings`. -/
def erDestroyAllRings (ignoresNull : Bool) (s : State) : State :=
  match s.erGlobal with
  | none => s
  | some ring => { s with held := erRingDestroy ignoresNull ring s.held, erGlobal := none }

/-- `er_module_fini`. -/
def erModuleFini (ignoresNull : Bool) (s : State) : State :=
  { erDestroyAllRings ignoresNull s with cdev := false }

/-- The frame gets as far as `er_raps_parse` and no further. -/
def Ignores (host : ByteOrder) (hz now : Int32) (bdgPort : Int) (data : List UInt8) (s : State) :
    Bool :=
  s.erGlobal.any fun ring => ring.er.active && (recvPort ring.er bdgPort).isSome &&
    isRapsFrame data && !isLocalRapsFrame host data ring.er.ring.cfg.nodeId &&
    !guardHolds hz now ring.er.ring && (rapsParse host data).isNone

inductive Event
  | load (makeDev : Bool)
  | unload
  | ioctl (now : Int32) (cmd : Cmd) (data : Option ErReqData) (calls : Calls) (idx : PortId → Int)
  | recv (now : Int32) (rapsCreate : Bool) (bdgPort : Int) (data : List UInt8)

/-- How netmap behaves, and the clock: what stays the same throughout. -/
structure Env where
  host : ByteOrder
  hz : Int32
  ignoresNull : Bool
  learning : List UInt8 → Int → Destination

/-- What happens to the module; `none` where it cannot happen, or brings the kernel down. -/
def handle (env : Env) (s : State) : Event → Option State
  | .load makeDev => if s.cdev then none else some (erModuleInit makeDev s)
  | .unload => if s.cdev then some (erModuleFini env.ignoresNull s) else none
  | .ioctl now cmd data calls idx =>
    if s.cdev then
      (erIoctl env.ignoresNull calls idx now cmd data s).map fun (_, _, s) => s
    else none
  | .recv now rapsCreate bdgPort data =>
    if s.cdev then
      (erNetmapOnRecv env.host env.hz now rapsCreate env.learning bdgPort data s).map fun (_, t) =>
        if rapsCreate && Ignores env.host env.hz now bdgPort data s then
          { t with ignored := t.ignored + 1 }
        else t
    else none

/-- **The module.** -/
def module (env : Env) : Lts State Event := .ofStep (· = .boot) (handle env)

/-! ## What the calls do to memory and to netmap -/

@[simp] theorem Held.free_malloc (m : Held) (k : Kind) : (m.malloc k).free k = m := by
  simp [Held.malloc, Held.free]

section create

variable {ignoresNull : Bool} {calls : PortCalls} {name : List UInt8} {m : Held}

/-- A port that is not opened leaves no memory behind. -/
theorem erPortCreate_of_not_opens (h : ¬ calls.Opens) :
    erPortCreate ignoresNull calls name m =
      (none, { m with
        netmap := (Create.erPortCreate ignoresNull calls (portName name) m.netmap).2 }) := by
  unfold erPortCreate Create.erPortCreate
  cases hmalloc : calls.malloc with
  | false => rfl
  | true =>
    cases hattach : calls.attach with
    | false => simp [Held.malloc, Held.free]
    | true =>
      cases hget : calls.getNa with
      | error | missing => simp [Held.malloc, Held.free, erNetmapGetAdapter]
      | found => exact absurd ⟨hmalloc, hattach, hget⟩ h

theorem erPortCreate_of_opens (h : calls.Opens) :
    erPortCreate ignoresNull calls name m =
      (some ⟨portName name, some (portName name)⟩,
        { m.malloc .port with
          netmap := (m.netmap.attach (portName name)).get (portName name) }) := by
  obtain ⟨hmalloc, hattach, hget⟩ := h
  simp [erPortCreate, hmalloc, hattach, hget, erNetmapGetAdapter, Held.malloc]

end create

section create

variable {ignoresNull : Bool} {calls : Calls} {idx : PortId → Int} {now : Int32} {ringId : UInt16}
  {port0Name port1Name : List UInt8} {rplOwner rplNeighbour : UInt8} {nodeId : NodeId} {m : Held}

/-- What a ring holds of netmap, where nothing else does. -/
def opened (name₀ name₁ : List UInt8) : Netmap (List UInt8) :=
  (((Netmap.empty.attach name₀).get name₀).attach name₁).get name₁

/-- What a ring holds of memory, beside what was taken before. -/
def Held.withRing (m : Held) : Held :=
  ((((m.malloc .ring).malloc .port).malloc .port).malloc .raps).malloc .frame

/-- A ring with its ports open. -/
structure Opened (ring : GlobalRing) (name₀ name₁ : List UInt8) : Prop where
  port0 : ring.port0 = ⟨name₀, some name₀⟩
  port1 : ring.port1 = ⟨name₁, some name₁⟩

/-- **On the ways that are unwound** there is a ring afterwards, and all it holds, or nothing at
all. -/
theorem erRingCreate_of_unwinds (h : Unwinds ignoresNull calls) (hm : m.netmap = .empty) :
    erRingCreate ignoresNull calls idx now ringId port0Name port1Name rplOwner rplNeighbour nodeId
        m = some (none, m) ∨
      ∃ ring, erRingCreate ignoresNull calls idx now ringId port0Name port1Name rplOwner
          rplNeighbour nodeId m =
            some (some ring, { m.withRing with
              netmap := opened (portName port0Name) (portName port1Name) }) ∧
        Opened ring (portName port0Name) (portName port1Name) ∧
        ring.er = ⟨Kernel.erRingCreate now ringId rplOwner rplNeighbour, idx .port0, idx .port1,
          false⟩ ∧ calls.port1.attach = true := by
  unfold erRingCreate
  cases hmalloc : calls.malloc with
  | false => exact .inl rfl
  | true =>
    by_cases h₀ : calls.port0.Opens
    · obtain ⟨h₁, hraps, hframe⟩ := h.rest_of_opens hmalloc h₀
      refine .inr ⟨⟨⟨Kernel.erRingCreate now ringId rplOwner rplNeighbour, idx .port0, idx .port1,
        false⟩, ⟨portName port0Name, some (portName port0Name)⟩,
        ⟨portName port1Name, some (portName port1Name)⟩, 0, 0, 0⟩, ?_, ⟨rfl, rfl⟩, rfl, h₁.2.1⟩
      simp [erPortCreate_of_opens h₀, erPortCreate_of_opens h₁, hraps, hframe, Held.malloc,
        Held.withRing, hm, opened]
    · refine .inl ?_
      obtain ⟨hmisuse, hattached⟩ := (erPortCreate_clean_iff ignoresNull h₀ (portName port0Name)).2
        (h.port0_of_not_opens hmalloc h₀)
      have hrefs := (Create.erPortCreate_of_not_opens ignoresNull h₀ (portName port0Name) .empty).2
      have hempty : (Create.erPortCreate ignoresNull calls.port0 (portName port0Name) .empty).2 =
          .empty := by
        generalize (Create.erPortCreate ignoresNull calls.port0 (portName port0Name) .empty).2 = n
          at hmisuse hattached hrefs ⊢
        obtain ⟨attached, refs, misuse⟩ := n
        cases hmisuse
        cases hattached
        cases hrefs
        rfl
      obtain ⟨heap, netmap⟩ := m
      obtain rfl : netmap = .empty := hm
      simp [erPortCreate_of_not_opens h₀, Held.malloc, Held.free, hempty]

/-- Taking a ring down gives everything back but its frame buffer. -/
theorem erRingDestroy_of_opened {ring : GlobalRing} {name₀ name₁ : List UInt8}
    (h : Opened ring name₀ name₁) (hne : name₀ ≠ name₁) (hm : m.netmap = .empty) :
    erRingDestroy ignoresNull ring { m.withRing with netmap := opened name₀ name₁ } =
      m.malloc .frame := by
  have hnetmap : (((opened name₀ name₁).put ignoresNull (some name₀)).detach name₀ |>.put
      ignoresNull (some name₁) |>.detach name₁) = .empty := by
    simp [opened, Netmap.put, Netmap.detach, Netmap.attach, Netmap.get, Netmap.empty, hne,
      hne.symm, Finset.erase_insert_of_ne]
  unfold erRingDestroy erPortDestroy erNetmapUngetAdapter
  rw [h.port0, h.port1]
  apply Held.ext
  · funext k
    cases k <;> simp [Held.withRing, Held.malloc, Held.free]
  · simp only [Held.netmap_free, Held.netmap_malloc, hm]
    exact hnetmap

end create

/-! ## What a frame does -/

section recv

variable {host : ByteOrder} {hz now : Int32} {rapsCreate : Bool} {m m' : Held} {data : List UInt8}

/-- The parser lets through nothing it has no request for. -/
theorem ringRequest_ne_none {raps : Raps} (h : rapsParse host data = some raps) :
    raps.ringRequest ≠ none := by
  have hparse : ∀ x, parseRequest x ≠ some .event := by
    intro x
    unfold parseRequest
    repeat' split
    all_goals simp
  have hreq : raps.request ≠ .event := by
    unfold rapsParse at h
    simp only at h
    split at h
    · cases h
    · split at h
      · cases h
      · split at h
        · cases h
        · split at h
          · cases h
          · rename_i request hx
            cases h
            intro hevent
            have hevent : request = .event := hevent
            exact hparse _ (hevent ▸ hx)
  unfold Raps.ringRequest
  cases hr : raps.request with
  | event => exact absurd hr hreq
  | nr => simp only; split <;> simp
  | ms | sf | fs => simp

/-- `process_raps_frame` is the one of the data path, and loses its record of a frame it ignores. -/
theorem processRapsFrame_spec {r r' : Ring Int32} {p : PortId}
    (h : processRapsFrame host hz now rapsCreate r data p m = some (r', m')) :
    r' = Kernel.processRapsFrame host hz now r data p ∧
      m' = if rapsCreate && (!guardHolds hz now r && (rapsParse host data).isNone) then
        m.malloc .raps else m := by
  unfold processRapsFrame at h
  unfold Kernel.processRapsFrame
  cases hg : guardHolds hz now r with
  | true =>
    have hguard : (r.timers.guard.active &&
        decide (tickDiffMsec hz now r.timers.guard.activeSince < 500)) = true := hg
    simp only [hguard, if_true, Option.some.injEq, Prod.mk.injEq] at h ⊢
    obtain ⟨rfl, rfl⟩ := h
    simp
  | false =>
    have hguard : (r.timers.guard.active &&
        decide (tickDiffMsec hz now r.timers.guard.activeSince < 500)) = false := hg
    simp only [hguard, Bool.false_eq_true, if_false] at h ⊢
    cases hparse : rapsParse host data with
    | none =>
      simp only [hparse, Option.some.injEq, Prod.mk.injEq] at h
      obtain ⟨rfl, rfl⟩ := h
      simp
    | some raps =>
      obtain ⟨request, hreq⟩ := Option.ne_none_iff_exists'.mp (ringRequest_ne_none hparse)
      cases rapsCreate with
      | false => simp [hparse] at h
      | true =>
        simp only [hparse, hreq, Bool.not_true, Bool.false_eq_true, if_false, if_true,
          Held.free_malloc, Option.some.injEq, Prod.mk.injEq] at h
        obtain ⟨rfl, rfl⟩ := h
        simp [hreq]

/-- The same of `er_forward_lookup`. -/
theorem erForwardLookup_spec {er er' : ErRing} {recvPort : Option PortId} {forward : Bool}
    (h : erForwardLookup host hz now rapsCreate er recvPort data m = some (forward, er', m')) :
    (forward, er') = Kernel.erForwardLookup host hz now er recvPort data ∧
      m' = if rapsCreate && (recvPort.isSome && isRapsFrame data &&
          !isLocalRapsFrame host data er.ring.cfg.nodeId &&
          !guardHolds hz now er.ring && (rapsParse host data).isNone) then m.malloc .raps else m := by
  unfold erForwardLookup at h
  unfold Kernel.erForwardLookup
  simp only [isKeepaliveFrame, isValidRapsFrame, Bool.false_eq_true, if_false, if_true] at h ⊢
  cases hraps : isRapsFrame data with
  | false =>
    cases recvPort with
    | none =>
      simp only [hraps, Bool.false_eq_true, if_false, Option.some.injEq, Prod.mk.injEq] at h
      obtain ⟨rfl, rfl, rfl⟩ := h
      simp
    | some p =>
      cases hb : er.blocked p <;>
      · simp only [hraps, hb, Bool.false_eq_true, if_false, if_true, Option.some.injEq,
          Prod.mk.injEq] at h
        obtain ⟨rfl, rfl, rfl⟩ := h
        simp [hb]
  | true =>
    cases recvPort with
    | none =>
      simp only [hraps, if_true, Option.some.injEq, Prod.mk.injEq] at h
      obtain ⟨rfl, rfl, rfl⟩ := h
      simp
    | some p =>
      cases hlocal : isLocalRapsFrame host data er.ring.cfg.nodeId with
      | true =>
        simp only [hraps, hlocal, if_true, Option.some.injEq, Prod.mk.injEq] at h
        obtain ⟨rfl, rfl, rfl⟩ := h
        simp
      | false =>
        simp only [hraps, hlocal, Bool.false_eq_true, if_false, if_true] at h
        obtain ⟨⟨ring, m₁⟩, hproc, hout⟩ := Option.map_eq_some_iff.mp h
        obtain ⟨rfl, rfl⟩ := processRapsFrame_spec hproc
        simp only at hout
        split at hout
        · rename_i hopen
          cases hout
          simp only [if_true, Bool.false_eq_true, if_false, if_pos hopen, true_and]
          simp
        · rename_i hshut
          cases hout
          simp only [if_true, Bool.false_eq_true, if_false, if_neg hshut, true_and]
          simp

end recv

/-! ## What a step does -/

/-- The `er_ring_create` of an ERIOCINIT. -/
def createFor (ignoresNull : Bool) (calls : Calls) (idx : PortId → Int) (now : Int32)
    (req : ErReqData) (m : Held) : Option (Option GlobalRing × Held) :=
  erRingCreate ignoresNull calls idx now req.erId.toUInt16 req.erPort0 req.erPort1
    (if req.erRplOwner ≠ 0 then req.erRplPort.toUInt8 else erpsRplNone)
    (if req.erRplNeighbour ≠ 0 then req.erRplPort.toUInt8 else erpsRplNone) req.erNodeId m

/-- The ring as ERIOCINIT leaves it. -/
def started (req : ErReqData) (ring : GlobalRing) : GlobalRing :=
  { erConfigure req ring with er := erActivateRing (erConfigure req ring).er }

/-- The module after a frame for its ring, which may have been `lost` on it. -/
def State.afterFrame (s : State) (ring : GlobalRing) (er : ErRing) (lost : Bool) : State :=
  { s with
    erGlobal := some { ring with er := er }
    held := if lost then s.held.malloc .raps else s.held
    ignored := if lost then s.ignored + 1 else s.ignored }

/-- **All that a step can do.** -/
inductive Lived (env : Env) (s : State) : Event → State → Prop
  | loaded (makeDev : Bool) (hc : s.cdev = false) :
      Lived env s (.load makeDev) (erModuleInit makeDev s)
  | unloaded (hc : s.cdev = true) : Lived env s .unload (erModuleFini env.ignoresNull s)
  | answered {now : Int32} {cmd : Cmd} {data : Option ErReqData} {calls : Calls}
      {idx : PortId → Int} (hc : s.cdev = true) : Lived env s (.ioctl now cmd data calls idx) s
  | unheard {now : Int32} {rapsCreate : Bool} {bdgPort : Int} {data : List UInt8}
      (hc : s.cdev = true) (hg : s.erGlobal = none) :
      Lived env s (.recv now rapsCreate bdgPort data) s
  | refused {now : Int32} {req : ErReqData} {calls : Calls} {idx : PortId → Int} {held : Held}
      (hc : s.cdev = true) (hg : s.erGlobal = none)
      (hcreate : createFor env.ignoresNull calls idx now req s.held = some (none, held)) :
      Lived env s (.ioctl now .init (some req) calls idx) { s with held := held }
  | inited {now : Int32} {req : ErReqData} {calls : Calls} {idx : PortId → Int} {ring : GlobalRing}
      {held : Held} (hc : s.cdev = true) (hg : s.erGlobal = none)
      (hvalid : validRpl req.toErReq = true)
      (hcreate : createFor env.ignoresNull calls idx now req s.held = some (some ring, held)) :
      Lived env s (.ioctl now .init (some req) calls idx)
        { s with erGlobal := some (started req ring), held := held, created := s.created + 1 }
  | received {now : Int32} {rapsCreate : Bool} {bdgPort : Int} {data : List UInt8}
      {ring : GlobalRing} (hc : s.cdev = true) (hg : s.erGlobal = some ring) :
      Lived env s (.recv now rapsCreate bdgPort data) (s.afterFrame ring
        (Kernel.erNetmapOnRecv env.host env.hz now env.learning ring.er bdgPort data).2
        (rapsCreate && Ignores env.host env.hz now bdgPort data s))

theorem lived_of_ioctl {env : Env} {s t : State} {now : Int32} {cmd : Cmd}
    {data : Option ErReqData} {calls : Calls} {idx : PortId → Int} (hc : s.cdev = true)
    {err : Errno} {out : Option ErReqData}
    (h : erIoctl env.ignoresNull calls idx now cmd data s = some (err, out, t)) :
    Lived env s (.ioctl now cmd data calls idx) t := by
  cases data with
  | none =>
    cases h
    exact .answered hc
  | some req =>
    cases cmd with
    | delif | command | addif | other =>
      cases h
      exact .answered hc
    | status =>
      simp only [erIoctl] at h
      split at h <;>
      · cases h
        exact .answered hc
    | init =>
      simp only [erIoctl] at h
      obtain ⟨⟨err', s'⟩, hinit, hout⟩ := Option.map_eq_some_iff.mp h
      cases hout
      unfold erIoctlInit at hinit
      split at hinit
      · cases hinit
        exact .answered hc
      · rename_i hg
        have hg : s.erGlobal = none := by simpa using hg
        split at hinit
        · cases hinit
          exact .answered hc
        · rename_i hvalid
          simp only at hinit
          split at hinit
          · cases hinit
          · rename_i held hcreate
            cases hinit
            exact .refused hc hg hcreate
          · rename_i ring held hcreate
            cases hinit
            exact .inited hc hg (by simpa using hvalid) hcreate

theorem lived_of_recv {env : Env} {s t : State} {now : Int32} {rapsCreate : Bool} {bdgPort : Int}
    {data : List UInt8} (hc : s.cdev = true)
    (h : handle env s (.recv now rapsCreate bdgPort data) = some t) :
    Lived env s (.recv now rapsCreate bdgPort data) t := by
  simp only [handle, hc, if_true] at h
  obtain ⟨⟨dest, t'⟩, hrecv, hout⟩ := Option.map_eq_some_iff.mp h
  unfold erNetmapOnRecv at hrecv
  cases hg : s.erGlobal with
  | none =>
    simp only [hg, Option.some.injEq, Prod.mk.injEq] at hrecv
    obtain ⟨_, rfl⟩ := hrecv
    have hign : Ignores env.host env.hz now bdgPort data s = false := by simp [Ignores, hg]
    simp only [hign, Bool.and_false, Bool.false_eq_true, if_false] at hout
    exact hout ▸ .unheard hc hg
  | some ring =>
    simp only [hg] at hrecv
    cases hactive : ring.er.active with
    | false =>
      simp only [hactive, Bool.not_false, if_true, Option.some.injEq, Prod.mk.injEq] at hrecv
      obtain ⟨_, rfl⟩ := hrecv
      have hign : Ignores env.host env.hz now bdgPort data s = false := by
        simp [Ignores, hg, hactive]
      have her : (Kernel.erNetmapOnRecv env.host env.hz now env.learning ring.er bdgPort data).2 =
          ring.er := by simp [Kernel.erNetmapOnRecv, hactive]
      have hsame : s.afterFrame ring ring.er false = s := by
        unfold State.afterFrame
        simp [← hg]
      have hreceived : Lived env s (.recv now rapsCreate bdgPort data) _ := .received hc hg
      simp only [hign, Bool.and_false, Bool.false_eq_true, if_false] at hout
      rw [her, hign, Bool.and_false, hsame] at hreceived
      exact hout ▸ hreceived
    | true =>
      simp only [hactive, Bool.not_true, Bool.false_eq_true, if_false] at hrecv
      obtain ⟨⟨forward, er, held⟩, hlookup, hrecv⟩ := Option.map_eq_some_iff.mp hrecv
      cases hrecv
      obtain ⟨hforward, rfl⟩ := erForwardLookup_spec hlookup
      have her : (Kernel.erNetmapOnRecv env.host env.hz now env.learning ring.er bdgPort data).2 =
          er := by
        unfold Kernel.erNetmapOnRecv
        rw [hactive, ← hforward]
        cases forward <;> rfl
      have hign : Ignores env.host env.hz now bdgPort data s =
          ((recvPort ring.er bdgPort).isSome && isRapsFrame data &&
            !isLocalRapsFrame env.host data ring.er.ring.cfg.nodeId &&
            !guardHolds env.hz now ring.er.ring && (rapsParse env.host data).isNone) := by
        simp [Ignores, hg, hactive]
      have hreceived : Lived env s (.recv now rapsCreate bdgPort data) _ := .received hc hg
      rw [her] at hreceived
      rw [← hign] at hout
      cases hlost : rapsCreate && Ignores env.host env.hz now bdgPort data s <;>
      · simp only [hlost, Bool.false_eq_true, if_false, if_true, State.afterFrame] at hout hreceived
        exact hout ▸ hreceived

theorem lived {env : Env} {s t : State} {e : Event} (h : handle env s e = some t) :
    Lived env s e t := by
  cases e with
  | load makeDev =>
    simp only [handle] at h
    split at h
    · cases h
    · rename_i hc
      cases h
      exact .loaded makeDev (by simpa using hc)
  | unload =>
    simp only [handle] at h
    split at h
    · rename_i hc
      cases h
      exact .unloaded hc
    · cases h
  | ioctl now cmd data calls idx =>
    simp only [handle] at h
    split at h
    · rename_i hc
      obtain ⟨⟨err, out, t'⟩, hioctl, rfl⟩ := Option.map_eq_some_iff.mp h
      exact lived_of_ioctl hc hioctl
    · cases h
  | recv now rapsCreate bdgPort data =>
    have hc : s.cdev = true := by
      simp only [handle] at h
      split at h
      · assumption
      · cases h
    exact lived_of_recv hc h

end Erps.Kernel.Life
