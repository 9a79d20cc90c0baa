import Erps.Kernel.Runs

/-!
# The data path: `er_forward_lookup` and the netmap callback

Every frame that enters a port of the VALE bridge goes through `er_netmap_on_recv`. It hands R-APS
frames to the state machine, lets `er_forward_lookup` decide whether the frame goes on, and leaves
*where* to `netmap_bdg_learning`.

Netmap is a parameter: `learning`, the answer of its learning switch, is any function of the frame
and the bridge port it came in on. It cannot be a function of the blocking flags, which live in
`struct er_port`; a `Destination` is one bridge port or all of them.

Two results say what comes of that. A data frame is kept off the blocked ring ports exactly when the
ingress check drops it or the learning switch happens not to choose one (`dataFrame_contained_iff`):
nothing checks the egress. An R-APS frame that may pass passes to the other ring port exactly when
that port's index survives the conversion to `bool` and the learning switch answers with that port
alone (`rapsFrame_exact_iff`).
-/

set_option autoImplicit false

namespace Erps.Kernel

open Bytes

/-- The part of `struct er_ring` the data path reads: the ring, the bridge indices of its ports, and
whether it is active. -/
structure ErRing where
  ring : Ring Int32
  port0Idx : Int
  port1Idx : Int
  active : Bool

/-- `port->idx`. -/
def ErRing.idx (er : ErRing) : PortId → Int
  | .port0 => er.port0Idx
  | .port1 => er.port1Idx

/-- `port->is_blocked`. -/
def ErRing.blocked (er : ErRing) (p : PortId) : Bool := (er.ring.port p).isBlocked

/-! ## Processing R-APS -/

/-- `TICK_DIFF_MSEC(a, b)`. -/
def tickDiffMsec (hz a b : Int32) : Int32 := (a - b) * 1000 / hz

/-- `process_raps_frame`, on a frame received at `origin`. -/
def processRapsFrame (host : ByteOrder) (hz now : Int32) (r : Ring Int32) (data : List UInt8)
    (origin : PortId) : Ring Int32 :=
  let guard := r.timers.guard
  -- guard timer
  if guard.active && tickDiffMsec hz now guard.activeSince < 500 then r
  else
    let r := if guard.active then r.stopGuardTimer else r
    match rapsParse host data with
    | none => r
    | some raps =>
      match raps.ringRequest with
      | none => r
      | some request => ringProcessRequest r now request (some origin) (some raps.nodeId)

/-- `er_is_keepalive_frame`. -/
def isKeepaliveFrame (_data : List UInt8) : Bool := false

/-- `er_is_valid_raps_frame`. -/
def isValidRapsFrame (_er : ErRing) (_data : List UInt8) : Bool := true

/-- `er_forward_lookup`: whether the frame goes on, and the ring afterwards. -/
def erForwardLookup (host : ByteOrder) (hz now : Int32) (er : ErRing) (recvPort : Option PortId)
    (data : List UInt8) : Bool × ErRing :=
  if isKeepaliveFrame data then (false, er)
  else if isRapsFrame data then
    match recvPort with
    -- drop all R-APS messages from non-"ring link" ports
    | none => (false, er)
    | some p =>
      if isValidRapsFrame er data then
        if isLocalRapsFrame host data er.ring.cfg.nodeId then (false, er)
        else
          let er := { er with ring := processRapsFrame host hz now er.ring data p }
          let otherPort := ringOtherPort (some p)
          if !er.blocked p && !er.blocked otherPort then
            -- `return other_port->idx`, through the `bool` of the signature
            (decide (er.idx otherPort ≠ 0), er)
          else (false, er)
      else (false, er)
  else
    match recvPort with
    -- "destination port is blocked via VALE and NAF_SW_ONLY flag"
    | some p => if er.blocked p then (false, er) else (true, er)
    | none => (true, er)

/-! ## The netmap callback -/

/-- An answer of `netmap_bdg_learning`: a bridge port index or `NM_BDG_BROADCAST`. -/
inductive Destination
  | port (idx : Int)
  | broadcast
  deriving DecidableEq, Repr

/-- The ring port that has this bridge index. -/
def recvPort (er : ErRing) (bdgPort : Int) : Option PortId :=
  if er.port0Idx = bdgPort then some .port0
  else if er.port1Idx = bdgPort then some .port1
  else none

/-- `er_netmap_on_recv` on a frame that entered at `bdgPort`; `none` is `NM_BDG_NOPORT`. -/
def erNetmapOnRecv (host : ByteOrder) (hz now : Int32)
    (learning : List UInt8 → Int → Destination) (er : ErRing) (bdgPort : Int)
    (data : List UInt8) : Option Destination × ErRing :=
  if !er.active then (none, er)
  else
    match erForwardLookup host hz now er (recvPort er bdgPort) data with
    | (false, er) => (none, er)
    | (true, er) => (some (learning data bdgPort), er)

/-- Where the bridge with these ports sends a frame that entered at `bdgPort`. -/
def Destination.leaves (ports : List Int) (bdgPort : Int) : Destination → List Int
  | .port idx => [idx]
  | .broadcast => ports.filter (· ≠ bdgPort)

/-- Where a frame leaves after the callback has answered. -/
def leaves (ports : List Int) (bdgPort : Int) : Option Destination → List Int
  | none => []
  | some d => d.leaves ports bdgPort

/-! ## The state machine behind the data path -/

theorem Sound.stopGuardTimer {r : Ring Int32} (h : Sound r) : Sound r.stopGuardTimer where
  coherent := h.coherent.congr r.alike_stopGuardTimer
  dominant := h.dominant.congr r.alike_stopGuardTimer

/-- Whatever bytes a frame is made of, processing it is at most one call of
`ring_process_request`. -/
theorem processRapsFrame_cases (host : ByteOrder) (hz now : Int32) (r : Ring Int32)
    (data : List UInt8) (origin : PortId) :
    processRapsFrame host hz now r data origin = r ∨
      processRapsFrame host hz now r data origin = r.stopGuardTimer ∨
      ∃ c : Call, processRapsFrame host hz now r data origin = handle r c ∨
        processRapsFrame host hz now r data origin = handle r.stopGuardTimer c := by
  simp only [processRapsFrame]
  split
  · exact .inl rfl
  · cases hg : r.timers.guard.active <;> cases hp : rapsParse host data with
    | none => simp
    | some raps =>
      cases hq : raps.ringRequest with
      | none => simp [hq]
      | some request =>
        refine .inr (.inr ⟨⟨now, .fromNode request origin raps.nodeId⟩, ?_⟩)
        simp [hq, handle, Request.fromNode]

/-- The lookup hands at most one frame to the state machine. -/
theorem erForwardLookup_ring (host : ByteOrder) (hz now : Int32) (er : ErRing)
    (recvPort : Option PortId) (data : List UInt8) :
    (erForwardLookup host hz now er recvPort data).2 = er ∨
      ∃ p, (erForwardLookup host hz now er recvPort data).2 =
        { er with ring := processRapsFrame host hz now er.ring data p } := by
  unfold erForwardLookup
  simp only [isKeepaliveFrame, isValidRapsFrame, Bool.false_eq_true, if_false, if_true]
  cases recvPort with
  | none =>
    left
    split <;> rfl
  | some p =>
    simp only
    split
    · split
      · exact .inl rfl
      · right
        refine ⟨p, ?_⟩
        split <;> rfl
    · left
      split <;> rfl

/-- So the data path stays among the states the requests reach. -/
theorem Sound.erNetmapOnRecv (host : ByteOrder) (hz now : Int32)
    (learning : List UInt8 → Int → Destination) {er : ErRing} (h : Sound er.ring) (bdgPort : Int)
    (data : List UInt8) :
    Sound (Kernel.erNetmapOnRecv host hz now learning er bdgPort data).2.ring := by
  have hlookup : Sound (erForwardLookup host hz now er (recvPort er bdgPort) data).2.ring := by
    rcases erForwardLookup_ring host hz now er (recvPort er bdgPort) data with heq | ⟨p, heq⟩
    · rw [heq]
      exact h
    · rw [heq]
      rcases processRapsFrame_cases host hz now er.ring data p with hp | hp | ⟨c, hp | hp⟩
      · rw [hp]
        exact h
      · rw [hp]
        exact h.stopGuardTimer
      · rw [hp]
        exact h.handle c
      · rw [hp]
        exact h.stopGuardTimer.handle c
  unfold Kernel.erNetmapOnRecv
  split
  · exact h
  · split
    · rename_i hl
      rw [hl] at hlookup
      exact hlookup
    · rename_i hl
      rw [hl] at hlookup
      exact hlookup

/-! ## Data frames -/

section data

variable {er : ErRing} {data : List UInt8} {bdgPort : Int} {host : ByteOrder} {hz now : Int32}
  {learning : List UInt8 → Int → Destination}

/-- The ingress port, found by its index. -/
theorem recvPort_eq_some_iff (hidx : er.port0Idx ≠ er.port1Idx) {p : PortId} :
    recvPort er bdgPort = some p ↔ er.idx p = bdgPort := by
  unfold recvPort
  cases p with
  | port0 =>
    by_cases h : er.port0Idx = bdgPort
    · simp [h, ErRing.idx]
    · by_cases h' : er.port1Idx = bdgPort <;> simp [h, h', ErRing.idx]
  | port1 =>
    by_cases h : er.port0Idx = bdgPort
    · have h' : er.port1Idx ≠ bdgPort := fun h' => hidx (h.trans h'.symm)
      simp [h, h', ErRing.idx]
    · by_cases h' : er.port1Idx = bdgPort <;> simp [h, h', ErRing.idx]

/-- A data frame is dropped if it came in on a blocked ring port, and is left to the learning switch
otherwise. -/
theorem erNetmapOnRecv_data (hactive : er.active = true) (hdata : isRapsFrame data = false) :
    erNetmapOnRecv host hz now learning er bdgPort data =
      (if (recvPort er bdgPort).any er.blocked then none else some (learning data bdgPort), er) := by
  unfold erNetmapOnRecv erForwardLookup
  simp only [hactive, hdata, isKeepaliveFrame, Bool.not_true, Bool.false_eq_true, if_false]
  cases recvPort er bdgPort with
  | none => rfl
  | some p => cases hb : er.blocked p <;> simp [hb]

/-- No frame crosses a blocked ring port: none leaves through one, and one received on it does not
leave at all. -/
def Contained (er : ErRing) (bdgPort : Int) (out : List Int) : Prop :=
  ∀ p, er.blocked p = true → er.idx p ∉ out ∧ (er.idx p = bdgPort → out = [])

/-- **Data frames and blocked ports.** A data frame is contained exactly when it came in on a blocked
ring port, or no blocked ring port is among the bridge ports the learning switch answers with. -/
theorem dataFrame_contained_iff (hactive : er.active = true) (hidx : er.port0Idx ≠ er.port1Idx)
    (hdata : isRapsFrame data = false) (ports : List Int) :
    Contained er bdgPort
        (leaves ports bdgPort (erNetmapOnRecv host hz now learning er bdgPort data).1) ↔
      (∃ p, er.blocked p = true ∧ er.idx p = bdgPort) ∨
        ∀ p, er.blocked p = true → er.idx p ∉ (learning data bdgPort).leaves ports bdgPort := by
  rw [erNetmapOnRecv_data hactive hdata]
  by_cases hin : ∃ p, er.blocked p = true ∧ er.idx p = bdgPort
  · obtain ⟨p, hb, hp⟩ := hin
    have hrecv := (recvPort_eq_some_iff hidx).mpr hp
    rw [hrecv, if_pos (by simp [hb])]
    constructor
    · intro _
      exact .inl ⟨p, hb, hp⟩
    · intro _ q _
      exact ⟨List.not_mem_nil, fun _ => rfl⟩
  · have hany : (recvPort er bdgPort).any er.blocked = false := by
      cases hrecv : recvPort er bdgPort with
      | none => rfl
      | some p =>
        apply Bool.eq_false_iff.mpr
        intro hb
        exact hin ⟨p, hb, (recvPort_eq_some_iff hidx).mp hrecv⟩
    rw [hany]
    constructor
    · intro h
      exact .inr fun p hb => (h p hb).1
    · intro h
      rcases h with h | h
      · exact absurd h hin
      · intro p hb
        exact ⟨h p hb, fun hp => absurd ⟨p, hb, hp⟩ hin⟩

end data

/-- A fresh node between two bridge ports, active. -/
def bridged (port0Idx port1Idx : Int) (r : Ring Int32) : ErRing := ⟨r, port0Idx, port1Idx, true⟩

/-- An untagged data frame. -/
def dataFrame : List UInt8 := List.replicate 60 0

/-- A data frame that came in on the blocked port is contained. -/
theorem dataFrame_contained_plainNode :
    Contained (bridged 1 2 plainNode) 1
      (leaves [0, 1, 2] 1 (erNetmapOnRecv .little 1000 0 (fun _ _ => .broadcast)
        (bridged 1 2 plainNode) 1 dataFrame).1) :=
  (dataFrame_contained_iff rfl (by decide) (by decide) [0, 1, 2]).mpr (.inl ⟨.port0, by decide, rfl⟩)

/-- A frame from the open port with an unknown destination leaves through the blocked one. -/
theorem dataFrame_contained_counterexample :
    ¬ ∀ (host : ByteOrder) (hz now : Int32) (learning : List UInt8 → Int → Destination)
      (er : ErRing) (bdgPort : Int) (data : List UInt8) (ports : List Int),
      er.active = true → er.port0Idx ≠ er.port1Idx → isRapsFrame data = false →
      Contained er bdgPort
        (leaves ports bdgPort (erNetmapOnRecv host hz now learning er bdgPort data).1) := by
  intro h
  have hc := h .little 1000 0 (fun _ _ => .broadcast) (bridged 1 2 plainNode) 2 dataFrame [0, 1, 2]
    rfl (by decide) (by decide)
  exact (hc .port0 (by decide)).1 (by decide)

/-! ## R-APS frames -/

section raps

variable {er : ErRing} {data : List UInt8} {p : PortId} {host : ByteOrder} {hz now : Int32}
  {learning : List UInt8 → Int → Destination}

/-- The ring after `process_raps_frame` has run on a frame received at `p`. -/
def afterRaps (host : ByteOrder) (hz now : Int32) (er : ErRing) (data : List UInt8) (p : PortId) :
    ErRing :=
  { er with ring := processRapsFrame host hz now er.ring data p }

/-- An R-APS frame received on ring port `p` may pass. -/
def MayPass (host : ByteOrder) (hz now : Int32) (er : ErRing) (data : List UInt8) (p : PortId) :
    Prop :=
  isLocalRapsFrame host data er.ring.cfg.nodeId = false ∧
    ∀ q, (afterRaps host hz now er data p).blocked q = false

/-- The lookup on an R-APS frame, as one condition. -/
theorem erForwardLookup_raps (hraps : isRapsFrame data = true) :
    (erForwardLookup host hz now er (some p) data).1 = true ↔
      MayPass host hz now er data p ∧ er.idx p.other ≠ 0 := by
  unfold erForwardLookup MayPass
  simp only [hraps, isKeepaliveFrame, isValidRapsFrame, Bool.false_eq_true, if_false, if_true,
    ringOtherPort_some]
  cases isLocalRapsFrame host data er.ring.cfg.nodeId with
  | true => simp
  | false =>
    have hall : (∀ q, (afterRaps host hz now er data p).blocked q = false) ↔
        (afterRaps host hz now er data p).blocked p = false ∧
          (afterRaps host hz now er data p).blocked p.other = false := by
      constructor
      · intro h
        exact ⟨h p, h p.other⟩
      · intro h q
        obtain ⟨h, h'⟩ := h
        rcases p.eq_or_eq_other q with rfl | rfl
        · exact h
        · exact h'
    have hother : (afterRaps host hz now er data p).idx p.other = er.idx p.other := by
      cases p <;> rfl
    rw [hall, ← hother]
    show (if !(afterRaps host hz now er data p).blocked p &&
        !(afterRaps host hz now er data p).blocked p.other then _ else _ : Bool × ErRing).1 = true ↔ _
    cases (afterRaps host hz now er data p).blocked p <;>
      cases (afterRaps host hz now er data p).blocked p.other <;> simp [afterRaps]

theorem erNetmapOnRecv_raps (hactive : er.active = true) (hidx : er.port0Idx ≠ er.port1Idx)
    (hraps : isRapsFrame data = true) :
    (MayPass host hz now er data p ∧ er.idx p.other ≠ 0 →
      (erNetmapOnRecv host hz now learning er (er.idx p) data).1 =
        some (learning data (er.idx p))) ∧
    (¬ (MayPass host hz now er data p ∧ er.idx p.other ≠ 0) →
      (erNetmapOnRecv host hz now learning er (er.idx p) data).1 = none) := by
  have hrecv : recvPort er (er.idx p) = some p := (recvPort_eq_some_iff hidx).mpr rfl
  rw [← erForwardLookup_raps hraps]
  unfold erNetmapOnRecv
  rw [hactive, hrecv]
  simp only [Bool.not_true, Bool.false_eq_true, if_false]
  cases hl : erForwardLookup host hz now er (some p) data with
  | mk go er' => cases go <;> simp

/-- An R-APS frame goes on exactly when it may pass, and then to the other ring port alone. -/
def Exact (host : ByteOrder) (hz now : Int32) (learning : List UInt8 → Int → Destination)
    (er : ErRing) (ports : List Int) (data : List UInt8) (p : PortId) : Prop :=
  let out := (erNetmapOnRecv host hz now learning er (er.idx p) data).1
  (out ≠ none ↔ MayPass host hz now er data p) ∧
    (out ≠ none → ∀ i, i ∈ leaves ports (er.idx p) out ↔ i = er.idx p.other)

/-- **R-APS forwarding.** It is exact precisely for the frames that may not pass, and for those whose
other ring port has an index other than 0 and is all the learning switch answers with. -/
theorem rapsFrame_exact_iff (hactive : er.active = true) (hidx : er.port0Idx ≠ er.port1Idx)
    (hraps : isRapsFrame data = true) (ports : List Int) :
    Exact host hz now learning er ports data p ↔
      ¬ MayPass host hz now er data p ∨
        (er.idx p.other ≠ 0 ∧ ∀ i, i ∈ (learning data (er.idx p)).leaves ports (er.idx p) ↔
          i = er.idx p.other) := by
  unfold Exact
  have hout := @erNetmapOnRecv_raps er data p host hz now learning hactive hidx hraps
  by_cases hpass : MayPass host hz now er data p
  · by_cases h0 : er.idx p.other ≠ 0
    · rw [hout.1 ⟨hpass, h0⟩]
      constructor
      · intro h
        obtain ⟨_, hdst⟩ := h
        exact .inr ⟨h0, hdst (by simp)⟩
      · intro h
        rcases h with h | ⟨_, hdst⟩
        · exact absurd hpass h
        · exact ⟨⟨fun _ => hpass, fun _ => by simp⟩, fun _ => hdst⟩
    · rw [hout.2 fun h => h0 h.2]
      constructor
      · intro h
        obtain ⟨hgo, _⟩ := h
        exact absurd rfl (hgo.mpr hpass)
      · intro h
        rcases h with h | ⟨h, _⟩
        · exact absurd hpass h
        · exact absurd h h0
  · rw [hout.2 fun h => hpass h.1]
    constructor
    · intro _
      exact .inl hpass
    · intro _
      exact ⟨⟨fun h => absurd rfl h, fun h => absurd h hpass⟩, fun h => absurd rfl h⟩

end raps

/-- An R-APS message of `node2` with request NR. -/
def nrFrame (flags : UInt8) : List UInt8 :=
  rapsBytes ⟨1, 4093, 0, flags, .nr, 0, node2⟩

/-- A node both ports of which R-APS(NR,RB) has opened. -/
def openNode : Ring Int32 := handle plainNode (.at0 (.fromNode .rapsNrRb .port0 node2))

theorem rapsFrame_exact_openNode :
    Exact .little 1000 0 (fun _ _ => .port 2) (bridged 1 2 openNode) [0, 1, 2] (nrFrame 0) .port0 :=
  (rapsFrame_exact_iff rfl (by decide) (by decide) [0, 1, 2]).mpr
    (.inr ⟨by decide, fun i => by simp [Destination.leaves, bridged, ErRing.idx, PortId.other]⟩)

/-- With the ring ports at bridge indices 0 and 1, a frame from `port1` that may pass is dropped. -/
theorem rapsFrame_exact_counterexample :
    ¬ ∀ (host : ByteOrder) (hz now : Int32) (learning : List UInt8 → Int → Destination)
      (er : ErRing) (ports : List Int) (data : List UInt8) (p : PortId),
      er.active = true → er.port0Idx ≠ er.port1Idx → 0 ≤ er.port0Idx → 0 ≤ er.port1Idx →
      isRapsFrame data = true → Exact host hz now learning er ports data p := by
  intro h
  have he := h .little 1000 0 (fun _ _ => .broadcast) (bridged 0 1 openNode) [0, 1] (nrFrame 0)
    .port1 rfl (by decide) (by decide) (by decide) (by decide)
  have hpass : MayPass .little 1000 0 (bridged 0 1 openNode) (nrFrame 0) .port1 := by
    refine ⟨by decide, fun q => ?_⟩
    cases q <;> decide
  exact he.1.mpr hpass (by decide)

end Erps.Kernel
