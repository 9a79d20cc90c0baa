import Erps.Kernel.Remote
import Erps.Ring.Frame

/-!
# Creating a ring: `er_ioctl`

ERIOCINIT of `/dev/erps`: the checks of the request, `er_ring_create`, and the configuration written
over the new ring. The netmap side of a port is a parameter: `openPort` answers whether a port could
be attached to the bridge, and with which index.

Two things get lost on the way from the request to the frame. The node id stops at the parameter list
of `er_ring_create`, so every ring carries the id of zeros and every node takes the frames of every
other for its own (`peers_mistaken`). And the VID is written to the ring after the ring has been
copied into the nested `er_raps`, which keeps the 4093 it was born with
(`frame_upToDate_iff`).
-/

set_option autoImplicit false

namespace Erps.Kernel

open Bytes

/-! ## The request -/

/-- The part of `struct erreq` that ERIOCINIT uses. -/
structure ErReq where
  erPort0 : List UInt8
  erPort1 : List UInt8
  erNodeId : NodeId
  erId : UInt8
  erRapsVid : UInt16
  erRevertive : UInt8
  erRplPort : UInt16
  erRplOwner : UInt8
  erRplNeighbour : UInt8
  deriving DecidableEq, Repr

/-- "validate RPL configuration" -/
def validRpl (req : ErReq) : Bool :=
  if req.erRplOwner ≠ 0 ∧ req.erRplNeighbour ≠ 0 then false
  else if req.erRplOwner = 0 ∧ req.erRplNeighbour = 0 then
    decide (req.erRplPort = erpsRplNone.toUInt16)
  else decide (req.erRplPort ≠ erpsRplNone.toUInt16)

/-- The range check of `raps_vid`. -/
def rapsVidOf (vid : UInt16) : Nat :=
  if vid.toNat ≤ 0 ∨ vid.toNat ≥ 4094 then 2000 else vid.toNat

/-- `er_ring_create` with its ports. `node_id` is among its parameters and nowhere in its body. -/
def erRingCreatePorts (openPort : PortId → List UInt8 → Option Int) (now : Int32)
    (ringId : UInt16) (port0Name port1Name : List UInt8) (rplOwner rplNeighbour : UInt8)
    (_nodeId : NodeId) : Option ErRing :=
  match openPort .port0 port0Name with
  | none => none
  | some port0Idx =>
    match openPort .port1 port1Name with
    | none => none
    | some port1Idx =>
      some { ring := erRingCreate now ringId rplOwner rplNeighbour
             port0Idx := port0Idx
             port1Idx := port1Idx
             active := false }

/-- `er_activate_ring`. -/
def erActivateRing (er : ErRing) : ErRing := { er with active := true }

/-- ERIOCINIT: the new value of `er_global`, or `none` for `EINVAL`. `er_global` is what
`er_lookup_ring` returns for any id. -/
def erIoctlInit (openPort : PortId → List UInt8 → Option Int) (now : Int32)
    (erGlobal : Option ErRing) (req : ErReq) : Option ErRing :=
  if erGlobal.isSome then none
  else if !validRpl req then none
  else
    -- both are `uint8_t`, the port of the request is not
    let rplOwnerPort := if req.erRplOwner ≠ 0 then req.erRplPort.toUInt8 else erpsRplNone
    let rplNeighbourPort := if req.erRplNeighbour ≠ 0 then req.erRplPort.toUInt8 else erpsRplNone
    match erRingCreatePorts openPort now req.erId.toUInt16 req.erPort0 req.erPort1 rplOwnerPort
        rplNeighbourPort req.erNodeId with
    | none => none
    | some er =>
      let version := if er.ring.cfg.version = 0 then 2 else er.ring.cfg.version
      let ring := configure er.ring version (rapsVidOf req.erRapsVid)
        (decide (req.erRevertive ≠ 0))
      some (erActivateRing { er with ring := ring })

/-! ## Rings made by a request -/

/-- The ring of a successful ERIOCINIT. -/
def Initialised (req : ErReq) (r : Ring Int32) : Prop :=
  ∃ openPort now er, erIoctlInit openPort now none req = some er ∧ r = er.ring

/-- The arguments of the `er_ring_create` behind it. -/
theorem Initialised.exists_create {req : ErReq} {r : Ring Int32} (h : Initialised req r) :
    ∃ now, r = configure (erRingCreate now req.erId.toUInt16
        (if req.erRplOwner ≠ 0 then req.erRplPort.toUInt8 else erpsRplNone)
        (if req.erRplNeighbour ≠ 0 then req.erRplPort.toUInt8 else erpsRplNone)) 2
      (rapsVidOf req.erRapsVid) (decide (req.erRevertive ≠ 0)) := by
  obtain ⟨openPort, now, er, h, rfl⟩ := h
  unfold erIoctlInit at h
  rw [if_neg (by simp)] at h
  split at h
  · cases h
  · simp only at h
    split at h
    · cases h
    · rename_i er' hcreate
      unfold erRingCreatePorts at hcreate
      split at hcreate
      · cases hcreate
      · split at hcreate
        · cases hcreate
        · cases hcreate
          cases h
          refine ⟨now, ?_⟩
          rw [erRingCreate_eq]
          rfl

theorem Initialised.init {req : ErReq} {r : Ring Int32} (h : Initialised req r) :
    requests.init r := by
  obtain ⟨now, rfl⟩ := h.exists_create
  exact ⟨now, _, _, _, _, _, _, rfl⟩

/-- The life of the ring a request has made: any calls and any frames. -/
def afterInit (host : ByteOrder) (hz : Int32) (req : ErReq) : Lts (Ring Int32) Arrival where
  init := Initialised req
  step r a r' := r' = receive host hz r a

/-! ## What the frame buffer spells -/

theorem start_raps (tx : Transmission) (request : RapsRequest) (flags : UInt8) :
    (tx.start request flags).raps = { tx.raps with request := request, flags := flags } := by
  unfold Transmission.start
  split
  · rfl
  · rename_i h
    simp only [ne_eq, not_or, not_not] at h
    obtain ⟨rfl, rfl⟩ := h
    rfl

/-- The addressing of every frame of the ring: the parts of `er_raps` that `er_ring_create` copies
from the ring, and that nothing touches again. -/
structure Addressed (r : Ring Int32) (ringId : UInt8) : Prop where
  nodeId : r.cfg.nodeId = .zero
  framed : r.Framed
  raps : r.tx.raps = ⟨ringId, 4093, 0, r.tx.raps.flags, r.tx.raps.request, 0, .zero⟩

namespace Addressed

variable {r : Ring Int32} {ringId : UInt8} {req : ErReq}

/-- The first `start_tx`, that of row 01, encodes the whole buffer. -/
theorem create (now : Int32) (id : UInt8) (rplOwner rplNeighbour : UInt8) :
    Addressed (erRingCreate now id.toUInt16 rplOwner rplNeighbour) id := by
  have htx : (erRingCreate now id.toUInt16 rplOwner rplNeighbour).tx =
      (ringBlank id.toUInt16 rplOwner rplNeighbour).tx.start .nr 0 := by
    rw [erRingCreate_eq]
    rfl
  have hnode : (erRingCreate now id.toUInt16 rplOwner rplNeighbour).cfg.nodeId = .zero := by
    rw [erRingCreate_eq]
    rfl
  have hsized : (ringBlank id.toUInt16 rplOwner rplNeighbour).tx.Sized .zero :=
    ⟨rfl, rfl, rfl, rfl⟩
  refine ⟨hnode, ?_, ?_⟩
  · unfold Ring.Framed
    rw [hnode, htx]
    exact hsized.start (by simp) (.inr (by simp [ringBlank]))
  · rw [htx, start_raps]
    simp [ringBlank]

theorem init (h : Initialised req r) : Addressed r req.erId := by
  obtain ⟨now, rfl⟩ := h.exists_create
  have hc := create now req.erId
    (if req.erRplOwner ≠ 0 then req.erRplPort.toUInt8 else erpsRplNone)
    (if req.erRplNeighbour ≠ 0 then req.erRplPort.toUInt8 else erpsRplNone)
  exact ⟨hc.nodeId, hc.framed, hc.raps⟩

theorem advance (h : Addressed r ringId) (now : Int32) (req : RingRequest) (port : Option PortId)
    (remote : Option NodeId) : Addressed (r.advance now req port remote) ringId := by
  refine ⟨h.nodeId, h.framed.advance now req port remote, ?_⟩
  rw [Ring.advance_tx]
  cases (r.effect req port remote).tx with
  | keep | stop => exact h.raps
  | start request flags =>
    show (r.tx.start request flags).raps = ⟨ringId, 4093, 0, (r.tx.start request flags).raps.flags,
      (r.tx.start request flags).raps.request, 0, .zero⟩
    rw [start_raps, h.raps]

theorem stopGuardTimer (h : Addressed r ringId) : Addressed r.stopGuardTimer ringId :=
  ⟨h.nodeId, h.framed, h.raps⟩

theorem handle (h : Addressed r ringId) (hc : Coherent r) (c : Call) :
    Addressed (handle r c) ringId := by
  rcases handle_cases hc c with heq | ⟨_, heq⟩
  · rw [heq]
    exact h
  · rw [heq]
    exact h.advance _ _ _ _

theorem of_reachable {host : ByteOrder} {hz : Int32} (h : (afterInit host hz req).Reachable r) :
    Addressed r req.erId := by
  have hall : Sound r ∧ Addressed r req.erId := by
    refine h.invariant (I := fun r => Sound r ∧ Addressed r req.erId) ?_ ?_
    · intro s hs
      exact ⟨Sound.init (Initialised.init hs), Addressed.init hs⟩
    · intro s a t _ hs hst
      obtain ⟨hd, hs⟩ := hs
      rw [hst]
      cases a with
      | call c => exact ⟨hd.handle c, hs.handle hd.coherent c⟩
      | frame now data origin =>
        show Sound (processRapsFrame host hz now s data origin) ∧
          Addressed (processRapsFrame host hz now s data origin) req.erId
        rcases processRapsFrame_cases host hz now s data origin with h | h | ⟨c, h | h⟩
        · rw [h]
          exact ⟨hd, hs⟩
        · rw [h]
          exact ⟨hd.stopGuardTimer, hs.stopGuardTimer⟩
        · rw [h]
          exact ⟨hd.handle c, hs.handle hd.coherent c⟩
        · rw [h]
          exact ⟨hd.stopGuardTimer.handle c, hs.stopGuardTimer.handle hd.stopGuardTimer.coherent c⟩
  exact hall.2

/-- Whatever `start_tx` is asked for is in the buffer afterwards. -/
theorem startTx_rapsFrame (h : Addressed r ringId) (request : RapsRequest) (flags : UInt8) :
    (r.startTx request flags).tx.rapsFrame =
      rapsBytes ⟨ringId, 4093, 0, flags, request, 0, .zero⟩ := by
  have hraps : (r.tx.start request flags).raps = ⟨ringId, 4093, 0, flags, request, 0, .zero⟩ := by
    rw [start_raps, h.raps]
  rw [← hraps]
  show (r.tx.start request flags).rapsFrame = _
  by_cases hne : r.tx.raps.request ≠ request ∨ r.tx.raps.flags ≠ flags
  · unfold Transmission.start
    rw [if_pos hne]
    have hlen : 55 ≤ r.tx.rapsFrameLen := by rw [h.framed.frameLen]
    have hdrop : r.tx.rapsFrame.drop 55 = [] :=
      List.drop_of_length_le (by rw [h.framed.sized.frame_length])
    simp only [rapsEncode_eq _ _ hlen, hdrop, List.append_nil]
  · unfold Transmission.start
    rw [if_neg hne]
    exact h.framed.frame

end Addressed

/-! ## Node ids -/

/-- A frame of the ring `r`, received at the node of `er`, is told apart from the node's own. -/
structure ToldApart (host : ByteOrder) (data : List UInt8) (r : Ring Int32) (er : ErRing) :
    Prop where
  foreign : isLocalRapsFrame host data er.ring.cfg.nodeId = false
  own : isLocalRapsFrame host data r.cfg.nodeId = true
  processed : ∀ hz now p, (erForwardLookup host hz now er (some p) data).2.ring =
    processRapsFrame host hz now er.ring data p

/-- **Peers are mistaken for self**, whatever ids they were given: no frame that a ring encodes is
told apart by any other, and every one is dropped there. -/
theorem peers_mistaken {host₁ host₂ : ByteOrder} {hz₁ hz₂ : Int32} {req₁ req₂ : ErReq}
    {r : Ring Int32} {er : ErRing} (h₁ : (afterInit host₁ hz₁ req₁).Reachable r)
    (h₂ : (afterInit host₂ hz₂ req₂).Reachable er.ring) (request : RapsRequest) (flags : UInt8) :
    ¬ ToldApart host₂ (r.startTx request flags).tx.rapsFrame r er ∧
      ∀ hz now p, erForwardLookup host₂ hz now er (some p) (r.startTx request flags).tx.rapsFrame =
        (false, er) := by
  have hnode : er.ring.cfg.nodeId = .zero := (Addressed.of_reachable h₂).nodeId
  have hlocal : isLocalRapsFrame host₂ (r.startTx request flags).tx.rapsFrame
      er.ring.cfg.nodeId = true := by
    rw [(Addressed.of_reachable h₁).startTx_rapsFrame, isLocalRapsFrame_rapsBytes, hnode]
  constructor
  · intro h
    have hforeign := h.foreign
    rw [hlocal] at hforeign
    cases hforeign
  · intro hz now p
    have hraps : isRapsFrame (r.startTx request flags).tx.rapsFrame = true := by
      rw [(Addressed.of_reachable h₁).startTx_rapsFrame]
      exact isRapsFrame_rapsBytes _
    simp [erForwardLookup, isKeepaliveFrame, isValidRapsFrame, hraps, hlocal]

/-- A request for a plain node `00:00:00:00:00:n` with this VID. -/
def plainReq (n : UInt8) (vid : UInt16) : ErReq where
  erPort0 := []
  erPort1 := []
  erNodeId := .ofBytes [0, 0, 0, 0, 0, n] 0
  erId := 1
  erRapsVid := vid
  erRevertive := 1
  erRplPort := 0
  erRplOwner := 0
  erRplNeighbour := 0

/-- The ports of these nodes have the bridge indices 1 and 2. -/
def plainPorts : PortId → List UInt8 → Option Int
  | .port0, _ => some 1
  | .port1, _ => some 2

/-- The ring of such a request. -/
def plainRing (vid : UInt16) : Ring Int32 :=
  configure (erRingCreate 0 1 erpsRplNone erpsRplNone) 2 (rapsVidOf vid) true

theorem erIoctlInit_plainReq (n : UInt8) (vid : UInt16) :
    erIoctlInit plainPorts 0 none (plainReq n vid) = some ⟨plainRing vid, 1, 2, true⟩ := by
  rfl

theorem initialised_plainReq (n : UInt8) (vid : UInt16) :
    Initialised (plainReq n vid) (plainRing vid) :=
  ⟨plainPorts, 0, _, erIoctlInit_plainReq n vid, rfl⟩

/-- The R-APS(SF) of node 1 at node 2. -/
theorem peers_mistaken_plainReq :
    erForwardLookup .little 1000 0 ⟨plainRing 100, 1, 2, true⟩ (some .port0)
      ((plainRing 100).startTx .sf 0).tx.rapsFrame = (false, ⟨plainRing 100, 1, 2, true⟩) :=
  (@peers_mistaken .little .little 1000 1000 _ _ _ ⟨plainRing 100, 1, 2, true⟩
    (.init (initialised_plainReq 1 100)) (.init (initialised_plainReq 2 100)) .sf 0).2 1000 0 .port0

/-- Nodes 1 and 2 are not told apart. -/
theorem peers_mistaken_counterexample :
    ¬ ∀ (host₁ host₂ : ByteOrder) (hz₁ hz₂ : Int32) (req₁ req₂ : ErReq) (r : Ring Int32)
      (er : ErRing) (request : RapsRequest) (flags : UInt8), req₁.erNodeId ≠ req₂.erNodeId →
      (afterInit host₁ hz₁ req₁).Reachable r → (afterInit host₂ hz₂ req₂).Reachable er.ring →
      ToldApart host₂ (r.startTx request flags).tx.rapsFrame r er := by
  intro h
  have ht := h .little .little 1000 1000 (plainReq 1 100) (plainReq 2 100) (plainRing 100)
    ⟨plainRing 100, 1, 2, true⟩ .sf 0 (by simp [plainReq, NodeId.ofBytes]) (.init (initialised_plainReq 1 100))
    (.init (initialised_plainReq 2 100))
  cases ht.foreign

/-! ## The frame buffer -/

/-- The request and the flags of the most recent `start_tx`, after a call. A row calls it at most
once. -/
def startedBy (r : Ring Int32) (c : Call) (last : RapsRequest × UInt8) : RapsRequest × UInt8 :=
  if r.accepts c.req.request ∧ r.isDupe c.req.request c.req.port c.req.remoteNodeId = false ∧
      r.isImpossibleDupe c.req.request = false then
    match (r.effect c.req.request c.req.port c.req.remoteNodeId).tx with
    | .start request flags => (request, flags)
    | _ => last
  else last

/-- A ring made by `req`, next to the arguments of its most recent `start_tx`: first those of
row 01. -/
def announcing (req : ErReq) : Lts (Ring Int32 × (RapsRequest × UInt8)) Call where
  init s := Initialised req s.1 ∧ s.2 = (.nr, 0)
  step s c s' := s' = (handle s.1 c, startedBy s.1 c s.2)

/-- The buffer is the encoding of the ring's own fields and of this request and these flags. -/
def UpToDate (r : Ring Int32) (last : RapsRequest × UInt8) : Prop :=
  r.tx.rapsFrame = rapsBytes
    { ringId := UInt8.ofNat r.cfg.ringId
      vid := UInt16.ofNat r.cfg.rapsVid
      version := 0
      flags := last.2
      request := last.1
      subcode := 0
      nodeId := r.cfg.nodeId }

/-- What a run keeps. -/
structure Announcing (req : ErReq) (r : Ring Int32) (last : RapsRequest × UInt8) : Prop where
  sound : Sound r
  addressed : Addressed r req.erId
  ringId : r.cfg.ringId = req.erId.toNat
  rapsVid : r.cfg.rapsVid = rapsVidOf req.erRapsVid
  last : last = (r.tx.raps.request, r.tx.raps.flags)

namespace Announcing

variable {req : ErReq} {r : Ring Int32} {last : RapsRequest × UInt8}

theorem init (h : Initialised req r) : Announcing req r (.nr, 0) := by
  refine ⟨.init h.init, .init h, ?_, ?_, ?_⟩
  · obtain ⟨now, rfl⟩ := h.exists_create
    rw [erRingCreate_eq]
    show req.erId.toUInt16.toNat = req.erId.toNat
    simp
  · obtain ⟨now, rfl⟩ := h.exists_create
    rw [erRingCreate_eq]
    rfl
  · obtain ⟨now, rfl⟩ := h.exists_create
    rw [erRingCreate_eq]
    rfl

theorem handle (h : Announcing req r last) (c : Call) :
    Announcing req (handle r c) (startedBy r c last) := by
  have hp := processed h.sound.coherent c.now c.req
  have hs := h.sound.handle c
  have ha := h.addressed.handle h.sound.coherent c
  rcases h.sound.coherent.processed_cases hp with ⟨hn, heq⟩ | ⟨ht, heq⟩
  · have heq : Kernel.handle r c = r := heq
    have hlast : startedBy r c last = last := by
      unfold startedBy
      rw [if_neg (fun h => hn ⟨h.1, h.2.1, h.2.2⟩)]
    rw [hlast]
    rw [heq] at hs ha ⊢
    exact ⟨hs, ha, h.ringId, h.rapsVid, h.last⟩
  · have heq : Kernel.handle r c =
        r.advance c.now c.req.request c.req.port c.req.remoteNodeId := heq
    rw [heq] at hs ha ⊢
    refine ⟨hs, ha, h.ringId, h.rapsVid, ?_⟩
    unfold startedBy
    rw [if_pos ⟨ht.accepts, ht.not_dupe, ht.not_impossible⟩, Ring.advance_tx]
    cases (r.effect c.req.request c.req.port c.req.remoteNodeId).tx with
    | keep | stop => exact h.last
    | start request flags => simp [TxEffect.apply]

theorem of_reachable (h : (announcing req).Reachable (r, last)) : Announcing req r last := by
  refine h.invariant (I := fun s => Announcing req s.1 s.2) ?_ ?_
  · intro s hs
    obtain ⟨hi, hl⟩ := hs
    rw [hl]
    exact .init hi
  · intro s c t _ hs hst
    rw [hst]
    exact hs.handle c

end Announcing

/-- The VID can be read off a frame. -/
theorem vid_of_rapsBytes_eq {a b : Raps} (h : rapsBytes a = rapsBytes b) : a.vid = b.vid := by
  obtain ⟨a₀, a₁, a₂, a₃, a₄, a₅, ha⟩ := a.nodeId.exists_bytes
  obtain ⟨b₀, b₁, b₂, b₃, b₄, b₅, hb⟩ := b.nodeId.exists_bytes
  simp only [rapsBytes, ha, hb, List.cons_append, List.nil_append, List.cons.injEq] at h
  obtain ⟨_, _, _, _, _, _, _, _, _, _, _, _, _, _, hhigh, hlow, _⟩ := h
  apply UInt16.toNat_inj.mp
  have hhigh := congrArg UInt8.toNat hhigh
  have hlow := congrArg UInt8.toNat hlow
  simp only [UInt16.toNat_toUInt8, UInt16.toNat_shiftRight, UInt16.reduceToNat, Nat.reducePow,
    Nat.reduceMod, Nat.shiftRight_eq_div_pow] at hhigh hlow
  have ha := a.vid.toNat_lt
  have hb := b.vid.toNat_lt
  omega

/-- **The frame buffer is up to date** in every reachable state, transmitting or not, exactly if the
VID that was asked for is the one rings are born with. -/
theorem frame_upToDate_iff {req : ErReq} {r : Ring Int32} {last : RapsRequest × UInt8}
    (h : (announcing req).Reachable (r, last)) : UpToDate r last ↔ req.erRapsVid = 4093 := by
  have ha := Announcing.of_reachable h
  have hframe : r.tx.rapsFrame = rapsBytes ⟨req.erId, 4093, 0, last.2, last.1, 0, .zero⟩ := by
    rw [ha.addressed.framed.frame, ha.addressed.raps, ha.last]
  have hring : UInt8.ofNat r.cfg.ringId = req.erId := by
    rw [ha.ringId]
    exact UInt8.ofNat_toNat
  unfold UpToDate
  rw [hframe, hring, ha.rapsVid, ha.addressed.nodeId]
  constructor
  · intro heq
    have hvid : (4093 : UInt16) = UInt16.ofNat (rapsVidOf req.erRapsVid) := vid_of_rapsBytes_eq heq
    unfold rapsVidOf at hvid
    split at hvid
    · exact absurd hvid (by decide)
    · rw [hvid]
      exact (UInt16.ofNat_toNat).symm
  · intro hvid
    rw [hvid]
    rfl

/-- A node on VID 4093 that has announced a failure. -/
theorem frame_upToDate_plainReq :
    UpToDate (handle (plainRing 4093) (.at0 (.onPort .sf .port1 rfl))) (.sf, 0) := by
  have hinit : (announcing (plainReq 1 4093)).Reachable (plainRing 4093, (.nr, 0)) :=
    .init ⟨initialised_plainReq 1 4093, rfl⟩
  have hr : (announcing (plainReq 1 4093)).Reachable
      (handle (plainRing 4093) (.at0 (.onPort .sf .port1 rfl)), (.sf, 0)) :=
    hinit.step (e := .at0 (.onPort .sf .port1 rfl)) rfl
  exact (frame_upToDate_iff hr).mpr rfl

/-- A node on VID 100 announces itself on VID 4093. -/
theorem frame_upToDate_counterexample :
    ¬ ∀ (req : ErReq) (r : Ring Int32) (last : RapsRequest × UInt8),
      (announcing req).Reachable (r, last) → r.tx.isSendingRaps = true → UpToDate r last := by
  intro h
  have hr : (announcing (plainReq 1 100)).Reachable (plainRing 100, (.nr, 0)) :=
    .init ⟨initialised_plainReq 1 100, rfl⟩
  have hu := h _ _ _ hr (by simp [plainRing, configure, erRingCreate_eq, Ring.started, Effect.apply,
    Ring.initEffect, TxEffect.apply])
  have hvid := (frame_upToDate_iff hr).mp hu
  cases hvid

end Erps.Kernel
