import Erps.Lib.Lts
import Erps.Kernel.Ioctl

/-!
# Frames of other rings

A frame belongs to another ring if octet 5 of its destination address is not the ring's id, or if it
is tagged with a VID that is not the ring's. `er_is_raps_frame` compares the other five octets,
`er_is_valid_raps_frame` compares nothing, and `er_raps_parse` notes that a "previous function verified"
both.

So a foreign frame is treated like any other, and leaves the ring as it is exactly where any other
would: where it is no R-APS frame, is dropped as local or held back by the guard timer, or asks for
nothing the state machine takes (`foreign_frames`).
-/

set_option autoImplicit false

namespace Erps.Kernel

open Bytes

/-! ## Foreign frames -/

/-- The 802.1Q VID, the low 12 bits behind the tag. -/
def vidOf (data : List UInt8) : Option Nat :=
  if data.getD 12 0 = 0x81 ∧ data.getD 13 0 = 0x00 then
    some (((data.getD 14 0).toNat * 256 + (data.getD 15 0).toNat) % 4096)
  else none

/-- The frame is of another ring than this one. -/
def isForeign (ringId rapsVid : Nat) (data : List UInt8) : Bool :=
  decide ((data.getD 5 0).toNat ≠ ringId) || (vidOf data).any fun vid => decide (vid ≠ rapsVid)

/-- A frame received on a ring port. -/
structure Reception where
  now : Int32
  port : PortId
  data : List UInt8

/-- The record after `er_forward_lookup`. -/
def lookup (host : ByteOrder) (hz : Int32) (er : ErRing) (f : Reception) : ErRing :=
  (erForwardLookup host hz f.now er (some f.port) f.data).2

/-! ## What a frame can change -/

/-- "R-APS blocked by guard timer" -/
def guardHolds (hz now : Int32) (r : Ring Int32) : Bool :=
  r.timers.guard.active && decide (tickDiffMsec hz now r.timers.guard.activeSince < 500)

/-- The frame asks for something the state machine takes. -/
def Asks (host : ByteOrder) (r : Ring Int32) (data : List UInt8) (port : PortId) : Prop :=
  ∃ raps request, rapsParse host data = some raps ∧ raps.ringRequest = some request ∧
    r.Takes request (some port) (some raps.nodeId)

/-- The frame has nothing to say to the ring. -/
inductive Inert (host : ByteOrder) (hz : Int32) (r : Ring Int32) (f : Reception) : Prop
  | notRaps (h : isRapsFrame f.data = false)
  | own (h : isLocalRapsFrame host f.data r.cfg.nodeId = true)
  | held (h : guardHolds hz f.now r = true)
  | refused (hg : r.timers.guard.active = false) (h : ¬ Asks host r f.data f.port)

variable {host : ByteOrder} {hz : Int32}

theorem lookup_eq (er : ErRing) (f : Reception) :
    lookup host hz er f =
      if isRapsFrame f.data && !isLocalRapsFrame host f.data er.ring.cfg.nodeId then
        { er with ring := processRapsFrame host hz f.now er.ring f.data f.port }
      else er := by
  unfold lookup erForwardLookup
  simp only [isKeepaliveFrame, isValidRapsFrame, Bool.false_eq_true, if_false, if_true]
  cases isRapsFrame f.data with
  | false =>
    simp only [Bool.false_and, Bool.false_eq_true, if_false]
    split <;> rfl
  | true =>
    cases isLocalRapsFrame host f.data er.ring.cfg.nodeId with
    | true => rfl
    | false =>
      simp only [Bool.not_false, Bool.and_self, if_true, Bool.false_eq_true, if_false]
      split <;> rfl

/-- A request of another node that is taken is not the previous one over again. -/
theorem prev_ne_of_takes {r : Ring Int32} {request : RingRequest} {port : Option PortId}
    {id : NodeId} (hraps : request.isRaps = true) (ht : r.Takes request port (some id)) :
    ¬ (r.prev.request = request ∧ r.prev.remoteNodeId = id) := by
  rintro ⟨hreq, hid⟩
  have hdupe := ht.not_dupe
  cases request <;> simp [RingRequest.isRaps] at hraps <;>
    simp [Ring.isDupe, hreq, hid, NodeId.memcmp_eq_zero_iff] at hdupe

/-- It becomes the previous request. -/
theorem prev_advance_ne {r : Ring Int32} {request : RingRequest} {port : Option PortId}
    {id : NodeId} (hraps : request.isRaps = true) (ht : r.Takes request port (some id))
    (now : Int32) : (r.advance now request port (some id)).prev ≠ r.prev := by
  intro heq
  refine prev_ne_of_takes hraps ht ⟨?_, ?_⟩
  · rw [← heq, Ring.advance_prev_request]
  · rw [← heq, Ring.advance_prev_remoteNodeId]
    rfl

theorem prev_processRequest {r : Ring Int32} (hc : Coherent r) {q : Request}
    (hraps : q.request.isRaps = true) (now : Int32) :
    (r.Takes q.request q.port q.remoteNodeId ∧
        (ringProcessRequest r now q.request q.port q.remoteNodeId).prev ≠ r.prev) ∨
      (¬ r.Takes q.request q.port q.remoteNodeId ∧
        ringProcessRequest r now q.request q.port q.remoteNodeId = r) := by
  rcases hc.processed_cases (processed hc now q) with ⟨hn, heq⟩ | ⟨ht, heq⟩
  · exact .inr ⟨hn, heq⟩
  · refine .inl ⟨ht, ?_⟩
    rw [heq]
    obtain ⟨id, hid⟩ := Option.isSome_iff_exists.mp (q.remoteNodeId_isSome hraps)
    rw [hid] at ht ⊢
    exact prev_advance_ne hraps ht now

/-- The rest of `process_raps_frame`, past the guard timer. -/
def processHeard (host : ByteOrder) (now : Int32) (r : Ring Int32) (data : List UInt8)
    (origin : PortId) : Ring Int32 :=
  match rapsParse host data with
  | none => r
  | some raps =>
    match raps.ringRequest with
    | none => r
    | some request => ringProcessRequest r now request (some origin) (some raps.nodeId)

theorem processRapsFrame_eq (r : Ring Int32) (now : Int32) (data : List UInt8) (port : PortId) :
    processRapsFrame host hz now r data port =
      if guardHolds hz now r then r
      else processHeard host now (if r.timers.guard.active then r.stopGuardTimer else r) data port :=
  rfl

theorem processHeard_cases {r : Ring Int32} (hc : Coherent r) (now : Int32) (data : List UInt8)
    (port : PortId) :
    (Asks host r data port ∧ (processHeard host now r data port).prev ≠ r.prev) ∨
      (¬ Asks host r data port ∧ processHeard host now r data port = r) := by
  unfold processHeard
  cases hp : rapsParse host data with
  | none =>
    refine .inr ⟨?_, rfl⟩
    intro h
    obtain ⟨raps, request, hraps, _⟩ := h
    rw [hp] at hraps
    cases hraps
  | some raps =>
    simp only
    cases hq : raps.ringRequest with
    | none =>
      refine .inr ⟨?_, rfl⟩
      intro h
      obtain ⟨raps', request, hraps, hreq, _⟩ := h
      rw [hp, Option.some.injEq] at hraps
      subst hraps
      rw [hq] at hreq
      cases hreq
    | some request =>
      simp only
      rcases prev_processRequest hc (q := .fromNode request port raps.nodeId)
        (Raps.isRaps_of_ringRequest hq) now with ⟨ht, hprev⟩ | ⟨hn, heq⟩
      · exact .inl ⟨⟨raps, request, hp, hq, ht⟩, hprev⟩
      · refine .inr ⟨?_, heq⟩
        intro h
        obtain ⟨raps', request', hraps, hreq, ht⟩ := h
        rw [hp, Option.some.injEq] at hraps
        subst hraps
        rw [hq, Option.some.injEq] at hreq
        subst hreq
        exact hn ht

/-- A frame that gets past the guard timer clears it, and is dropped or taken. -/
theorem processRapsFrame_eq_iff {r : Ring Int32} (hc : Coherent r) (now : Int32)
    (data : List UInt8) (port : PortId) :
    processRapsFrame host hz now r data port = r ↔
      guardHolds hz now r = true ∨ (r.timers.guard.active = false ∧ ¬ Asks host r data port) := by
  rw [processRapsFrame_eq]
  cases hheld : guardHolds hz now r with
  | true => simp
  | false =>
    simp only [Bool.false_eq_true, if_false, false_or]
    cases hg : r.timers.guard.active with
    | true =>
      have hne : r.stopGuardTimer ≠ r := by
        intro heq
        have hactive := congrArg (fun r => r.timers.guard.active) heq
        rw [hg] at hactive
        cases hactive
      have hc' : Coherent r.stopGuardTimer := hc.congr r.alike_stopGuardTimer
      simp only [if_true, Bool.true_eq_false, false_and, iff_false]
      intro hr
      rcases @processHeard_cases host _ hc' now data port with ⟨_, hprev⟩ | ⟨_, heq⟩
      · have hsame := congrArg Ring.prev hr
        exact hprev hsame
      · exact hne (heq.symm.trans hr)
    | false =>
      simp only [Bool.false_eq_true, if_false, true_and]
      rcases @processHeard_cases host _ hc now data port with ⟨hasks, hprev⟩ | ⟨hn, heq⟩
      · constructor
        · intro hr
          exact absurd (congrArg Ring.prev hr) hprev
        · intro hn
          exact absurd hasks hn
      · exact ⟨fun _ => hn, fun _ => heq⟩

/-- **Which frames leave the ring alone.** -/
theorem lookup_eq_self_iff {er : ErRing} (hc : Coherent er.ring) (f : Reception) :
    (lookup host hz er f).ring = er.ring ↔ Inert host hz er.ring f := by
  rw [lookup_eq]
  cases hraps : isRapsFrame f.data with
  | false =>
    simp only [Bool.false_and, Bool.false_eq_true, if_false, true_iff]
    exact .notRaps hraps
  | true =>
    cases hlocal : isLocalRapsFrame host f.data er.ring.cfg.nodeId with
    | true =>
      simp only [Bool.not_true, Bool.and_false, Bool.false_eq_true, if_false, true_iff]
      exact .own hlocal
    | false =>
      simp only [Bool.not_false, Bool.and_self, if_true]
      rw [processRapsFrame_eq_iff hc]
      constructor
      · intro h
        rcases h with h | ⟨hg, h⟩
        · exact .held h
        · exact .refused hg h
      · intro h
        cases h with
        | notRaps h => exact absurd hraps (by simp [h])
        | own h => exact absurd hlocal (by simp [h])
        | held h => exact .inl h
        | refused hg h => exact .inr ⟨hg, h⟩

/-! ## Sequences of frames -/

/-- The frames that a ring of this id and VID takes for its own. -/
def native (er : ErRing) (f : Reception) : Bool :=
  !isForeign er.ring.cfg.ringId er.ring.cfg.rapsVid f.data

/-- Each foreign frame of a sequence has nothing to say to the ring it finds. -/
def ForeignInert (host : ByteOrder) (hz : Int32) (own : Reception → Bool) :
    ErRing → List Reception → Prop
  | _, [] => True
  | er, f :: fs => (own f = false → Inert host hz er.ring f) ∧
      ForeignInert host hz own (lookup host hz er f) fs

/-- The states of the ring record after each of its own frames. -/
def states (host : ByteOrder) (hz : Int32) (er : ErRing) (fs : List Reception) : List (Ring Int32) :=
  (Purge.trace (lookup host hz) (native er) er fs).map ErRing.ring

theorem lookup_reachable {er : ErRing} (h : (arrivals host hz).Reachable er.ring) (f : Reception) :
    (arrivals host hz).Reachable (lookup host hz er f).ring := by
  rw [lookup_eq]
  split
  · exact h.step (e := .frame f.now f.data f.port) rfl
  · exact h

theorem lookup_of_inert {er : ErRing} (hc : Coherent er.ring) {f : Reception}
    (h : Inert host hz er.ring f) : lookup host hz er f = er := by
  have hring := (lookup_eq_self_iff hc f).mpr h
  rw [lookup_eq] at hring ⊢
  split
  · rename_i hp
    rw [if_pos hp] at hring
    have hring : processRapsFrame host hz f.now er.ring f.data f.port = er.ring := hring
    rw [hring]
  · rfl

theorem inert_of_foreignInert {own : Reception → Bool} {er : ErRing} {fs : List Reception}
    (hr : (arrivals host hz).Reachable er.ring) (h : ForeignInert host hz own er fs) :
    Purge.Inert (lookup host hz) own er fs := by
  induction fs generalizing er with
  | nil => trivial
  | cons f fs ih =>
    obtain ⟨hf, hfs⟩ := h
    refine ⟨fun ho => ?_, ih (lookup_reachable hr f) hfs⟩
    obtain ⟨⟨hc, _⟩, _⟩ := arrivals_sound hr
    exact lookup_of_inert hc (hf ho)

/-- **Frames of other rings.** A foreign frame leaves the ring record as it is exactly if it has
nothing to say to it, and two sequences of frames that differ only in such frames take the ring
through the same states. -/
theorem foreign_frames {er : ErRing} (hr : (arrivals host hz).Reachable er.ring) :
    (∀ f, native er f = false →
      ((lookup host hz er f).ring = er.ring ↔ Inert host hz er.ring f)) ∧
    (∀ fs gs, fs.filter (native er) = gs.filter (native er) →
      ForeignInert host hz (native er) er fs → ForeignInert host hz (native er) er gs →
      states host hz er fs = states host hz er gs) := by
  obtain ⟨⟨hc, _⟩, _⟩ := arrivals_sound hr
  constructor
  · intro f _
    exact lookup_eq_self_iff hc f
  · intro fs gs heq hfs hgs
    unfold states
    rw [Purge.trace_congr heq (inert_of_foreignInert hr hfs) (inert_of_foreignInert hr hgs)]

/-- The node of a request for ring 1 on VID 100. -/
def plainEr : ErRing := ⟨plainRing 100, 1, 2, true⟩

theorem reachable_plainEr : (arrivals host hz).Reachable plainEr.ring :=
  .init (Initialised.init (initialised_plainReq 1 100))

/-- The R-APS(SF) of node 2 on another ring. -/
def foreignSf (ringId : UInt8) (vid : UInt16) : Reception :=
  ⟨0, .port0, rapsBytes ⟨ringId, vid, 0, 0, .sf, 0, node2⟩⟩

/-- A data frame of another VLAN. -/
def foreignData : Reception :=
  ⟨0, .port0, [2, 0, 0, 0, 0, 9, 2, 0, 0, 0, 0, 8, 0x81, 0, 0, 7] ++ List.replicate 44 0⟩

/-- Data frames of other VLANs make no difference. -/
theorem foreign_frames_plainEr :
    states .little 1000 plainEr [foreignData, foreignSf 1 100] =
      states .little 1000 plainEr [foreignSf 1 100, foreignData] := by
  refine (foreign_frames reachable_plainEr).2 _ _ rfl ⟨?_, ?_, trivial⟩ ⟨?_, ?_, trivial⟩
  · intro _
    exact .notRaps rfl
  · intro h
    cases h
  · intro h
    cases h
  · intro _
    exact .notRaps rfl

/-- The R-APS(SF) of a node of ring 2 takes this ring to PROTECTION. -/
theorem foreign_frames_counterexample :
    ¬ ∀ (host : ByteOrder) (hz : Int32) (er : ErRing), (arrivals host hz).Reachable er.ring →
      er.active = true → ∀ f, native er f = false → (lookup host hz er f).ring = er.ring := by
  intro h
  have heq := h .little 1000 plainEr reachable_plainEr rfl (foreignSf 2 100) rfl
  have hstate : (lookup .little 1000 plainEr (foreignSf 2 100)).ring.state = .protection := rfl
  rw [heq] at hstate
  cases hstate

end Erps.Kernel
