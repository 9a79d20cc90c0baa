import Erps.Kernel.Foreign
import Erps.Ring.Correspond
import Erps.Sim.Timers

/-!
# The simulator against the kernel module

A kernel node and a simulator node that correspond receive the same R-APS frames. Both copies of the
receive path take the same requests through the same rows, so they correspond after every frame. They
differ in one place: `er_forward_lookup` forwards a frame if neither ring port is blocked, `port_cb`
tests the port the frame came in on and no other. `OneSided` are the frames on which that shows.
-/

set_option autoImplicit false

namespace Erps.Sim

open Bytes

variable {host : ByteOrder} {hz : Int32}

/-! ## Two nodes and one stream of frames -/

structure Pair where
  kernel : Kernel.ErRing
  sim : Ring UInt64

/-- A frame that both nodes receive on this port, each at its own tick. -/
structure Delivery where
  data : List UInt8
  port : PortId
  kernelNow : Int32
  simNow : UInt64

/-- "R-APS blocked by guard timer" -/
def guardHolds (now : UInt64) (r : Ring UInt64) : Bool :=
  r.timers.guard.active && decide (tickDiffMsec now r.timers.guard.activeSince < 500)

/-- An R-APS frame, so spaced that both guard timers give the same answer. -/
structure Comparable (hz : Int32) (w : Pair) (d : Delivery) : Prop where
  long : 55 ≤ d.data.length
  raps : isRapsFrame d.data = true
  guard : Kernel.guardHolds hz d.kernelNow w.kernel.ring = guardHolds d.simNow w.sim

/-- **Kernel and simulator side by side.** They start from any two records that correspond. -/
def pairs (host : ByteOrder) (hz : Int32) : Lts Pair Delivery where
  init w := w.kernel.active = true ∧ w.kernel.port0Idx ≠ 0 ∧ w.kernel.port1Idx ≠ 0 ∧
    w.kernel.ring.Corresponds w.sim ∧ w.sim.Running
  step w d w' := Comparable hz w d ∧
    w'.kernel = (Kernel.erForwardLookup host hz d.kernelNow w.kernel (some d.port) d.data).2 ∧
    (portCb host w.sim d.simNow d.data d.port).map Prod.fst = some w'.sim

/-! ## The frames they treat differently -/

/-- The request `port_cb` makes of the frame. -/
def Delivery.request (host : ByteOrder) (s : Ring UInt64) (d : Delivery) : Option Request :=
  Input.request host s ⟨d.simNow, .frame d.data d.port⟩

/-- The frame is not this node's, and once it is processed the port it came in on is open while the
other one is blocked. -/
inductive OneSided (host : ByteOrder) (s : Ring UInt64) (d : Delivery) : Prop
  | untaken (hl : isLocalRapsFrame host d.data s.cfg.nodeId = false)
      (hn : ∀ q, d.request host s = some q → ¬ Takes s q) (h : s.BlocksOnly d.port.other)
  | taken {q : Request} (hq : d.request host s = some q) (ht : Takes s q)
      (h : s.Splits d.port q.request q.remoteNodeId)

section OneSided

variable {s : Ring UInt64} {d : Delivery} {q : Request}

theorem oneSided_iff_of_untaken (hl : isLocalRapsFrame host d.data s.cfg.nodeId = false)
    (hn : ∀ q, d.request host s = some q → ¬ Takes s q) :
    OneSided host s d ↔ s.BlocksOnly d.port.other := by
  constructor
  · intro h
    cases h with
    | untaken _ _ h => exact h
    | taken hq ht _ => exact absurd ht (hn _ hq)
  · intro h
    exact .untaken hl hn h

/-- Nobody forwards what comes back to its sender. -/
theorem not_oneSided_of_local (hl : isLocalRapsFrame host d.data s.cfg.nodeId = true) :
    ¬ OneSided host s d := by
  intro h
  cases h with
  | untaken hl' _ _ =>
    rw [hl] at hl'
    cases hl'
  | taken hq _ _ =>
    unfold Delivery.request at hq
    rw [request_frame, if_neg (by simp [Hears, hl])] at hq
    cases hq

theorem oneSided_iff_of_takes (hq : d.request host s = some q) (ht : Takes s q) :
    OneSided host s d ↔ s.Splits d.port q.request q.remoteNodeId := by
  constructor
  · intro h
    cases h with
    | untaken _ hn _ => exact absurd ht (hn q hq)
    | taken hq' _ h =>
      rw [hq, Option.some.injEq] at hq'
      subst hq'
      exact h
  · intro h
    exact .taken hq ht h

end OneSided

/-! ## One frame -/

/-- The simulator survives every R-APS request. -/
theorem exists_processed {r : Ring UInt64} (hr : r.Running) {q : Request}
    (hraps : q.request.isRaps = true) (now : UInt64) :
    ∃ r', ringProcessRequest r now q.request q.port q.remoteNodeId = some r' ∧
      Processed r now q.request q.port q.remoteNodeId r' := by
  have hsome : ringProcessRequest r now q.request q.port q.remoteNodeId ≠ none := by
    intro hnone
    obtain ⟨_, himp⟩ := (ringProcessRequest_eq_none_iff _ _ _ _ _).mp hnone
    -- R-APS requests are no timer expiries, and no CLEAR
    cases hq : q.request <;> simp [hq, RingRequest.isRaps, Ring.isImpossibleDupe] at hraps himp
  obtain ⟨r', h⟩ := Option.ne_none_iff_exists'.mp hsome
  exact ⟨r', h, processed_of_rplSet hr.not_init hr.rplSet h⟩

/-- Past the guard timer the two copies make the same request of a frame. -/
theorem processHeard_eq {s : Ring UInt64} {d : Delivery}
    (hh : Hears host s d.simNow d.data = true) (k : Ring Int32) (now : Int32) :
    Kernel.processHeard host now k d.data d.port =
      match d.request host s with
      | none => k
      | some q => Kernel.ringProcessRequest k now q.request q.port q.remoteNodeId := by
  unfold Delivery.request
  rw [request_frame, if_pos hh]
  unfold Kernel.processHeard
  cases rapsParse host d.data with
  | none => rfl
  | some raps =>
    simp only [Option.bind_some]
    cases raps.ringRequest <;> rfl

theorem hears_iff {s : Ring UInt64} {d : Delivery} (hraps : isRapsFrame d.data = true)
    (hl : isLocalRapsFrame host d.data s.cfg.nodeId = false) :
    Hears host s d.simNow d.data = !guardHolds d.simNow s := by
  unfold Hears guardHolds
  rw [hraps, hl]
  rfl

/-- The ring past the guard timer: an expired one is cleared. -/
def heard {τ : Type} (r : Ring τ) : Ring τ := if r.timers.guard.active then r.stopGuardTimer else r

theorem alike_heard {τ : Type} (r : Ring τ) : r.Alike (heard r) := by
  unfold heard
  split
  · exact r.alike_stopGuardTimer
  · exact ⟨rfl, rfl, rfl, rfl, rfl, fun _ => rfl⟩

theorem splits_heard (s : Ring UInt64) (p : PortId) (req : RingRequest) (remote : Option NodeId) :
    (heard s).Splits p req remote ↔ s.Splits p req remote := by
  unfold heard
  split
  · cases p <;> exact Iff.rfl
  · exact Iff.rfl

theorem corresponds_heard {k : Ring Int32} {s : Ring UInt64} (h : k.Corresponds s) :
    (heard k).Corresponds (heard s) := by
  unfold heard
  rw [h.guard]
  split
  · exact h.stopGuardTimer
  · exact h

/-- `process_raps_frame` and `ring_process_raps`. -/
theorem processRaps {k : Ring Int32} {s : Ring UInt64} (h : k.Corresponds s) (hs : s.Running)
    {d : Delivery} (hraps : isRapsFrame d.data = true)
    (hl : isLocalRapsFrame host d.data s.cfg.nodeId = false)
    (hg : Kernel.guardHolds hz d.kernelNow k = guardHolds d.simNow s) :
    ∃ s', ringProcessRaps host s d.simNow d.data d.port = some s' ∧ s'.Running ∧
      (Kernel.processRapsFrame host hz d.kernelNow k d.data d.port).Corresponds s' ∧
      (s'.BlocksOnly d.port.other ↔ OneSided host s d) := by
  have hh : Hears host s d.simNow d.data = !guardHolds d.simNow s := hears_iff hraps hl
  rw [Kernel.processRapsFrame_eq, hg]
  cases hheld : guardHolds d.simNow s with
  | true =>
    rw [hheld] at hh
    have hreq : d.request host s = none := by
      unfold Delivery.request
      rw [request_frame, hh]
      rfl
    refine ⟨s, ?_, hs, h, (oneSided_iff_of_untaken hl (by simp [hreq])).symm⟩
    have hguard : (s.timers.guard.active &&
        decide (tickDiffMsec d.simNow s.timers.guard.activeSince < 500)) = true := hheld
    unfold ringProcessRaps
    simp only [hguard, if_true]
  | false =>
    rw [hheld] at hh
    rw [ringProcessRaps_eq _ _ _ _ _ hh]
    simp only [Bool.false_eq_true, if_false]
    rw [processHeard_eq hh]
    have ha := alike_heard s
    have hs₁ := hs.congr ha
    have h₁ := corresponds_heard h
    change ∃ s', (match d.request host s with
        | none => some (heard s)
        | some q => ringProcessRequest (heard s) d.simNow q.request q.port q.remoteNodeId) = some s' ∧
      s'.Running ∧ Ring.Corresponds (match d.request host s with
        | none => heard k
        | some q => Kernel.ringProcessRequest (heard k) d.kernelNow q.request q.port q.remoteNodeId)
        s' ∧ (s'.BlocksOnly d.port.other ↔ OneSided host s d)
    cases hreq : d.request host s with
    | none =>
      refine ⟨_, rfl, hs₁, h₁, ?_⟩
      rw [oneSided_iff_of_untaken hl (by simp [hreq])]
      exact ha.blocksOnly_iff _
    | some q =>
      have hqraps : q.request.isRaps = true := isRaps_of_request hreq
      obtain ⟨s', hs', hp⟩ := exists_processed hs₁ hqraps d.simNow
      have hk := h₁.running hs₁
      have hpk := Kernel.processed_of_rplSet hk.not_init hk.rplSet d.kernelNow q
      refine ⟨s', hs', hs₁.processed hp, h₁.processed hpk hp, ?_⟩
      rcases Ring.blocksOnly_processed hs₁.not_init hqraps hp d.port with ⟨hn, hb⟩ | ⟨ht, hb⟩
      · have hn' : ∀ q, d.request host s = some q → ¬ Takes s q := by
          intro q' hq' ht
          rw [hreq, Option.some.injEq] at hq'
          subst hq'
          exact hn (ha.takes ht)
        rw [hb, oneSided_iff_of_untaken hl hn']
        exact ha.blocksOnly_iff _
      · rw [hb, oneSided_iff_of_takes hreq (ha.symm.takes ht)]
        exact splits_heard _ _ _ _

/-! ## Every run -/

/-- The two nodes between frames. -/
structure Matched (w : Pair) : Prop where
  idx : ∀ p, w.kernel.idx p ≠ 0
  corresponds : w.kernel.ring.Corresponds w.sim
  running : w.sim.Running

/-- **One frame.** Both nodes process it, correspond again, and make the same decision exactly if it
is not one-sided. -/
theorem Matched.receive {w : Pair} (hw : Matched w) {d : Delivery} (hd : Comparable hz w d) :
    ∃ s out, portCb host w.sim d.simNow d.data d.port = some (s, out) ∧
      Matched ⟨(Kernel.erForwardLookup host hz d.kernelNow w.kernel (some d.port) d.data).2, s⟩ ∧
      ((Kernel.erForwardLookup host hz d.kernelNow w.kernel (some d.port) d.data).1 = out.isSome ↔
        ¬ OneSided host w.sim d) := by
  have hid : w.sim.cfg.nodeId = w.kernel.ring.cfg.nodeId := hw.corresponds.nodeId
  unfold portCb Kernel.erForwardLookup
  simp only [Kernel.isKeepaliveFrame, Kernel.isValidRapsFrame, hd.raps, hid, Bool.false_eq_true,
    if_false, if_true]
  cases hl : isLocalRapsFrame host d.data w.kernel.ring.cfg.nodeId with
  | true =>
    rw [← hid] at hl
    refine ⟨w.sim, none, rfl, hw, ?_⟩
    simp only [if_true, Option.isSome_none, true_iff]
    exact not_oneSided_of_local hl
  | false =>
    rw [← hid] at hl
    obtain ⟨s', hs', hrun, hcor, hsided⟩ := processRaps hw.corresponds hw.running hd.raps hl
      hd.guard
    simp only [Bool.false_eq_true, if_false, hs', Option.map_some]
    refine ⟨s', _, rfl, ?_, ?_⟩
    · split <;> exact ⟨hw.idx, hcor, hrun⟩
    · rw [← hsided, Ring.blocksOnly_other_iff]
      have hidx : ∀ k, ({ w.kernel with ring := k } : Kernel.ErRing).idx d.port.other ≠ 0 := by
        intro k
        have hp := hw.idx d.port.other
        cases hport : d.port.other <;> rw [hport] at hp <;> exact hp
      simp only [Kernel.ErRing.blocked, ← hcor.port, ringOtherPort_some]
      cases (s'.port d.port).isBlocked <;> cases (s'.port d.port.other).isBlocked <;>
        simp [hidx]

theorem Matched.of_reachable {w : Pair} (h : (pairs host hz).Reachable w) : Matched w := by
  refine h.invariant ?_ ?_
  · intro w hw
    obtain ⟨_, h₀, h₁, hcor, hrun⟩ := hw
    refine ⟨?_, hcor, hrun⟩
    intro p
    cases p with
    | port0 => exact h₀
    | port1 => exact h₁
  · intro w d w' _ hw hst
    obtain ⟨hd, hk, hs⟩ := hst
    obtain ⟨s, out, hout, hm, _⟩ := hw.receive hd
    rw [hout, Option.map_some, Option.some.injEq] at hs
    obtain ⟨kernel, sim⟩ := w'
    cases hk
    cases hs
    exact hm

/-- **The simulator is the kernel module, but for one test.** After any frames the two nodes
correspond. The next frame leaves them in correspondence as well, and they decide alike whether it
goes on exactly if it is not one-sided. -/
theorem faithful_iff {w : Pair} (hw : (pairs host hz).Reachable w) :
    w.kernel.ring.Corresponds w.sim ∧
    ∀ d, Comparable hz w d → ∃ s out,
      portCb host w.sim d.simNow d.data d.port = some (s, out) ∧
      (Kernel.erForwardLookup host hz d.kernelNow w.kernel (some d.port) d.data).2.ring.Corresponds s ∧
      ((Kernel.erForwardLookup host hz d.kernelNow w.kernel (some d.port) d.data).1 = out.isSome ↔
        ¬ OneSided host w.sim d) := by
  have hm := Matched.of_reachable hw
  refine ⟨hm.corresponds, ?_⟩
  intro d hd
  obtain ⟨s, out, hout, hm', hdecision⟩ := hm.receive hd
  exact ⟨s, out, hout, hm'.corresponds, hdecision⟩

/-- The RPL on `port0`, its neighbour's end. -/
def neighbour : Role := ⟨some .port0, false, true, Option.isSome_some, Bool.false_and true⟩

/-- A neighbour as the two constructors leave it. -/
def neighbours : Pair where
  kernel := ⟨Kernel.configure (Kernel.erRingCreate 0 1 Kernel.erpsRplNone 1) 0 4093 true, 1, 2, true⟩
  sim := started 0 neighbour .zero

theorem reachable_neighbours (host : ByteOrder) (hz : Int32) :
    (pairs host hz).Reachable neighbours := by
  refine .init ⟨rfl, by simp [neighbours], by simp [neighbours],
    ⟨rfl, rfl, rfl, rfl, rfl, rfl, rfl, rfl, rfl, ?_, rfl, rfl, rfl, rfl⟩, ⟨?_, rfl⟩⟩
  · intro p
    cases p <;> rfl
  · intro h
    cases h

/-- An R-APS message of node 2, on the port that is not the RPL's. -/
def fromNode2 (request : RapsRequest) (flags : UInt8) : Delivery :=
  ⟨rapsOf 2 request flags, .port1, 1000, 1000⟩

/-- An SF opens both ports of both neighbours, and goes on at both. -/
theorem faithful_iff_neighbours :
    ∃ s out, portCb .little neighbours.sim 1000 (rapsOf 2 .sf 0) .port1 = some (s, out) ∧
      (Kernel.erForwardLookup .little 1000 1000 neighbours.kernel (some .port1)
        (rapsOf 2 .sf 0)).2.ring.Corresponds s ∧
      (Kernel.erForwardLookup .little 1000 1000 neighbours.kernel (some .port1)
        (rapsOf 2 .sf 0)).1 = out.isSome := by
  obtain ⟨_, hnext⟩ := faithful_iff (reachable_neighbours .little 1000)
  obtain ⟨s, out, hout, hcor, hdecision⟩ := hnext (fromNode2 .sf 0) ⟨(rapsBytes_length _).ge, rfl, rfl⟩
  refine ⟨s, out, hout, hcor, hdecision.mpr ?_⟩
  intro h
  cases h with
  | untaken _ hn _ => exact hn _ rfl ⟨rfl, rfl, rfl⟩
  | taken hq _ h =>
    cases hq
    exact Ring.not_splits_of_opensNonfailed rfl rfl h

/-- Row 70 blocks the RPL port again: the simulator sends the NR,RB on through it, the kernel does
not. -/
theorem faithful_counterexample :
    ¬ ∀ (host : ByteOrder) (hz : Int32) (w : Pair), (pairs host hz).Reachable w →
      w.kernel.ring.Corresponds w.sim ∧
      ∀ d, Comparable hz w d → ∃ s out,
        portCb host w.sim d.simNow d.data d.port = some (s, out) ∧
        (Kernel.erForwardLookup host hz d.kernelNow w.kernel (some d.port) d.data).2.ring.Corresponds
          s ∧
        (Kernel.erForwardLookup host hz d.kernelNow w.kernel (some d.port) d.data).1 =
          out.isSome := by
  intro h
  obtain ⟨_, hnext⟩ := h .little 1000 neighbours (reachable_neighbours .little 1000)
  obtain ⟨s, out, hout, _, hdecision⟩ :=
    hnext (fromNode2 .nr rapsFlagRb) ⟨(rapsBytes_length _).ge, rfl, rfl⟩
  have hsim : (portCb .little neighbours.sim 1000 (rapsOf 2 .nr rapsFlagRb) .port1).map Prod.snd =
      some (some .port0) := rfl
  have hkernel : (Kernel.erForwardLookup .little 1000 1000 neighbours.kernel (some .port1)
      (rapsOf 2 .nr rapsFlagRb)).1 = false := rfl
  have hout : portCb .little neighbours.sim 1000 (rapsOf 2 .nr rapsFlagRb) .port1 = some (s, out) :=
    hout
  rw [hout, Option.map_some, Option.some.injEq] at hsim
  have hdecision : (Kernel.erForwardLookup .little 1000 1000 neighbours.kernel (some .port1)
      (rapsOf 2 .nr rapsFlagRb)).1 = out.isSome := hdecision
  rw [hkernel, show out = some .port0 from hsim] at hdecision
  cases hdecision

end Erps.Sim
