import Erps.Ring.Failed
import Erps.Ring.Idle
import Erps.Sim.Node

/-!
# Runs of the simulator node

Three properties of one node, over every run of its callbacks.

* `idle_soundness`: IDLE and R-APS(NR,RB) mean that the RPL is blocked where it should be, as long as
  the owner hears no R-APS(NR,RB) from another node.
* `announces_exactly`: a node that announces R-APS(NR) without RB owns a block, except after row 20
  or row 14 has announced one without looking.
* `protects_exactly`: outside FORCED_SWITCH failed ports are blocked, except after a refused SF or
  one of the rows that open a port without looking at `is_failed`.

The last two fail on the code, and the theorems say on which runs they hold: the ones whose callbacks
all meet `BacksBlock`, or `GuardsFailed`.
-/

set_option autoImplicit false

namespace Erps.Sim

open Bytes

variable {host : ByteOrder}

/-! ## IDLE and NR,RB -/

/-- The callback brings the RPL owner no R-APS(NR,RB). -/
def SparesOwner (host : ByteOrder) (r : Ring UInt64) (i : Input) : Prop :=
  ∀ q, i.request host r = some q → q.request = .rapsNrRb → r.cfg.isRplOwner = false

/-- What a frame hands over is an R-APS request. -/
theorem isRaps_of_request {r : Ring UInt64} {now : UInt64} {data : List UInt8} {port : PortId}
    {q : Request} (hq : Input.request host r ⟨now, .frame data port⟩ = some q) :
    q.request.isRaps = true := by
  simp only [Input.request] at hq
  split at hq
  · obtain ⟨raps, _, hq⟩ := Option.bind_eq_some_iff.mp hq
    obtain ⟨request, hreq, rfl⟩ := Option.map_eq_some_iff.mp hq
    exact Raps.isRaps_of_ringRequest hreq
  · cases hq

/-- Only a RECOVER hands over a CLEAR_SF. -/
theorem recover_of_request {r : Ring UInt64} {i : Input} {q : Request}
    (hq : i.request host r = some q) (hreq : q.request = .clearSf) :
    ∃ p, i.event = .command (.recover p) := by
  obtain ⟨now, e⟩ := i
  cases e with
  | timer =>
    simp only [Input.request] at hq
    split at hq <;> cases hq
    cases hreq
  | frame data port =>
    have hraps := isRaps_of_request hq
    rw [hreq] at hraps
    cases hraps
  | command c =>
    cases c with
    | recover p => exact ⟨p, rfl⟩
    | status | clear | ms | fs | fail => cases hq <;> cases hreq

/-- Only the timer callback hands over an expiry, and only of a WTR timer that runs. -/
theorem wtr_active_of_request {r : Ring UInt64} {i : Input} {q : Request}
    (hq : i.request host r = some q) (hexp : q.request = .wtrExpires ∨ q.request = .wtbExpires) :
    r.timers.wtr.active = true := by
  obtain ⟨now, e⟩ := i
  cases e with
  | timer =>
    simp only [Input.request] at hq
    split at hq
    · rename_i h
      exact (Bool.and_eq_true _ _ |>.mp h).1
    · cases hq
  | frame data port =>
    have hraps := isRaps_of_request hq
    rcases hexp with h | h <;> rw [h] at hraps <;> cases hraps
  | command c => cases c <;> cases hq <;> rcases hexp with h | h <;> cases h

/-- The node's invariant: the WTR timer runs at the owner only, so only the owner's expires. -/
structure OwnerTimed (r : Ring UInt64) : Prop where
  coherent : Coherent r
  idle : IdleSound r
  wtr : r.timers.wtr.active = true → r.cfg.isRplOwner = true

namespace OwnerTimed

theorem started (now : UInt64) (role : Role) (nodeId : NodeId) :
    OwnerTimed (started now role nodeId) where
  coherent := Coherent.started (blank_ringBlank role nodeId) now
  idle := IdleSound.started (blank_ringBlank role nodeId) now role.not_both
  wtr h := by
    by_contra hown
    have hown : role.isRplOwner = false := Bool.eq_false_iff.mpr hown
    have hstop : ((ringBlank role.rplPort role.isRplOwner role.isRplNeighbour nodeId).initEffect).wtr
        = .stop := by
      simp [Ring.initEffect, ringBlank, hown]
    simp [Sim.started, Ring.started, Effect.apply, hstop, TimerEffect.apply] at h

theorem outcome {r r' : Ring UInt64} (h : OwnerTimed r) {i : Input}
    (hs : SparesOwner host r i) (ho : Outcome host r i r') : OwnerTimed r' := by
  refine ⟨ho.coherent h.coherent, ?_, ?_⟩
  · cases ho with
    | still => exact (h.idle.congr (alike_prepare r i.event)).congr (alike_withTimers _ _)
    | @taken t q hq ht _ =>
      have ha := alike_prepare r i.event
      have hidle := h.idle.congr ha
      refine (hidle.advance ?_ ht.accepts ?_ ?_).congr (alike_withTimers _ _)
      · rw [ha.cfg]
        exact h.coherent.rplSet
      · intro hexp
        rw [ha.cfg]
        exact h.wtr (wtr_active_of_request hq hexp)
      · intro hreq
        rw [ha.cfg]
        exact hs q hq hreq
  · cases ho with
    | still _ hw =>
      intro hact
      show (i.event.prepare r).cfg.isRplOwner = true
      rw [(alike_prepare r i.event).cfg]
      exact h.wtr (hw hact)
    | @taken t q hq ht hw =>
      intro hact
      have ha := alike_prepare r i.event
      show (i.event.prepare r).cfg.isRplOwner = true
      have hrow : (((i.event.prepare r).effect q.request q.port q.remoteNodeId).wtr.apply i.now
          (i.event.prepare r).timers.wtr).active = true := hw hact
      cases he : ((i.event.prepare r).effect q.request q.port q.remoteNodeId).wtr with
      | start => exact Ring.effect_wtr_start he
      | stop =>
        rw [he] at hrow
        cases hrow
      | keep =>
        rw [he] at hrow
        have hprep : (i.event.prepare r).timers.wtr = r.timers.wtr := prepare_wtr r i.event
        rw [ha.cfg]
        exact h.wtr (hprep ▸ hrow)

theorem of_reachable {r : Ring UInt64}
    (h : ((node host).restrict (SparesOwner host)).Reachable r) : OwnerTimed r := by
  refine h.invariant (I := OwnerTimed) ?_ ?_
  · intro s hs
    obtain ⟨now, nodeId, role, rfl⟩ := Created.exists_started hs
    exact .started now role nodeId
  · intro s i t _ hi h
    obtain ⟨hspare, hst⟩ := h
    exact hi.outcome hspare (handle_outcome hi.coherent hst)

end OwnerTimed

/-- **IDLE and NR,RB are sound.** -/
theorem idle_soundness {r : Ring UInt64}
    (h : ((node host).restrict (SparesOwner host)).Reachable r) :
    (r.state = .idle →
      (r.cfg.isRplOwner = true ∨ r.cfg.isRplNeighbour = true → r.BlocksOnly r.rpl) ∧
      (r.cfg.isRplOwner = false → r.cfg.isRplNeighbour = false → r.Open)) ∧
    (r.SendsNrRb ↔ r.cfg.isRplOwner = true ∧ r.state = .idle) := by
  have hi := (OwnerTimed.of_reachable h).idle
  exact ⟨fun hs => ⟨hi.idle_rpl hs, hi.idle_plain hs⟩, hi.sendsNrRb_iff⟩

/-- The node ids `00:00:00:00:00:01` and so on. -/
def nodeId (n : UInt8) : NodeId := ⟨[0, 0, 0, 0, 0, n], rfl⟩

/-- An RPL owner, its RPL on `port0`. -/
def owner : Role := ⟨some .port0, true, false, rfl, rfl⟩

/-- A node with neither role. -/
def plain : Role := ⟨none, false, false, rfl, rfl⟩

theorem created_started (role : Role) (id : NodeId) : Created (started 0 role id) :=
  ⟨0, id, role, ringCreate_eq 0 role id⟩

/-- The owner 15 seconds after it was created. -/
theorem idle_soundness_owner :
    ∃ r, handle .little (started 0 owner (nodeId 1)) ⟨15000, .timer⟩ = some r ∧
      r.BlocksOnly .port0 ∧ r.SendsNrRb := by
  have hstep : ∃ r, handle .little (started 0 owner (nodeId 1)) ⟨15000, .timer⟩ = some r ∧
      r.state = .idle ∧ r.cfg.isRplOwner = true ∧ r.rpl = .port0 := ⟨_, rfl, rfl, rfl, rfl⟩
  obtain ⟨r, hr, hidle, hown, hrpl⟩ := hstep
  have h₀ : ((node .little).restrict (SparesOwner .little)).Reachable
      (started 0 owner (nodeId 1)) := .init (created_started owner (nodeId 1))
  have hspare : SparesOwner .little (started 0 owner (nodeId 1)) ⟨15000, .timer⟩ := by
    intro q hq hreq
    have hq' : some (Request.bare .wtrExpires rfl rfl) = some q := hq
    cases hq'
    cases hreq
  obtain ⟨hports, hsend⟩ := idle_soundness (h₀.step ⟨hspare, hr⟩)
  refine ⟨r, hr, ?_, hsend.mpr ⟨hown, hidle⟩⟩
  rw [← hrpl]
  exact (hports hidle).1 (.inl hown)

/-! ## NR without RB -/

/-- Row 20 and row 14, where the callback makes the state machine take them, find the block that is
announced. -/
def BacksBlock (host : ByteOrder) (r : Ring UInt64) (i : Input) : Prop :=
  ∀ q, i.request host r = some q → Takes r q → BacksNr r q.request

/-- The invariant of the runs that meet the condition. -/
structure AnnouncedNode (r : Ring UInt64) : Prop where
  coherent : Coherent r
  announced : Announced r

namespace AnnouncedNode

theorem created {r : Ring UInt64} (h : Created r) : AnnouncedNode r := by
  refine ⟨h.coherent, ?_⟩
  obtain ⟨now, nodeId, role, rfl⟩ := h.exists_started
  exact Announced.started _ now

theorem outcome {r r' : Ring UInt64} (h : AnnouncedNode r) {i : Input} (hb : BacksBlock host r i)
    (ho : Outcome host r i r') : AnnouncedNode r' := by
  refine ⟨ho.coherent h.coherent, ?_⟩
  have ha := alike_prepare r i.event
  cases ho with
  | still =>
    exact (Announced.congr (alike_withTimers _ _)).mpr ((Announced.congr ha).mpr h.announced)
  | @taken t q hq ht _ =>
    apply (Announced.congr (alike_withTimers _ _)).mpr
    refine Announced.advance ((Announced.congr ha).mpr h.announced) ?_ ?_
    · rw [ha.cfg]
      exact h.coherent.rplSet
    · exact (hb q hq (ha.symm.takes ht)).congr ha

/-- A callback that fails the condition is followed by an announcement without a block. -/
theorem backsBlock_of_outcome {r r' : Ring UInt64} (hc : Coherent r) {i : Input}
    (ho : Outcome host r i r') (hann : Announced r') : BacksBlock host r i := by
  intro q hq htk
  have ha := alike_prepare r i.event
  cases ho with
  | still hn => exact absurd (ha.takes htk) (hn q hq)
  | @taken t q' hq' _ _ =>
    rw [hq, Option.some.injEq] at hq'
    subst hq'
    have hrow : Announced (advance (i.event.prepare r) i.now q) :=
      (Announced.congr (alike_withTimers _ _)).mp hann
    refine (Announced.backsNr_of_advance ?_ hrow).congr ha.symm
    rw [ha.cfg]
    exact hc.rplSet

end AnnouncedNode

/-- **A node that announces NR owns a block**, throughout a run exactly when rows 20 and 14 find one
whenever they are taken. -/
theorem announces_exactly {s t : Ring UInt64} {is : List Input} (hs : (node host).init s) :
    Announced s ∧ (((node host).restrict (BacksBlock host)).Run s is t ↔
      ((node host).within Announced).Run s is t) := by
  have hinit : AnnouncedNode s := .created hs
  refine ⟨hinit.announced, Lts.run_restrict_iff (J := AnnouncedNode) (fun _ h => h.announced) ?_ ?_
    hinit⟩
  · intro r i r' h hb hst
    exact h.outcome hb (handle_outcome h.coherent hst)
  · intro r i r' h hst hann
    exact AnnouncedNode.backsBlock_of_outcome h.coherent (handle_outcome h.coherent hst) hann

/-- A failure and its recovery meet the condition. -/
theorem announces_exactly_plain :
    ∃ r, ((node .little).within Announced).Run (started 0 plain (nodeId 1))
      [⟨1000, .command (.fail .port1)⟩] r := by
  have hstep : ∃ r, handle .little (started 0 plain (nodeId 1))
      ⟨1000, .command (.fail .port1)⟩ = some r := ⟨_, rfl⟩
  obtain ⟨r, hr⟩ := hstep
  refine ⟨r, (announces_exactly (created_started plain (nodeId 1))).2.mp
    (Lts.Run.nil.snoc ⟨?_, hr⟩)⟩
  intro q hq _
  have hq' : some (Request.onPort .sf .port1 rfl) = some q := hq
  cases hq'
  refine ⟨?_, ?_⟩
  · intro h
    cases h
  · intro h
    cases h

/-- An R-APS message of node `n`. -/
def rapsOf (n : UInt8) (request : RapsRequest) (flags : UInt8) : List UInt8 :=
  rapsBytes ⟨1, 4093, 0, flags, request, 0, nodeId n⟩

/-- Both links of a node fail, one recovers, the SF of the node beyond the other opens the recovered
port, and the other recovers as well. -/
def twoFailures : List Input :=
  [⟨1000, .command (.fail .port0)⟩, ⟨2000, .command (.fail .port1)⟩,
    ⟨3000, .command (.recover .port0)⟩, ⟨4000, .frame (rapsOf 2 .sf 0) .port0⟩,
    ⟨5000, .command (.recover .port1)⟩]

/-- The node then announces R-APS(NR) with both ports open. -/
theorem announces_exactly_counterexample :
    ¬ ∀ host r, (node host).Reachable r → Announced r := by
  intro h
  have hrun : ∃ r, Lts.exec (handle .little) (started 0 plain (nodeId 1)) twoFailures = some r ∧
      r.sending = some (.nr, 0) ∧ r.port0.isBlocked = false ∧ r.port1.isBlocked = false :=
    ⟨_, rfl, rfl, rfl, rfl⟩
  obtain ⟨r, hr, hsend, h₀, h₁⟩ := hrun
  have hreach : (node .little).Reachable r :=
    ⟨_, _, created_started plain (nodeId 1), Lts.run_of_exec hr⟩
  obtain ⟨p, hp⟩ := h .little r hreach ⟨0, hsend, by decide⟩
  cases p with
  | port0 => exact absurd hp (by simp [Ring.port, h₀])
  | port1 => exact absurd hp (by simp [Ring.port, h₁])

/-! ## Failed ports -/

/-- A FAIL is refused only where its port is blocked already, and the rows that open a port without
looking find it working. -/
structure GuardsFailed (host : ByteOrder) (r : Ring UInt64) (i : Input) : Prop where
  refused : ∀ p, i.event = .command (.fail p) → r.state ≠ .forcedSwitch →
    ¬ Takes r (.onPort .sf p rfl) → (r.port p).isBlocked = true
  rows : ∀ q, i.request host r = some q → Takes r q → KeepsFailed r q.request q.port

theorem setFailed_port_other (r : Ring UInt64) (p : PortId) (failed : Bool) :
    (r.setFailed p failed).port p.other = r.port p.other := by
  cases p <;> rfl

theorem setFailed_port (r : Ring UInt64) (p : PortId) (failed : Bool) :
    (r.setFailed p failed).port p = { r.port p with isFailed := failed } := by
  cases p <;> rfl

theorem keepsFailed_sf_iff {r : Ring UInt64} {p : PortId} :
    KeepsFailed r .sf (some p) ↔
      (r.state ≠ .forcedSwitch → (r.port p.other).isFailed = false) := by
  constructor
  · intro h
    exact h.sf rfl
  · intro h
    exact ⟨fun hr => by simp at hr, fun hr => (by cases hr), fun _ => h, fun hr => by simp at hr,
      fun hr => (by cases hr), fun hr => (by cases hr), fun hr => (by cases hr)⟩

theorem keepsFailed_clearSf (r : Ring UInt64) (port : Option PortId) :
    KeepsFailed r .clearSf port :=
  ⟨fun hr => by simp at hr, fun hr => (by cases hr), fun hr => (by cases hr),
    fun hr => by simp at hr, fun hr => (by cases hr), fun hr => (by cases hr),
    fun hr => (by cases hr)⟩

/-- The condition does not depend on the flag a FAIL or a RECOVER has just written. -/
theorem keepsFailed_prepare_iff {r : Ring UInt64} {i : Input} {q : Request}
    (hq : i.request host r = some q) :
    KeepsFailed (i.event.prepare r) q.request q.port ↔ KeepsFailed r q.request q.port := by
  obtain ⟨now, e⟩ := i
  cases e with
  | timer | frame => exact Iff.rfl
  | command c =>
    cases c with
    | status | clear | ms | fs => exact Iff.rfl
    | fail p =>
      cases hq
      show KeepsFailed (r.setFailed p true) .sf (some p) ↔ KeepsFailed r .sf (some p)
      rw [keepsFailed_sf_iff, keepsFailed_sf_iff, setFailed_port_other,
        (alike_setFailed r p true).state]
    | recover p =>
      cases hq
      exact ⟨fun _ => keepsFailed_clearSf r _, fun _ => keepsFailed_clearSf _ _⟩

/-- Before a row, the failed ports are blocked, but for the one an SF reports. -/
theorem Protects.prepare {r : Ring UInt64} (h : Protects r) {i : Input} {q : Request}
    (hq : i.request host r = some q) (hs : (i.event.prepare r).state ≠ .forcedSwitch) (p : PortId)
    (hf : ((i.event.prepare r).port p).isFailed = true) :
    ((i.event.prepare r).port p).isBlocked = true ∨
      (q.request = .sf ∧ p = Ring.named q.port) := by
  have ha := alike_prepare r i.event
  rw [ha.state] at hs
  have hb := h hs p
  rw [ha.blocked p]
  obtain ⟨now, e⟩ := i
  cases e with
  | timer | frame => exact .inl (hb hf)
  | command c =>
    cases c with
    | status | clear | ms | fs => exact .inl (hb hf)
    | fail p' =>
      cases hq
      rcases p'.eq_or_eq_other p with rfl | rfl
      · exact .inr ⟨rfl, rfl⟩
      · have hf : ((r.setFailed p' true).port p'.other).isFailed = true := hf
        rw [setFailed_port_other] at hf
        exact .inl (hb hf)
    | recover p' =>
      have hf : ((r.setFailed p' false).port p).isFailed = true := hf
      rcases p'.eq_or_eq_other p with rfl | rfl
      · rw [setFailed_port] at hf
        cases hf
      · rw [setFailed_port_other] at hf
        exact .inl (hb hf)

theorem protects_withTimers {r : Ring UInt64} {t : Timers UInt64} :
    Protects (withTimers r t) ↔ Protects r := by
  unfold Protects Ring.FailedBlocked
  simp only [withTimers_state, withTimers_port]

/-- The invariant of the runs that meet the condition. -/
structure ProtectedNode (r : Ring UInt64) : Prop where
  coherent : Coherent r
  protects : Protects r

namespace ProtectedNode

theorem created {r : Ring UInt64} (h : Created r) : ProtectedNode r := by
  refine ⟨h.coherent, ?_⟩
  obtain ⟨now, nodeId, role, rfl⟩ := h.exists_started
  intro _ p hf
  have hb := (blank_ringBlank role nodeId).port p
  have hf : ((started now role nodeId).port p).isFailed = true := hf
  rw [started, Ring.started_port, hb] at hf
  cases hf

theorem outcome {r r' : Ring UInt64} (h : ProtectedNode r) {i : Input} (hg : GuardsFailed host r i)
    (ho : Outcome host r i r') : ProtectedNode r' := by
  refine ⟨ho.coherent h.coherent, ?_⟩
  have ha := alike_prepare r i.event
  cases ho with
  | still hn =>
    apply protects_withTimers.mpr
    intro hs p hf
    cases hq : i.request host r with
    | some q =>
      rcases Protects.prepare h.protects hq hs p hf with hb | ⟨hsf, hp⟩
      · exact hb
      · -- the SF of a FAIL that is not taken
        obtain ⟨now, e⟩ := i
        rw [ha.blocked p]
        rw [ha.state] at hs
        cases e with
        | timer | frame => exact h.protects hs p hf
        | command c =>
          cases c with
          | status | clear | ms | fs | recover => cases hq <;> cases hsf
          | fail p' =>
            cases hq
            cases hp
            exact hg.refused p' rfl hs fun ht => hn _ rfl (ha.takes ht)
    | none =>
      obtain ⟨now, e⟩ := i
      rw [ha.blocked p]
      rw [ha.state] at hs
      cases e with
      | timer | frame => exact h.protects hs p hf
      | command c =>
        cases c with
        | status => exact h.protects hs p hf
        | clear | ms | fs | fail | recover => cases hq
  | @taken t q hq ht _ =>
    apply protects_withTimers.mpr
    refine Protects.advance (fun hs => Protects.prepare h.protects hq hs) ?_
    exact (keepsFailed_prepare_iff hq).mpr (hg.rows q hq (ha.symm.takes ht))

/-- A callback that fails the condition leaves a failed port open. -/
theorem guardsFailed_of_outcome {r r' : Ring UInt64} {i : Input} (ho : Outcome host r i r')
    (hp : Protects r') : GuardsFailed host r i := by
  have ha := alike_prepare r i.event
  constructor
  · intro p he hs hn
    obtain ⟨now, e⟩ := i
    simp only at he
    subst he
    cases ho with
    | still =>
      have hp := protects_withTimers.mp hp
      have hb := hp (by rw [ha.state]; exact hs) p
      rw [ha.blocked p] at hb
      apply hb
      show ((r.setFailed p true).port p).isFailed = true
      rw [setFailed_port]
    | taken hq ht =>
      cases hq
      exact absurd (ha.symm.takes ht) hn
  · intro q hq htk
    cases ho with
    | still hn => exact absurd (ha.takes htk) (hn q hq)
    | @taken t q' hq' _ _ =>
      rw [hq, Option.some.injEq] at hq'
      subst hq'
      exact (keepsFailed_prepare_iff hq).mp
        (Protects.keepsFailed_of_advance (protects_withTimers.mp hp))

end ProtectedNode

/-- **Failed ports are protected**, throughout a run exactly when every callback guards them. -/
theorem protects_exactly {s t : Ring UInt64} {is : List Input} (hs : (node host).init s) :
    Protects s ∧ (((node host).restrict (GuardsFailed host)).Run s is t ↔
      ((node host).within Protects).Run s is t) := by
  have hinit : ProtectedNode s := .created hs
  refine ⟨hinit.protects, Lts.run_restrict_iff (J := ProtectedNode) (fun _ h => h.protects) ?_ ?_
    hinit⟩
  · intro r i r' h hg hst
    exact h.outcome hg (handle_outcome h.coherent hst)
  · intro r i r' h hst hp
    exact ProtectedNode.guardsFailed_of_outcome (handle_outcome h.coherent hst) hp

/-- One failure meets the condition. -/
theorem protects_exactly_plain :
    ∃ r, ((node .little).within Protects).Run (started 0 plain (nodeId 1))
      [⟨1000, .command (.fail .port1)⟩] r := by
  have hstep : ∃ r, handle .little (started 0 plain (nodeId 1))
      ⟨1000, .command (.fail .port1)⟩ = some r := ⟨_, rfl⟩
  obtain ⟨r, hr⟩ := hstep
  refine ⟨r, (protects_exactly (created_started plain (nodeId 1))).2.mp
    (Lts.Run.nil.snoc ⟨⟨?_, ?_⟩, hr⟩)⟩
  · intro p hp _ hn
    cases hp
    exact absurd ⟨by decide, by decide, by decide⟩ hn
  · intro q hq _
    have hq' : some (Request.onPort .sf .port1 rfl) = some q := hq
    cases hq'
    exact keepsFailed_sf_iff.mpr fun _ => by decide

/-- A second failure is dropped, and its port stays open. -/
theorem protects_exactly_counterexample : ¬ ∀ host r, (node host).Reachable r → Protects r := by
  intro h
  have hrun : ∃ r, Lts.exec (handle .little) (started 0 plain (nodeId 1))
      [⟨1000, .command (.fail .port0)⟩, ⟨2000, .command (.fail .port1)⟩] = some r ∧
      r.state = .protection ∧ r.port1 = ⟨false, true⟩ := ⟨_, rfl, rfl, rfl⟩
  obtain ⟨r, hr, hs, h₁⟩ := hrun
  have hreach : (node .little).Reachable r :=
    ⟨_, _, created_started plain (nodeId 1), Lts.run_of_exec hr⟩
  have hb := h .little r hreach (by simp [hs]) .port1 (by simp [Ring.port, h₁])
  exact absurd hb (by simp [Ring.port, h₁])

end Erps.Sim
