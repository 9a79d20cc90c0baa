import Erps.Lib.Parties
import Erps.Ring.Frame
import Erps.Sim.Runs

/-!
# A ring of simulator nodes

Any number of nodes, wired into a ring, under operator commands, link failures and deliveries in any
order. A message is delivered while its sender still transmits it; the guard timer of the receiver
may drop it.

The safety of the ring is a matter of custody. A node that transmits anything owns a block
(`Backed`), and it gives up its last one only on a message of another node. So some port is always
blocked (`loop_free`), provided that row 20 finds a block wherever a RECOVER takes it. Without that,
the ring can lose its last block (`loop_free_counterexample`): a node whose port failed unnoticed
announces R-APS(NR) with nothing blocked, and the last node that does block defers to its higher id.
-/

set_option autoImplicit false

namespace Erps.Sim

open Bytes

/-! ## Wiring -/

/-- The node after `i`. -/
def nextNode {N : Nat} (i : Fin N) : Fin N := ⟨(i.val + 1) % N, Nat.mod_lt _ i.pos⟩

/-- Link `l` joins node `l` to the node after it; `toNext` is the port node `l` has on it. -/
structure Wiring (N : Nat) where
  toNext : Fin N → PortId

/-- One of the two ends of a link. -/
inductive LinkEnd
  | near
  | far
  deriving DecidableEq, Repr

/-- The node at this end of the link. -/
def LinkEnd.node {N : Nat} (l : Fin N) : LinkEnd → Fin N
  | .near => l
  | .far => nextNode l

/-- The ring port at this end of the link. -/
def Wiring.port {N : Nat} (w : Wiring N) (l : Fin N) : LinkEnd → PortId
  | .near => w.toNext l
  | .far => (w.toNext (nextNode l)).other

/-! ## The network -/

/-- What can happen. The two ends of a link notice its failure, and its recovery, each on its own. -/
inductive NetEvent (N : Nat)
  | clear (i : Fin N)
  | ms (i : Fin N) (p : PortId)
  | fs (i : Fin N) (p : PortId)
  | fail (l : Fin N) (e : LinkEnd)
  | recover (l : Fin N) (e : LinkEnd)
  | timer (i : Fin N)
  /-- `j` receives at `p` what `i` is transmitting -/
  | deliver (i j : Fin N) (p : PortId)

structure NetInput (N : Nat) where
  now : UInt64
  event : NetEvent N

abbrev Net (N : Nat) := Fin N → Ring UInt64

namespace NetEvent

variable {N : Nat}

/-- The node it happens to. -/
def node : NetEvent N → Fin N
  | clear i | ms i _ | fs i _ | timer i => i
  | fail l e | recover l e => e.node l
  | deliver _ j _ => j

/-- The callback it runs there. -/
def callback (w : Wiring N) (s : Net N) : NetEvent N → Event
  | clear _ => .command .clear
  | ms _ p => .command (.ms p)
  | fs _ p => .command (.fs p)
  | fail l e => .command (.fail (w.port l e))
  | recover l e => .command (.recover (w.port l e))
  | timer _ => .timer
  | deliver i _ p => .frame (s i).tx.rapsFrame p

/-- A working link fails, a failed one recovers, and only what is transmitted is delivered. -/
def enabled (w : Wiring N) (s : Net N) : NetEvent N → Bool
  | fail l e => !((s (e.node l)).port (w.port l e)).isFailed
  | recover l e => ((s (e.node l)).port (w.port l e)).isFailed
  | deliver i _ _ => (s i).tx.isSendingRaps
  | _ => true

end NetEvent

section network

variable {N : Nat}

def netStep (host : ByteOrder) (w : Wiring N) (s : Net N) (x : NetInput N) : Option (Net N) :=
  if x.event.enabled w s then
    (handle host (s x.event.node) ⟨x.now, x.event.callback w s⟩).map
      (Function.update s x.event.node)
  else none

/-- At least three nodes as `ring_create` leaves them, with distinct ids and one RPL owner. -/
structure Assembled (s : Net N) : Prop where
  three_le : 3 ≤ N
  created : ∀ i, Created (s i)
  nodeId_injective : Function.Injective fun i => (s i).cfg.nodeId
  owner : ∃! i, (s i).cfg.isRplOwner = true

def network (host : ByteOrder) (w : Wiring N) : Lts (Net N) (NetInput N) :=
  .ofStep Assembled (netStep host w)

/-- A node that hears its link recover in PROTECTION has a block to announce. -/
def RecoverBacked (w : Wiring N) (s : Net N) (x : NetInput N) : Prop :=
  ∀ p, x.event.callback w s = .command (.recover p) → (s x.event.node).state = .protection →
    (s x.event.node).HasBlock

end network

/-! ## One node of it -/

/-- What every node keeps. -/
structure Trusted (r : Ring UInt64) : Prop where
  coherent : Coherent r
  backed : Backed r
  rbOwned : RbOwned r
  framed : r.Framed

theorem framed_started (now : UInt64) (role : Role) (id : NodeId) :
    (started now role id).Framed := by
  have hsized : (ringBlank role.rplPort role.isRplOwner role.isRplNeighbour id).tx.Sized id :=
    ⟨rfl, rfl, rfl, rfl⟩
  have hflags : (0xff : UInt8) ≠ 0 := by decide
  have hframed : ((ringBlank role.rplPort role.isRplOwner role.isRplNeighbour id).tx.start .nr
      0).Framed id := hsized.start (by simp) (.inr hflags)
  exact hframed

namespace Trusted

variable {host : ByteOrder} {r r' : Ring UInt64} {i : Input}

theorem created (h : Created r) : Trusted r := by
  refine ⟨h.coherent, ?_, ?_, ?_⟩
  · obtain ⟨now, id, role, rfl⟩ := h.exists_started
    intro _
    exact (Ring.started_blocksOnly _ now).hasBlock
  · obtain ⟨now, id, role, rfl⟩ := h.exists_started
    intro h
    obtain ⟨flags, hs, hrb⟩ := h
    have hs : some (RapsRequest.nr, (0 : UInt8)) = some (.nr, flags) := by
      rw [← hs]
      exact (Ring.started_sending _ now).symm
    cases hs
    exact absurd hrb (by simp)
  · obtain ⟨now, id, role, rfl⟩ := h.exists_started
    exact framed_started now role id

theorem outcome (h : Trusted r)
    (h20 : ∀ p, i.event = .command (.recover p) → r.state = .protection → r.HasBlock)
    (h14 : SparesOwner host r i) (ho : Outcome host r i r') : Trusted r' := by
  have ha := alike_prepare r i.event
  refine ⟨ho.coherent h.coherent, ?_, ?_, ?_⟩
  · cases ho with
    | still => exact (Backed.congr (alike_withTimers _ _)).mpr ((Backed.congr ha).mpr h.backed)
    | @taken t q hq _ _ =>
      apply (Backed.congr (alike_withTimers _ _)).mpr
      refine ((Backed.congr ha).mpr h.backed).advance ?_ ?_
      · intro hreq hs
        rw [ha.state] at hs
        rw [ha.hasBlock_iff]
        obtain ⟨p, hp⟩ := recover_of_request hq hreq
        exact h20 p hp hs
      · intro hreq
        rw [ha.cfg]
        exact h14 q hq hreq
  · cases ho with
    | still => exact (RbOwned.congr (alike_withTimers _ _)).mpr ((RbOwned.congr ha).mpr h.rbOwned)
    | taken =>
      exact (RbOwned.congr (alike_withTimers _ _)).mpr ((RbOwned.congr ha).mpr h.rbOwned).advance
  · have hprep : (i.event.prepare r).Framed := by
      unfold Ring.Framed
      rw [prepare_tx, ha.cfg]
      exact h.framed
    cases ho with
    | still => exact hprep
    | @taken t q _ _ _ => exact hprep.advance i.now q.request q.port q.remoteNodeId

end Trusted

/-! ## The network keeps a block -/

/-- **A delivered frame** is another node's, and hands over its request and its id. -/
theorem request_of_rapsBytes {host : ByteOrder} {r : Ring UInt64} {raps : Raps}
    (hsub : raps.subcode = 0) (hevent : raps.request ≠ .event) {now : UInt64} {p : PortId}
    {q : Request} (hq : Input.request host r ⟨now, .frame (rapsBytes raps) p⟩ = some q) :
    r.cfg.nodeId ≠ raps.nodeId ∧
      ∃ request, raps.ringRequest = some request ∧ q = .fromNode request p raps.nodeId := by
  simp only [Input.request] at hq
  split at hq
  · rename_i hlet
    rw [Bool.and_eq_true, Bool.and_eq_true, Bool.not_eq_true'] at hlet
    obtain ⟨raps', hparse, hq⟩ := Option.bind_eq_some_iff.mp hq
    obtain ⟨request, hreq, rfl⟩ := Option.map_eq_some_iff.mp hq
    obtain ⟨hid, hsame⟩ := ringRequest_of_parse hsub hevent hparse
    refine ⟨?_, request, hsame ▸ hreq, by rw [hid]⟩
    intro heq
    rw [(isLocalRapsFrame_rapsBytes host raps r.cfg.nodeId).mpr heq] at hlet
    exact absurd hlet.1.2 (by simp)
  · cases hq

/-- The same of the frame a node is transmitting. -/
theorem request_of_deliver {host : ByteOrder} {r r' : Ring UInt64} (hf : r.Framed) {now : UInt64}
    {p : PortId} {q : Request}
    (hq : Input.request host r' ⟨now, .frame r.tx.rapsFrame p⟩ = some q) :
    r'.cfg.nodeId ≠ r.cfg.nodeId ∧
      ∃ request, r.tx.raps.ringRequest = some request ∧ q = .fromNode request p r.cfg.nodeId := by
  rw [hf.frame] at hq
  have h := request_of_rapsBytes hf.subcode hf.request hq
  rw [hf.nodeId] at h
  exact h

/-- The RB flag is what distinguishes the two NR requests. -/
theorem sendsNrRb_of_ringRequest {r : Ring UInt64} (hs : r.tx.isSendingRaps = true)
    (h : r.tx.raps.ringRequest = some .rapsNrRb) : r.SendsNrRb := by
  unfold Raps.ringRequest at h
  cases hreq : r.tx.raps.request <;> simp only [hreq] at h
  · refine ⟨r.tx.raps.flags, ?_, ?_⟩
    · unfold Ring.sending Transmission.sending
      rw [if_pos hs, hreq]
    · by_contra hrb
      rw [if_neg hrb] at h
      cases h
  all_goals cases h

section network

variable {N : Nat} {host : ByteOrder} {w : Wiring N}

/-- The invariant of the network. -/
structure NetTrusted (s : Net N) : Prop where
  trusted : ∀ i, Trusted (s i)
  nodeId_injective : Function.Injective fun i => (s i).cfg.nodeId
  owner_unique : ∀ i j, (s i).cfg.isRplOwner = true → (s j).cfg.isRplOwner = true → i = j

/-- A network step is a callback at one node. -/
theorem exists_outcome {s t : Net N} (h : NetTrusted s) {x : NetInput N}
    (hst : netStep host w s x = some t) :
    x.event.enabled w s = true ∧ ∃ r', t = Function.update s x.event.node r' ∧
      Outcome host (s x.event.node) ⟨x.now, x.event.callback w s⟩ r' := by
  unfold netStep at hst
  split at hst
  · rename_i hen
    obtain ⟨r', hr', rfl⟩ := Option.map_eq_some_iff.mp hst
    exact ⟨hen, r', rfl, handle_outcome (h.trusted x.event.node).coherent hr'⟩
  · cases hst

/-- What a message on the air asks of another node is true: R-APS(NR,RB) comes from the owner. -/
theorem NetTrusted.sparesOwner {s : Net N} (h : NetTrusted s) {x : NetInput N}
    (hen : x.event.enabled w s = true) :
    SparesOwner host (s x.event.node) ⟨x.now, x.event.callback w s⟩ := by
  intro q hq hreq
  cases hx : x.event with
  | deliver i j p =>
    rw [hx] at hq hen
    obtain ⟨hne, request, hring, rfl⟩ := request_of_deliver (h.trusted i).framed hq
    have hreq : request = .rapsNrRb := hreq
    rw [hreq] at hring
    have hown := (h.trusted i).rbOwned (sendsNrRb_of_ringRequest hen hring)
    apply Bool.eq_false_iff.mpr
    intro hown'
    have hij := h.owner_unique i j hown hown'
    exact hne (by rw [hij]; rfl)
  | clear | ms | fs | fail | recover =>
    rw [hx] at hq
    cases hq
    cases hreq
  | timer i =>
    rw [hx] at hq
    simp only [Input.request, NetEvent.callback] at hq
    split at hq <;> cases hq
    cases hreq

theorem NetTrusted.step {s t : Net N} (h : NetTrusted s) {x : NetInput N}
    (hb : RecoverBacked w s x) (hst : netStep host w s x = some t) : NetTrusted t := by
  obtain ⟨hen, r', rfl, ho⟩ := exists_outcome h hst
  have hcfg : ∀ i, (Function.update s x.event.node r' i).cfg = (s i).cfg := by
    intro i
    by_cases hi : i = x.event.node
    · subst hi
      rw [Function.update_self]
      exact ho.cfg
    · rw [Function.update_of_ne hi]
  refine ⟨?_, ?_, ?_⟩
  · intro i
    by_cases hi : i = x.event.node
    · subst hi
      rw [Function.update_self]
      refine (h.trusted x.event.node).outcome ?_ (h.sparesOwner hen) ho
      exact hb
    · rw [Function.update_of_ne hi]
      exact h.trusted i
  · intro i j hij
    simp only [hcfg] at hij
    exact h.nodeId_injective hij
  · intro i j hi hj
    rw [hcfg] at hi hj
    exact h.owner_unique i j hi hj

theorem NetTrusted.assembled {s : Net N} (h : Assembled s) : NetTrusted s where
  trusted i := .created (h.created i)
  nodeId_injective := h.nodeId_injective
  owner_unique _ _ hi hj := h.owner.unique hi hj

theorem NetTrusted.of_reachable {s : Net N}
    (h : ((network host w).restrict (RecoverBacked w)).Reachable s) : NetTrusted s := by
  refine h.invariant (I := NetTrusted) (fun _ => .assembled) ?_
  intro s x t _ hs h
  obtain ⟨hb, hst⟩ := h
  exact hs.step hb hst

/-- The nodes that block a port. -/
def holders (s : Net N) : Set (Fin N) := {i | (s i).HasBlock}

/-- A callback that brings no message leaves a block in place. -/
theorem Outcome.hasBlock_of_local {r r' : Ring UInt64} {i : Input} (ho : Outcome host r i r')
    (hlocal : ∀ q, i.request host r = some q → q.request.isRaps = false) (hb : r.HasBlock) :
    r'.HasBlock := by
  have ha := alike_prepare r i.event
  cases ho with
  | still => exact (alike_withTimers _ _).hasBlock_iff.mpr (ha.hasBlock_iff.mpr hb)
  | @taken t q hq _ _ =>
    apply (alike_withTimers _ _).hasBlock_iff.mpr
    exact (ha.hasBlock_iff.mpr hb).advance_of_local (hlocal q hq)

theorem mem_holders_of_ne {s : Net N} {i j : Fin N} {r : Ring UInt64} (hij : i ≠ j)
    (hi : i ∈ holders s) : i ∈ holders (Function.update s j r) := by
  show (Function.update s j r i).HasBlock
  rw [Function.update_of_ne hij]
  exact hi

theorem holders_subset_of_local {s : Net N} {j : Fin N} {r : Ring UInt64} {i : Input}
    (ho : Outcome host (s j) i r)
    (hlocal : ∀ q, i.request host (s j) = some q → q.request.isRaps = false) :
    holders s ⊆ holders (Function.update s j r) := by
  intro k hk
  by_cases hkj : k = j
  · subst hkj
    show (Function.update s k r k).HasBlock
    rw [Function.update_self]
    exact ho.hasBlock_of_local hlocal hk
  · exact mem_holders_of_ne hkj hk

/-- A step of the network is a step of custody. -/
theorem exists_custody_step {s t : Net N} (h : NetTrusted s) {x : NetInput N}
    (hst : netStep host w s x = some t) :
    ∃ l, (Custody.custody (Fin N)).step (holders s) l (holders t) := by
  obtain ⟨hen, r', rfl, ho⟩ := exists_outcome h hst
  cases hx : x.event with
  | deliver i j p =>
    rw [hx] at hen ho
    by_cases hij : i = j
    · -- a node ignores its own frames
      subst hij
      refine ⟨.take, holders_subset_of_local ho ?_⟩
      intro q hq
      exact absurd rfl (request_of_deliver (h.trusted i).framed hq).1
    · refine ⟨.release i j, ?_, hij, ?_⟩
      · apply (h.trusted i).backed
        have hsend : (s i).tx.isSendingRaps = true := hen
        unfold Ring.sending Transmission.sending
        rw [if_pos hsend]
        exact Option.some_ne_none _
      · intro k h
        obtain ⟨hk, hkj⟩ := h
        exact mem_holders_of_ne hkj hk
  | clear | ms | fs | fail | recover =>
    rw [hx] at ho
    refine ⟨.take, holders_subset_of_local ho ?_⟩
    intro q hq
    cases hq
    rfl
  | timer i =>
    rw [hx] at ho
    refine ⟨.take, holders_subset_of_local ho ?_⟩
    intro q hq
    simp only [Input.request, NetEvent.callback] at hq
    split at hq <;> cases hq
    rfl

/-- **The ring is never a loop.** In every run in which row 20 finds a block, some ring port is
blocked in every state. -/
theorem loop_free {s : Net N} (h : ((network host w).restrict (RecoverBacked w)).Reachable s) :
    ∃ i p, ((s i).port p).isBlocked = true ∨ ((s i).port p).isFailed = true := by
  have hhold : (holders s).Nonempty := by
    refine Custody.simulate holders ?_ ?_ h
    · intro s hs
      obtain ⟨i, _, _⟩ := hs.owner
      obtain ⟨now, id, role, hi⟩ := (hs.created i).exists_started
      refine ⟨i, ?_⟩
      show (s i).HasBlock
      rw [hi]
      exact (Ring.started_blocksOnly _ now).hasBlock
    · intro s x t hr hst
      exact exists_custody_step (.of_reachable hr) hst.2
  obtain ⟨i, p, hp⟩ := hhold
  exact ⟨i, p, .inl hp⟩

end network

/-- Three nodes in a row, `port1` towards the next: the RPL owner with the RPL on the link from node
2, and in the middle the node with the highest id. -/
def threeNodes : Net 3
  | 0 => started 0 owner (nodeId 1)
  | 1 => started 0 plain (nodeId 3)
  | 2 => started 0 plain (nodeId 2)

def threeWiring : Wiring 3 := ⟨fun _ => .port1⟩

theorem assembled_threeNodes : Assembled threeNodes where
  three_le := le_refl 3
  created i := by
    match i with
    | 0 => exact created_started owner (nodeId 1)
    | 1 => exact created_started plain (nodeId 3)
    | 2 => exact created_started plain (nodeId 2)
  nodeId_injective := by
    have h : ∀ i j : Fin 3, (threeNodes i).cfg.nodeId = (threeNodes j).cfg.nodeId → i = j := by
      decide
    exact fun i j => h i j
  owner := ⟨0, rfl, by decide⟩

/-- The owner hears a higher id and opens the RPL; the other nodes still block. -/
theorem loop_free_threeNodes :
    ∃ s, netStep .little threeWiring threeNodes ⟨1000, .deliver 2 0 .port0⟩ = some s ∧
      ∃ i p, ((s i).port p).isBlocked = true ∨ ((s i).port p).isFailed = true := by
  have hstep : ∃ s, netStep .little threeWiring threeNodes ⟨1000, .deliver 2 0 .port0⟩ = some s :=
    ⟨_, rfl⟩
  obtain ⟨s, hs⟩ := hstep
  have h₀ : ((network .little threeWiring).restrict (RecoverBacked threeWiring)).Reachable
      threeNodes := .init assembled_threeNodes
  have hb : RecoverBacked threeWiring threeNodes ⟨1000, .deliver 2 0 .port0⟩ := by
    intro p hp
    cases hp
  exact ⟨s, hs, loop_free (h₀.step ⟨hb, hs⟩)⟩

/-- Link 0 and link 1 fail, link 0 recovers, and the SF of node 2 reaches the others around the
ring. When link 1 recovers, node 1 announces R-APS(NR) without a block, and node 2 hears it. -/
def loopRun : List (NetInput 3) :=
  [⟨1000, .fail 0 .near⟩, ⟨1000, .fail 0 .far⟩, ⟨2000, .fail 1 .near⟩, ⟨2000, .fail 1 .far⟩,
    ⟨3000, .recover 0 .near⟩, ⟨3000, .recover 0 .far⟩, ⟨4000, .deliver 2 0 .port0⟩,
    ⟨4000, .deliver 2 1 .port0⟩, ⟨5000, .recover 1 .near⟩, ⟨5000, .recover 1 .far⟩,
    ⟨6000, .deliver 1 2 .port0⟩]

set_option maxRecDepth 20000 in
theorem loop_free_counterexample :
    ¬ ∀ (N : Nat) (host : ByteOrder) (w : Wiring N) (s : Net N), (network host w).Reachable s →
      ∃ i p, ((s i).port p).isBlocked = true ∨ ((s i).port p).isFailed = true := by
  intro h
  have hrun : ∃ s, Lts.exec (netStep .little threeWiring) threeNodes loopRun = some s ∧
      (s 0).port0 = ⟨false, false⟩ ∧ (s 0).port1 = ⟨false, false⟩ ∧
      (s 1).port0 = ⟨false, false⟩ ∧ (s 1).port1 = ⟨false, false⟩ ∧
      (s 2).port0 = ⟨false, false⟩ ∧ (s 2).port1 = ⟨false, false⟩ :=
    ⟨_, rfl, rfl, rfl, rfl, rfl, rfl, rfl⟩
  obtain ⟨s, hs, h₀₀, h₀₁, h₁₀, h₁₁, h₂₀, h₂₁⟩ := hrun
  have hreach : (network .little threeWiring).Reachable s :=
    ⟨_, _, assembled_threeNodes, Lts.run_of_exec hs⟩
  have hopen : ∀ i p, (s i).port p = ⟨false, false⟩ := by
    intro i p
    match i, p with
    | 0, .port0 => exact h₀₀
    | 0, .port1 => exact h₀₁
    | 1, .port0 => exact h₁₀
    | 1, .port1 => exact h₁₁
    | 2, .port0 => exact h₂₀
    | 2, .port1 => exact h₂₁
  obtain ⟨i, p, hp⟩ := h 3 .little threeWiring s hreach
  rw [hopen i p] at hp
  exact absurd hp (by simp)

end Erps.Sim
