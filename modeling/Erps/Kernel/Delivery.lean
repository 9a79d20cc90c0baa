import Erps.Kernel.Circulation
import Erps.Sim.Switching

/-!
# Every node, once

The other half of what the blocks are for: no node is cut off. If one link is closed at both of its
ends and everything else is open, a frame that comes in at one node and is flooded by every bridge is
taken in by each of the others exactly once, whichever way round is the shorter, and by its own node
not at all (`delivered_once`).
-/

set_option autoImplicit false

namespace Erps.Sim

variable {N : Nat}

theorem ahead_self (i : Fin N) : ahead i i = 0 := by
  unfold ahead
  rw [if_pos (Nat.le_refl _), Nat.sub_self]

/-- There and back again. -/
theorem ahead_add {i j : Fin N} (h : i ≠ j) : ahead i j + ahead j i = N := by
  have hi := i.isLt
  have hj := j.isLt
  have hne : i.val ≠ j.val := fun heq => h (Fin.ext heq)
  unfold ahead
  split <;> split <;> omega

theorem ahead_nextNode_self (i : Fin N) : ahead (nextNode i) i + 1 = N := by
  have hi := i.isLt
  unfold ahead
  rw [nextNode_val]
  split <;> split <;> omega

theorem ahead_prevNode_self (i : Fin N) : ahead i (prevNode i) + 1 = N := by
  have hi := i.isLt
  unfold ahead
  rw [prevNode_val]
  split <;> split <;> omega

theorem ahead_nextNode_nextNode (i j : Fin N) : ahead (nextNode i) (nextNode j) = ahead i j := by
  have hi := i.isLt
  have hj := j.isLt
  unfold ahead
  rw [nextNode_val, nextNode_val]
  split <;> split <;> split <;> split <;> omega

/-- The next node in this direction. -/
def LinkEnd.next : LinkEnd → Fin N → Fin N
  | .near => prevNode
  | .far => nextNode

/-- How many hops it is from `i` to `j` in this direction. -/
def LinkEnd.gap (d : LinkEnd) (i j : Fin N) : Nat :=
  match d with
  | .near => ahead j i
  | .far => ahead i j

theorem LinkEnd.gap_self (d : LinkEnd) (i : Fin N) : d.gap i i = 0 := by
  cases d <;> exact ahead_self i

theorem LinkEnd.gap_lt (d : LinkEnd) (i j : Fin N) : d.gap i j < N := by
  cases d <;> exact ahead_lt _ _

theorem LinkEnd.gap_next (d : LinkEnd) {i j : Fin N} (h : i ≠ j) :
    d.gap (d.next i) j + 1 = d.gap i j := by
  cases d with
  | near => exact ahead_prevNode (Ne.symm h)
  | far => exact ahead_nextNode h

theorem LinkEnd.gap_next_self (d : LinkEnd) (i : Fin N) : d.gap (d.next i) i + 1 = N := by
  cases d with
  | near => exact ahead_prevNode_self i
  | far => exact ahead_nextNode_self i

end Erps.Sim

namespace Erps.Kernel.Life

open Bytes
open Sim (Wiring LinkEnd Flight nextNode firstNode middleNode lastNode)

section plane

variable {N : Nat} {env : Fin N → Env} {c : Cabling N} {s t : Plane N}

/-! ## Who takes a frame in -/

/-- Link `l` is closed at both of its ends, and nothing else is blocked. -/
def CutAt (c : Cabling N) (l : Fin N) (s : Plane N) : Prop :=
  ∀ d k, Stops c d k s ↔ k = LinkEnd.node l d

/-- Whether a frame that arrives at node `i` in this direction gets to node `j` and is taken in there,
if link `l` is the closed one. -/
def visits (l j : Fin N) (d : LinkEnd) (i : Fin N) : Nat :=
  if d.gap i j < d.gap i (LinkEnd.node l d) then 1 else 0

theorem visits_node (l j : Fin N) (d : LinkEnd) : visits l j d (LinkEnd.node l d) = 0 := by
  unfold visits
  rw [d.gap_self, if_neg (Nat.not_lt_zero _)]

theorem visits_next {l j : Fin N} {d : LinkEnd} {i : Fin N} (h : i ≠ LinkEnd.node l d) :
    visits l j d (d.next i) + (if i = j then 1 else 0) = visits l j d i := by
  have hstop := d.gap_next h
  unfold visits
  by_cases hj : i = j
  · subst hj
    have hround := d.gap_next_self i
    have hlt := d.gap_lt (d.next i) (LinkEnd.node l d)
    rw [d.gap_self, if_pos rfl, if_neg (by omega), if_pos (by omega)]
  · have hnear := d.gap_next hj
    rw [if_neg hj]
    split <;> split <;> omega

/-- One of the two ways round gets to `j`. -/
theorem visits_both (l j i : Fin N) :
    visits l j .far (nextNode i) + visits l j .near (Sim.prevNode i) = if j = i then 0 else 1 := by
  unfold visits LinkEnd.gap LinkEnd.node
  simp only [Sim.ahead_nextNode_nextNode]
  have hl := Sim.ahead_lt i l
  have hround := Sim.ahead_nextNode_self i
  have hround' := Sim.ahead_prevNode_self i
  have hl' := Sim.ahead_lt l (Sim.prevNode i)
  by_cases hj : j = i
  · subst hj
    rw [if_pos rfl, if_neg (by omega), if_neg (by omega)]
  · have hfar := Sim.ahead_nextNode (Ne.symm hj)
    have hnear := Sim.ahead_prevNode hj
    have hj' := Sim.ahead_add hj
    rw [if_neg hj]
    by_cases hli : l = i
    · subst hli
      have hself := Sim.ahead_self l
      rw [if_neg (by omega), if_pos (by omega)]
    · have hnear' := Sim.ahead_prevNode hli
      have hl'' := Sim.ahead_add hli
      split <;> split <;> omega

/-! ## Runs -/

/-- Node `j`, with the module it has in `s`, takes in the frame that arrives. -/
def takes (c : Cabling N) (s : Plane N) (j : Fin N) : PlaneEvent N → Bool
  | .hop _ f _ => f.node = j && (s.node j).admits (c.bdgPort j (c.facing j f.dest))
  | _ => false

/-- How many of the frames under way node `j` will take in. -/
def Plane.visits (l j : Fin N) (s : Plane N) : Nat :=
  (s.air.map fun f => Life.visits l j f.dest f.node).sum

theorem Plane.visits_drop (l j : Fin N) {f : Flight N} (hf : f ∈ s.air) :
    Life.visits l j f.dest f.node + (s.drop f).visits l j = s.visits l j :=
  Multiset.sum_map_erase (f := fun f => Life.visits l j f.dest f.node) hf

theorem onward_node (c : Cabling N) (f : Flight N) : (onward c f).node = f.dest.next f.node := by
  unfold onward Wiring.send
  rw [c.port_eq_facing]
  cases hd : f.dest with
  | near =>
    have hother : (c.facing f.node .near).other ≠ c.wiring.toNext f.node :=
      (c.wiring.toNext f.node).other_ne
    rw [if_neg hother]
    rfl
  | far =>
    have hother : (c.facing f.node .far).other = c.wiring.toNext f.node := PortId.other_other _
    rw [if_pos hother]
    rfl

/-- The modules are those of `s`, and only data frames are under way. -/
def SameModules (s t : Plane N) : Prop := t.Plain ∧ t.node = s.node

theorem SameModules.flood {u : Plane N} (h : SameModules s t) {e : PlaneEvent N}
    (hst : ((plane env c).restrict fun _ e => Floods e).step t e u) : SameModules s u := by
  obtain ⟨⟨now, f, rfl⟩, hst⟩ := hst
  refine ⟨h.1.step hst, ?_⟩
  cases moved h.1 hst with
  | dropped | passed => exact h.2

/-- Every hop is the visit it counts for. -/
theorem visits_flood {l : Fin N} (hs : Serving c s) (hcut : CutAt c l s) (j : Fin N) {u : Plane N}
    (hports : ∀ i p, c.bdgPort i p ∈ c.ports i) (h : SameModules s t) {e : PlaneEvent N}
    (hflood : Floods e) (hst : planeStep env c t e = some u) :
    u.visits l j + (if takes c s j e then 1 else 0) = t.visits l j := by
  obtain ⟨now, f, rfl⟩ := hflood
  have hf : f ∈ t.air := by
    cases moved h.1 hst with
    | dropped _ _ _ hf | passed _ _ _ hf => exact hf
  have hdrop := Plane.visits_drop l j hf
  have hadmits := hs.admits_iff f.dest f.node
  rw [hop_broadcast hports hf (h.1 f hf), Option.some.injEq, h.2] at hst
  subst hst
  by_cases hstop : f.node = LinkEnd.node l f.dest
  · -- it is stopped, and was not to get any further
    have hno : (s.node f.node).admits (c.bdgPort f.node (c.facing f.node f.dest)) = false := by
      apply Bool.eq_false_iff.mpr
      intro hgo
      exact hadmits.mp hgo ((hcut f.dest f.node).mpr hstop)
    have htakes : takes c s j (.hop now f fun _ _ => .broadcast) = false := by
      by_cases hj : f.node = j
      · subst hj
        simp [takes, hno]
      · simp [takes, hj]
    have hzero : Life.visits l j f.dest f.node = 0 := by
      rw [hstop]
      exact visits_node l j f.dest
    rw [if_neg (by simp [hno]), htakes, if_neg (by simp)]
    omega
  · have hgo : (s.node f.node).admits (c.bdgPort f.node (c.facing f.node f.dest)) = true :=
      hadmits.mpr fun h => hstop ((hcut f.dest f.node).mp h)
    have htakes : takes c s j (.hop now f fun _ _ => .broadcast) = decide (f.node = j) := by
      by_cases hj : f.node = j
      · subst hj
        simp [takes, hgo]
      · simp [takes, hj]
    have hnext := visits_next (j := j) hstop
    have hadd : ((t.drop f).add (onward c f)).visits l j =
        Life.visits l j f.dest (f.dest.next f.node) + (t.drop f).visits l j := by
      simp [Plane.visits, Plane.add, onward_dest, onward_node]
    rw [if_pos hgo, htakes, hadd]
    simp only [decide_eq_true_eq]
    omega

/-- What comes in and is flooded goes both ways round. -/
theorem air_of_enter (hs : Serving c s) (hports : ∀ i p, c.bdgPort i p ∈ c.ports i) {i : Fin N}
    {now : Int32} {bdgPort : Int} {data : List UInt8}
    (hst : planeStep env c s (.enter i now bdgPort data fun _ _ => .broadcast) = some t) :
    isRapsFrame data = false ∧ t.node = s.node ∧
      t.air = c.wiring.send i .port0 data ::ₘ c.wiring.send i .port1 data ::ₘ s.air := by
  simp only [planeStep] at hst
  split at hst
  · cases hst
  · rename_i hin
    simp only [not_or, Bool.not_eq_true] at hin
    obtain ⟨hdata, h₀, h₁⟩ := hin
    obtain ⟨ring, hg, hactive, hidx⟩ := hs i
    have hrecv : recvPort ring.er bdgPort = none := by
      have hidx₀ : ring.er.port0Idx = c.bdgPort i .port0 := hidx .port0
      have hidx₁ : ring.er.port1Idx = c.bdgPort i .port1 := hidx .port1
      unfold recvPort
      rw [hidx₀, hidx₁, if_neg (Ne.symm h₀), if_neg (Ne.symm h₁)]
    have hadmits : (s.node i).admits bdgPort = true := by
      unfold State.admits
      rw [hg]
      simp [hactive, hrecv]
    have hout : c.out i bdgPort (some .broadcast) = [.port0, .port1] := by
      simp [Cabling.out, leaves, Destination.leaves, hports, Ne.symm h₀, Ne.symm h₁]
    rw [Plane.recv_dataFrame _ _ _ hdata, hadmits, if_pos rfl, hout, Option.some.injEq] at hst
    subst hst
    exact ⟨hdata, rfl, by simp [Plane.send, ← Multiset.cons_coe]⟩

/-- The two directions of the two ports. -/
theorem visits_send (c : Cabling N) (l j i : Fin N) (data : List UInt8) :
    visits l j (c.wiring.send i .port0 data).dest (c.wiring.send i .port0 data).node +
      visits l j (c.wiring.send i .port1 data).dest (c.wiring.send i .port1 data).node =
      if j = i then 0 else 1 := by
  have hboth := visits_both l j i
  unfold Wiring.send
  cases c.wiring.toNext i with
  | port0 => exact hboth
  | port1 =>
    rw [Nat.add_comm] at hboth
    exact hboth

/-- With both ends of a link closed the hops are counted. -/
theorem length_le_of_cut {l : Fin N} (hcut : CutAt c l s) (h : SameModules s t) {u : Plane N}
    {es : List (PlaneEvent N)} (hr : ((plane env c).restrict fun _ e => Floods e).Run t es u) :
    es.length ≤ t.due .far (LinkEnd.node l .far) + t.due .near (LinkEnd.node l .near) := by
  have hstops : ∀ {t : Plane N} (d : LinkEnd), SameModules s t →
      Stops c d (LinkEnd.node l d) t := by
    intro t d ht
    unfold Stops
    rw [ht.2]
    exact (hcut d _).mpr rfl
  have hpay : ∀ (t : Plane N) e u, SameModules s t →
      ((plane env c).restrict fun _ e => Floods e).step t e u →
      u.due .far (LinkEnd.node l .far) + u.due .near (LinkEnd.node l .near) + 1 ≤
        t.due .far (LinkEnd.node l .far) + t.due .near (LinkEnd.node l .near) := by
    intro t e u ht hst
    have hfar := pays ht.1 (hstops .far ht) hst.2
    have hnear := pays ht.1 (hstops .near ht) hst.2
    obtain ⟨⟨now, f, rfl⟩, _⟩ := hst
    cases hd : f.dest <;>
      simp only [PlaneEvent.isHop, PlaneEvent.isEnter, hd, decide_true, decide_false, reduceCtorEq,
        Bool.false_eq_true, if_true, if_false] at hfar hnear <;> omega
  exact hr.length_le (fun _ _ _ ht hst => SameModules.flood ht hst) hpay h

/-- **Every node, once.** With one link closed, what comes in at node `i` and is flooded is over after
`2 * N` hops, and when nothing is left on the links every other node has taken it in exactly once. -/
theorem delivered_once {l i : Fin N} (hs : Serving c s) (hcut : CutAt c l s)
    (hports : ∀ i p, c.bdgPort i p ∈ c.ports i) (hair : s.air = 0) {now : Int32} {bdgPort : Int}
    {data : List UInt8}
    (henter : planeStep env c s (.enter i now bdgPort data fun _ _ => .broadcast) = some t)
    {u : Plane N} {es : List (PlaneEvent N)}
    (hr : ((plane env c).restrict fun _ e => Floods e).Run t es u) :
    es.length ≤ 2 * N ∧ ∀ j, es.countP (takes c s j) ≤ (if j = i then 0 else 1) ∧
      (u.air = 0 → es.countP (takes c s j) = if j = i then 0 else 1) := by
  obtain ⟨hdata, hnode, ht⟩ := air_of_enter hs hports henter
  have hplain : s.Plain := by
    intro f hf
    rw [hair] at hf
    exact absurd hf (Multiset.notMem_zero f)
  have hsame : SameModules s t := ⟨hplain.step henter, hnode⟩
  refine ⟨?_, ?_⟩
  · have hlen := length_le_of_cut hcut hsame hr
    have hdue : ∀ d, t.due d (LinkEnd.node l d) ≤ N := by
      intro d
      have hports := due_send_ports c d (LinkEnd.node l d) i data
      unfold Plane.due
      rw [ht, hair]
      simpa using hports
    have hfar := hdue .far
    have hnear := hdue .near
    omega
  · intro j
    have hpay : ∀ (t : Plane N) e u, SameModules s t →
        ((plane env c).restrict fun _ e => Floods e).step t e u →
        u.visits l j + (if takes c s j e then 1 else 0) = t.visits l j :=
      fun _ _ _ ht hst => visits_flood hs hcut j hports ht hst.1 hst.2
    have hcount := hr.add_countP_eq (fun _ _ _ ht hst => SameModules.flood ht hst) hpay hsame
    have hstart : t.visits l j = if j = i then 0 else 1 := by
      have hsend := visits_send c l j i data
      unfold Plane.visits
      rw [ht, hair]
      simpa using hsend
    rw [hstart] at hcount
    refine ⟨by omega, ?_⟩
    intro hu
    have hnone : u.visits l j = 0 := by
      unfold Plane.visits
      rw [hu]
      rfl
    omega

end plane

/-! ## Three nodes -/

/-- The last node is cabled the other way round, so that it blocks the same link as the first. -/
def closedLink : Cabling 3 :=
  { threeBridges with wiring := ⟨fun i => if i = lastNode then .port0 else .port1⟩ }

/-- Three plain nodes, and the one in the middle has heard R-APS(NR,RB). -/
def plainNodes : List (PlaneEvent 3) :=
  [.module firstNode (.load true), .module middleNode (.load true), .module lastNode (.load true),
    .module firstNode (.ioctl 0 .init (some plainRequest) allWell someIdx),
    .module middleNode (.ioctl 0 .init (some plainRequest) allWell someIdx),
    .module lastNode (.ioctl 0 .init (some plainRequest) allWell someIdx),
    .module middleNode (.recv 10 true 1 (nrFrame 0x80))]

/-- A frame from the node in the middle, both ways round. -/
def fourHops : List (PlaneEvent 3) :=
  [⟨middleNode, .far, dataFrame⟩, ⟨firstNode, .near, dataFrame⟩, ⟨lastNode, .far, dataFrame⟩,
    ⟨lastNode, .near, dataFrame⟩].map fun f => .hop 0 f fun _ _ => .broadcast

/-- Which port each of them blocks. -/
def plainBlocks (i : Fin 3) (p : PortId) : Bool := i ≠ middleNode && p = .port0

/-- The module of node `i` has an active ring with the blocks of a plain node. -/
def HasRing (s : Plane 3) (i : Fin 3) : Prop :=
  ∃ ring, (s.node i).erGlobal = some ring ∧ ring.er.active = true ∧ ring.er.idx = someIdx ∧
    ring.er.blocked = plainBlocks i

theorem HasRing.stops_iff {s : Plane 3} {i : Fin 3} (h : HasRing s i) (d : LinkEnd) :
    Stops closedLink d i s ↔ plainBlocks i (closedLink.facing i d) = true := by
  obtain ⟨ring, hg, _, hidx, hb⟩ := h
  constructor
  · rintro ⟨ring', hg', _, hstop⟩
    have hsame : ring' = ring := Option.some.inj (hg'.symm.trans hg)
    rwa [hsame, hb] at hstop
  · intro hstop
    exact ⟨ring, hg, fun p => congrFun hidx p, by rwa [hb]⟩

theorem exists_plainNodes : ∃ s,
    Lts.exec (planeStep (fun _ => someEnv) closedLink) ⟨fun _ => .boot, 0⟩ plainNodes = some s ∧
      ∀ i, HasRing s i := by
  refine ⟨_, rfl, ?_⟩
  intro i
  match i with
  | 0 | 1 | 2 =>
    refine ⟨_, rfl, rfl, ?_, ?_⟩ <;> funext p <;> cases p <;> rfl

theorem delivered_once_plainNodes :
    ∃ s t u : Plane 3,
      Lts.exec (planeStep (fun _ => someEnv) closedLink) ⟨fun _ => .boot, 0⟩ plainNodes = some s ∧
      planeStep (fun _ => someEnv) closedLink s
        (.enter middleNode 0 0 dataFrame fun _ _ => .broadcast) = some t ∧
      Lts.exec (planeStep (fun _ => someEnv) closedLink) t fourHops = some u ∧
      fourHops.countP (takes closedLink s firstNode) = 1 ∧
      fourHops.countP (takes closedLink s lastNode) = 1 := by
  have hsteps : ∃ s t u,
      Lts.exec (planeStep (fun _ => someEnv) closedLink) ⟨fun _ => .boot, 0⟩ plainNodes = some s ∧
      planeStep (fun _ => someEnv) closedLink s
        (.enter middleNode 0 0 dataFrame fun _ _ => .broadcast) = some t ∧
      Lts.exec (planeStep (fun _ => someEnv) closedLink) t fourHops = some u ∧ u.air = 0 ∧ s.air = 0 :=
    ⟨_, _, _, rfl, rfl, rfl, rfl, rfl⟩
  obtain ⟨s, t, u, hs, ht, hu, hend, hair⟩ := hsteps
  obtain ⟨s', hs', hrings⟩ := exists_plainNodes
  have hsame : s' = s := Option.some.inj (hs'.symm.trans hs)
  subst hsame
  have hserving : Serving closedLink s' := by
    intro i
    obtain ⟨ring, hg, hactive, hidx, _⟩ := hrings i
    exact ⟨ring, hg, hactive, fun p => congrFun hidx p⟩
  have hcut : CutAt closedLink lastNode s' := by
    intro d k
    rw [(hrings k).stops_iff d]
    cases d <;> revert k <;> decide
  have hports : ∀ (i : Fin 3) p, closedLink.bdgPort i p ∈ closedLink.ports i := by
    intro i p
    cases p <;> simp [closedLink, threeBridges, someIdx]
  have hfloods : ∀ e ∈ fourHops, Floods e := by
    intro e he
    obtain ⟨f, _, rfl⟩ := List.mem_map.mp he
    exact ⟨0, f, rfl⟩
  have hrun : (plane (fun _ => someEnv) closedLink).Run t fourHops u := Lts.run_of_exec hu
  obtain ⟨_, honce⟩ := delivered_once hserving hcut hports hair ht (hrun.restrict hfloods)
  exact ⟨s', t, u, hs, ht, hu, (honce firstNode).2 hend, (honce lastNode).2 hend⟩

end Erps.Kernel.Life
