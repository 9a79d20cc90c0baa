import Mathlib.Data.Multiset.Count
import Erps.Kernel.Record
import Erps.Sim.Storm

/-!
# Data frames round a ring of kernel modules

What the blocks are for: the switches of the ring flood what they have not learnt, so without a block
a data frame goes round for ever. A module tests the port a frame comes in on and no other, so a block
stops the frames of one direction, those that arrive at it, and lets out those of the other.

`plane` is any number of modules with their bridges, whatever happens to each of them, and the data
frames on the links between them. As long as a module keeps the port blocked at which the frames of one
direction arrive, each of these frames makes no more hops than there are nodes
(`data_dies_out`); and a frame that is flooded by every bridge goes round for ever exactly if no module
blocks the port at which it arrives (`circulates_iff`), whatever the ports at the other ends are.
-/

set_option autoImplicit false

namespace Erps.Kernel.Life

open Bytes
open Sim (Wiring LinkEnd Flight nextNode)

/-! ## The system -/

/-- How the nodes are cabled: their links, the bridge ports their ring ports are attached at, and all
the ports of each bridge. -/
structure Cabling (N : Nat) where
  wiring : Wiring N
  bdgPort : Fin N → PortId → Int
  bdgPort_ne : ∀ i, bdgPort i .port0 ≠ bdgPort i .port1
  ports : Fin N → List Int

/-- The modules, and the data frames between them. -/
structure Plane (N : Nat) where
  node : Fin N → State
  air : Multiset (Flight N)

inductive PlaneEvent (N : Nat)
  /-- anything that happens to the module of node `i` -/
  | module (i : Fin N) (e : Event)
  /-- a data frame comes in at node `i`, not on a ring port -/
  | enter (i : Fin N) (now : Int32) (bdgPort : Int) (data : List UInt8)
      (learning : List UInt8 → Int → Destination)
  /-- a data frame arrives at the end of a link -/
  | hop (now : Int32) (f : Flight N) (learning : List UInt8 → Int → Destination)
  | lose (f : Flight N)

section plane

variable {N : Nat}

namespace Cabling

/-- The ring ports a frame leaves through. Netmap passes over a destination the frame came from. -/
def out (c : Cabling N) (i : Fin N) (bdgPort : Int) (d : Option Destination) : List PortId :=
  [PortId.port0, .port1].filter fun p =>
    c.bdgPort i p ≠ bdgPort ∧ c.bdgPort i p ∈ leaves (c.ports i) bdgPort d

/-- The port at which what travels in this direction arrives at node `i`. -/
def facing (c : Cabling N) (i : Fin N) : LinkEnd → PortId
  | .near => c.wiring.toNext i
  | .far => (c.wiring.toNext i).other

end Cabling

namespace Plane

/-- Node `i` is now `t`. -/
def put (s : Plane N) (i : Fin N) (t : State) : Plane N :=
  { s with node := Function.update s.node i t }

/-- Node `i` puts a frame on the links at these ports. -/
def send (c : Cabling N) (s : Plane N) (i : Fin N) (data : List UInt8) (ps : List PortId) : Plane N :=
  { s with air := (ps.map fun p => c.wiring.send i p data : List (Flight N)) + s.air }

def drop (s : Plane N) (f : Flight N) : Plane N := { s with air := s.air.erase f }

/-- `er_netmap_on_recv` at node `i`, and the bridge behind it. -/
def recv (c : Cabling N) (env : Env) (s : Plane N) (i : Fin N) (now : Int32) (bdgPort : Int)
    (data : List UInt8) (learning : List UInt8 → Int → Destination) : Option (Plane N) :=
  (erNetmapOnRecv env.host env.hz now true learning bdgPort data (s.node i)).map fun (d, t) =>
    (s.put i t).send c i data (c.out i bdgPort d)

end Plane

def planeStep (env : Fin N → Env) (c : Cabling N) (s : Plane N) : PlaneEvent N → Option (Plane N)
  | .module i e => (handle (env i) (s.node i) e).map (s.put i)
  | .enter i now bdgPort data learning =>
    if isRapsFrame data ∨ bdgPort = c.bdgPort i .port0 ∨ bdgPort = c.bdgPort i .port1 then none
    else s.recv c (env i) i now bdgPort data learning
  | .hop now f learning =>
    if f ∈ s.air then
      (s.drop f).recv c (env f.node) f.node now (c.bdgPort f.node (c.wiring.port f.link f.dest)) f.data
        learning
    else none
  | .lose f => if f ∈ s.air then some (s.drop f) else none

/-- **The data plane.** It starts before any module is loaded, with nothing on the links. -/
def plane (env : Fin N → Env) (c : Cabling N) : Lts (Plane N) (PlaneEvent N) :=
  .ofStep (fun s => (∀ i, s.node i = .boot) ∧ s.air = 0) (planeStep env c)

/-! ## What one module does to a data frame -/

variable {env : Fin N → Env} {c : Cabling N} {s t : Plane N}

/-- Whether a data frame goes on from here. -/
def State.admits (s : State) (bdgPort : Int) : Bool :=
  s.erGlobal.any fun ring => ring.er.active && !(recvPort ring.er bdgPort).any ring.er.blocked

theorem erNetmapOnRecv_dataFrame (e : Env) (s : State) {data : List UInt8}
    (hdata : isRapsFrame data = false) (now : Int32) (rapsCreate : Bool) (bdgPort : Int)
    (learning : List UInt8 → Int → Destination) :
    erNetmapOnRecv e.host e.hz now rapsCreate learning bdgPort data s =
      some (if s.admits bdgPort then some (learning data bdgPort) else none, s) := by
  cases hg : s.erGlobal with
  | none => simp [erNetmapOnRecv, State.admits, hg]
  | some ring =>
    cases hactive : ring.er.active with
    | false => simp [erNetmapOnRecv, State.admits, hg, hactive]
    | true =>
      have hrecv := @erNetmapOnRecv_data ⟨e.host, e.hz, e.ignoresNull, learning⟩ s ring hg hactive now
        rapsCreate bdgPort data hdata
      rw [hrecv]
      unfold State.admits
      rw [hg]
      cases hb : (recvPort ring.er bdgPort).any ring.er.blocked <;> simp [hb, hactive]

/-- A data frame leaves every module as it is. -/
theorem Plane.recv_dataFrame (e : Env) (s : Plane N) (i : Fin N) {data : List UInt8}
    (hdata : isRapsFrame data = false) (now : Int32) (bdgPort : Int)
    (learning : List UInt8 → Int → Destination) :
    s.recv c e i now bdgPort data learning = some (s.send c i data (c.out i bdgPort
      (if (s.node i).admits bdgPort then some (learning data bdgPort) else none))) := by
  unfold Plane.recv
  rw [erNetmapOnRecv_dataFrame e _ hdata, Option.map_some]
  simp only [Plane.put, Function.update_eq_self]

namespace Cabling

/-- On a ring port a frame comes in, at the other it may leave. -/
theorem out_ring (c : Cabling N) (i : Fin N) (p : PortId) (d : Option Destination) :
    c.out i (c.bdgPort i p) d = [] ∨ c.out i (c.bdgPort i p) d = [p.other] := by
  unfold out
  cases p with
  | port0 =>
    rw [List.filter_cons_of_neg (by simp), List.filter_cons]
    split
    · exact .inr rfl
    · exact .inl rfl
  | port1 =>
    rw [List.filter_cons, List.filter_cons_of_neg (by simp)]
    split
    · exact .inr rfl
    · exact .inl rfl

/-- What is not admitted leaves nowhere. -/
theorem out_none (c : Cabling N) (i : Fin N) (bdgPort : Int) : c.out i bdgPort none = [] := by
  simp [out, leaves]

theorem port_eq_facing (c : Cabling N) (f : Flight N) :
    c.wiring.port f.link f.dest = c.facing f.node f.dest := by
  obtain ⟨l, e, data⟩ := f
  cases e <;> rfl

/-- What leaves at the port across from where it came in keeps its direction. -/
theorem send_other_dest (c : Cabling N) (i : Fin N) (d : LinkEnd) (data : List UInt8) :
    (c.wiring.send i (c.facing i d).other data).dest = d := by
  unfold Wiring.send facing
  cases d with
  | near => rw [if_neg (c.wiring.toNext i).other_ne]
  | far => rw [if_pos (PortId.other_other _)]

/-- What leaves at the port where the others of this direction come in goes the other way. -/
theorem send_facing_dest (c : Cabling N) (i : Fin N) (d : LinkEnd) (data : List UInt8) :
    (c.wiring.send i (c.facing i d) data).dest ≠ d := by
  unfold Wiring.send facing
  cases d with
  | near =>
    rw [if_pos rfl]
    simp
  | far =>
    rw [if_neg (c.wiring.toNext i).other_ne]
    simp

end Cabling

/-! ## What a step can do -/

/-- The frame, one link on. -/
def onward (c : Cabling N) (f : Flight N) : Flight N :=
  c.wiring.send f.node (c.wiring.port f.link f.dest).other f.data

theorem onward_dest (c : Cabling N) (f : Flight N) : (onward c f).dest = f.dest := by
  unfold onward
  rw [c.port_eq_facing]
  exact c.send_other_dest f.node f.dest f.data

theorem onward_data (c : Cabling N) (f : Flight N) : (onward c f).data = f.data := by
  unfold onward Wiring.send
  split <;> rfl

/-- A frame is put on a link. -/
def Plane.add (s : Plane N) (f : Flight N) : Plane N := { s with air := f ::ₘ s.air }

/-- Only data frames are on the links. -/
def Plane.Plain (s : Plane N) : Prop := ∀ f ∈ s.air, isRapsFrame f.data = false

inductive Moved (c : Cabling N) (s : Plane N) : PlaneEvent N → Plane N → Prop
  | module (i : Fin N) (e : Event) (t : State) : Moved c s (.module i e) (s.put i t)
  | entered (i : Fin N) (now : Int32) (bdgPort : Int) (data : List UInt8)
      (learning : List UInt8 → Int → Destination) (d : Option Destination)
      (hdata : isRapsFrame data = false) :
      Moved c s (.enter i now bdgPort data learning) (s.send c i data (c.out i bdgPort d))
  | dropped (now : Int32) (f : Flight N) (learning : List UInt8 → Int → Destination) (hf : f ∈ s.air) :
      Moved c s (.hop now f learning) (s.drop f)
  | passed (now : Int32) (f : Flight N) (learning : List UInt8 → Int → Destination) (hf : f ∈ s.air)
      (hadmits : (s.node f.node).admits (c.bdgPort f.node (c.facing f.node f.dest)) = true) :
      Moved c s (.hop now f learning) ((s.drop f).add (onward c f))
  | lost (f : Flight N) (hf : f ∈ s.air) : Moved c s (.lose f) (s.drop f)

theorem moved (hplain : s.Plain) {e : PlaneEvent N} (hst : planeStep env c s e = some t) :
    Moved c s e t := by
  cases e with
  | module i e =>
    obtain ⟨t', _, rfl⟩ := Option.map_eq_some_iff.mp hst
    exact .module i e t'
  | enter i now bdgPort data learning =>
    simp only [planeStep] at hst
    split at hst
    · cases hst
    · rename_i hin
      have hdata : isRapsFrame data = false := Bool.eq_false_iff.mpr fun hraps => hin (.inl hraps)
      rw [Plane.recv_dataFrame _ _ _ hdata, Option.some.injEq] at hst
      subst hst
      exact .entered i now bdgPort data learning _ hdata
  | hop now f learning =>
    simp only [planeStep] at hst
    split at hst
    · rename_i hf
      have hdropped : Moved c s (.hop now f learning) ((s.drop f).send c f.node f.data []) := by
        have hnothing : (s.drop f).send c f.node f.data [] = s.drop f := by simp [Plane.send]
        rw [hnothing]
        exact .dropped now f learning hf
      rw [Plane.recv_dataFrame _ _ _ (hplain f hf), Option.some.injEq, c.port_eq_facing] at hst
      subst hst
      cases hadmits : (s.node f.node).admits (c.bdgPort f.node (c.facing f.node f.dest)) with
      | false =>
        rw [show ((s.drop f).node f.node).admits _ = false from hadmits, if_neg (by simp), c.out_none]
        exact hdropped
      | true =>
        rcases c.out_ring f.node (c.facing f.node f.dest) (if ((s.drop f).node f.node).admits
            (c.bdgPort f.node (c.facing f.node f.dest)) then some (learning f.data
              (c.bdgPort f.node (c.facing f.node f.dest))) else none) with hout | hout
        · rw [hout]
          exact hdropped
        · rw [hout]
          have honward : onward c f = c.wiring.send f.node (c.facing f.node f.dest).other f.data := by
            unfold onward
            rw [c.port_eq_facing]
          have hpassed := Moved.passed now f learning hf hadmits
          rw [honward] at hpassed
          exact hpassed
    · cases hst
  | lose f =>
    simp only [planeStep] at hst
    split at hst
    · rename_i hf
      cases hst
      exact .lost f hf
    · cases hst

theorem Plane.Plain.step (h : s.Plain) {e : PlaneEvent N} (hst : planeStep env c s e = some t) :
    t.Plain := by
  have hdrop : ∀ f, (s.drop f).Plain := fun f g hg => h g (Multiset.mem_of_mem_erase hg)
  cases moved h hst with
  | module => exact h
  | entered i now bdgPort data learning d hdata =>
    intro f hf
    rcases Multiset.mem_add.mp hf with hnew | hold
    · obtain ⟨p, _, rfl⟩ := List.mem_map.mp (Multiset.mem_coe.mp hnew)
      unfold Wiring.send
      split <;> exact hdata
    · exact h f hold
  | dropped now f | lost f => exact hdrop f
  | passed now f learning hf =>
    intro g hg
    rcases Multiset.mem_cons.mp hg with rfl | hg
    · rw [onward_data]
      exact h f hf
    · exact hdrop f g hg

/-! ## The direction of a block -/

/-- A module that knows its ports knows at which of them a frame comes in. -/
theorem recvPort_bdgPort {ring : GlobalRing} {k : Fin N} (hidx : ∀ p, ring.er.idx p = c.bdgPort k p)
    (p : PortId) : recvPort ring.er (c.bdgPort k p) = some p := by
  have hne : ring.er.port0Idx ≠ ring.er.port1Idx := by
    have h₀ : ring.er.port0Idx = c.bdgPort k .port0 := hidx .port0
    have h₁ : ring.er.port1Idx = c.bdgPort k .port1 := hidx .port1
    rw [h₀, h₁]
    exact c.bdgPort_ne k
  exact (recvPort_eq_some_iff hne).mpr (hidx p)

/-- The module of node `k` blocks the port at which what travels in this direction arrives. -/
def Stops (c : Cabling N) (d : LinkEnd) (k : Fin N) (s : Plane N) : Prop :=
  ∃ ring, (s.node k).erGlobal = some ring ∧ (∀ p, ring.er.idx p = c.bdgPort k p) ∧
    ring.er.blocked (c.facing k d) = true

theorem Stops.admits {d : LinkEnd} {k : Fin N} (h : Stops c d k s) :
    (s.node k).admits (c.bdgPort k (c.facing k d)) = false := by
  obtain ⟨ring, hg, hidx, hb⟩ := h
  have hrecv := recvPort_bdgPort hidx (c.facing k d)
  unfold State.admits
  rw [hg]
  simp [hrecv, hb]

/-- How many data frames travel in this direction. -/
def Plane.bound (d : LinkEnd) (s : Plane N) : Nat := s.air.countP (·.dest = d)

/-- How many more nodes a frame can reach in this direction before it is stopped at node `k`, this one
included. -/
def due (d : LinkEnd) (k : Fin N) (f : Flight N) : Nat := if f.dest = d then f.toGo k else 0

def Plane.due (d : LinkEnd) (k : Fin N) (s : Plane N) : Nat := (s.air.map (Life.due d k)).sum

theorem due_le (d : LinkEnd) (k : Fin N) (f : Flight N) :
    due d k f ≤ N * if f.dest = d then 1 else 0 := by
  unfold due
  split
  · rw [Nat.mul_one]
    exact f.toGo_le k
  · exact Nat.zero_le _

theorem le_due (d : LinkEnd) (k : Fin N) (f : Flight N) :
    (if f.dest = d then 1 else 0) ≤ due d k f := by
  unfold due
  split
  · exact f.one_le_toGo k
  · exact Nat.le_refl 0

theorem Plane.due_le (d : LinkEnd) (k : Fin N) (s : Plane N) : s.due d k ≤ N * s.bound d := by
  unfold Plane.due Plane.bound
  induction s.air using Multiset.induction with
  | empty => exact Nat.zero_le _
  | cons f air ih =>
    rw [Multiset.map_cons, Multiset.sum_cons, Multiset.countP_cons, Nat.mul_add, Nat.add_comm]
    exact Nat.add_le_add ih (Life.due_le d k f)

theorem Plane.bound_le (d : LinkEnd) (k : Fin N) (s : Plane N) : s.bound d ≤ s.due d k := by
  unfold Plane.due Plane.bound
  induction s.air using Multiset.induction with
  | empty => exact Nat.zero_le _
  | cons f air ih =>
    rw [Multiset.map_cons, Multiset.sum_cons, Multiset.countP_cons, Nat.add_comm]
    exact Nat.add_le_add (le_due d k f) ih

theorem Plane.due_drop (d : LinkEnd) (k : Fin N) {f : Flight N} (hf : f ∈ s.air) :
    Life.due d k f + (s.drop f).due d k = s.due d k :=
  Multiset.sum_map_erase hf

theorem Plane.due_send (d : LinkEnd) (k : Fin N) (s : Plane N) (i : Fin N) (data : List UInt8)
    (ps : List PortId) :
    (s.send c i data ps).due d k =
      (ps.map fun p => Life.due d k (c.wiring.send i p data)).sum + s.due d k := by
  simp [Plane.due, Plane.send, Function.comp_def]

/-- One of the two links leads in each direction. -/
theorem due_send_ports (c : Cabling N) (d : LinkEnd) (k i : Fin N) (data : List UInt8) :
    due d k (c.wiring.send i .port0 data) + due d k (c.wiring.send i .port1 data) ≤ N := by
  have hzero : due d k (c.wiring.send i (c.facing i d) data) = 0 :=
    if_neg (c.send_facing_dest i d data)
  have hle : due d k (c.wiring.send i (c.facing i d).other data) ≤ N := by
    have h := due_le d k (c.wiring.send i (c.facing i d).other data)
    rwa [if_pos (c.send_other_dest i d data), Nat.mul_one] at h
  cases hp : c.facing i d with
  | port0 =>
    rw [hp] at hzero hle
    rwa [hzero, Nat.zero_add]
  | port1 =>
    rw [hp] at hzero hle
    rwa [hzero, Nat.add_zero]

/-- A frame that comes in goes one way round at most once. -/
theorem due_out_le (d : LinkEnd) (k i : Fin N) (data : List UInt8) (bdgPort : Int)
    (dest : Option Destination) :
    ((c.out i bdgPort dest).map fun p => due d k (c.wiring.send i p data)).sum ≤ N := by
  have hsub : (c.out i bdgPort dest).Sublist [.port0, .port1] := List.filter_sublist
  have hsum := (hsub.map fun p => due d k (c.wiring.send i p data)).sum_le_sum
    (fun n _ => Nat.zero_le n)
  refine hsum.trans ?_
  simpa using due_send_ports c d k i data

/-- A frame that goes on from another node is a hop nearer to node `k`. -/
theorem due_onward (c : Cabling N) (d : LinkEnd) {k : Fin N} {f : Flight N}
    (hne : f.dest = d → k ≠ f.node) :
    due d k (onward c f) + (if f.dest = d then 1 else 0) = due d k f := by
  unfold due
  rw [onward_dest]
  split
  · rename_i hd
    exact f.toGo_send c.wiring (hne hd) f.data
  · rfl

/-! ## Runs -/

/-- A data frame comes in. -/
def PlaneEvent.isEnter : PlaneEvent N → Bool
  | .enter .. => true
  | _ => false

/-- A data frame that travels in this direction arrives at a node. -/
def PlaneEvent.isHop (d : LinkEnd) : PlaneEvent N → Bool
  | .hop _ f _ => f.dest = d
  | _ => false

/-- A frame brings its hops along when it comes in, and every hop takes one of them. -/
theorem pays {d : LinkEnd} {k : Fin N} (hplain : s.Plain) (hstop : Stops c d k s)
    {e : PlaneEvent N} (hst : planeStep env c s e = some t) :
    t.due d k + (if e.isHop d then 1 else 0) ≤ s.due d k + if e.isEnter then N else 0 := by
  cases moved hplain hst with
  | module => exact Nat.le_refl _
  | entered i now bdgPort data learning dest =>
    have hle := due_out_le (c := c) d k i data bdgPort dest
    rw [Plane.due_send]
    show _ + 0 ≤ s.due d k + N
    omega
  | dropped now f learning hf =>
    have hdrop := Plane.due_drop d k hf
    have hone := le_due d k f
    simp only [PlaneEvent.isHop, PlaneEvent.isEnter, decide_eq_true_eq, Bool.false_eq_true, if_false]
    omega
  | passed now f learning hf hadmits =>
    have hdrop := Plane.due_drop d k hf
    have hnode : f.dest = d → k ≠ f.node := by
      rintro rfl rfl
      rw [hstop.admits] at hadmits
      cases hadmits
    have honward := due_onward c d hnode
    have hadd : ((s.drop f).add (onward c f)).due d k =
        Life.due d k (onward c f) + (s.drop f).due d k := by
      simp [Plane.due, Plane.add]
    simp only [PlaneEvent.isHop, PlaneEvent.isEnter, decide_eq_true_eq, Bool.false_eq_true, if_false]
    omega
  | lost f hf =>
    have hdrop := Plane.due_drop d k hf
    show _ + 0 ≤ s.due d k + 0
    omega

/-- **A block stops a direction.** While a module blocks the port at which the data frames of one
direction arrive, each of them makes at most `N` hops, counted from the links or from where it comes
in, and what is still on its way in the end counts too. -/
theorem data_dies_out {d : LinkEnd} {k : Fin N} {es : List (PlaneEvent N)}
    (h : (plane env c).Reachable s)
    (hr : ((plane env c).restrict fun s _ => Stops c d k s).Run s es t) :
    t.bound d + es.countP (PlaneEvent.isHop d) ≤ N * s.bound d + N * es.countP PlaneEvent.isEnter := by
  have hplain : s.Plain := by
    refine h.invariant (I := Plane.Plain) ?_ ?_
    · rintro s ⟨_, hair⟩ f hf
      rw [hair] at hf
      exact absurd hf (Multiset.notMem_zero f)
    · intro s e t _ hs hst
      exact hs.step hst
  have hkeep : ∀ (s : Plane N) e t, s.Plain →
      ((plane env c).restrict fun s _ => Stops c d k s).step s e t → t.Plain :=
    fun _ _ _ hs hst => hs.step hst.2
  have hpay : ∀ (s : Plane N) e t, s.Plain →
      ((plane env c).restrict fun s _ => Stops c d k s).step s e t →
      t.due d k + (if e.isHop d then 1 else 0) ≤ s.due d k + if e.isEnter then N else 0 :=
    fun _ _ _ hs hst => pays hs hst.1 hst.2
  have hpaid := hr.countP_le hkeep hpay hplain
  calc t.bound d + es.countP (PlaneEvent.isHop d)
      ≤ t.due d k + es.countP (PlaneEvent.isHop d) := Nat.add_le_add_right (t.bound_le d k) _
    _ ≤ s.due d k + N * es.countP PlaneEvent.isEnter := hpaid
    _ ≤ N * s.bound d + N * es.countP PlaneEvent.isEnter :=
        Nat.add_le_add_right (s.due_le d k) _

end plane

/-- Three nodes whose bridges have a third port each. -/
def threeBridges : Cabling 3 where
  wiring := Sim.threeWiring
  bdgPort _ := someIdx
  bdgPort_ne _ := by decide
  ports _ := [0, 1, 2]

/-- The module of the first node holds up what arrives from the last one. -/
theorem stops_plain {s : Plane 3} {ring : GlobalRing} (hg : (s.node 0).erGlobal = some ring)
    (hport0 : ring.er.port0Idx = 1) (hport1 : ring.er.port1Idx = 2)
    (hb : ring.er.ring.port0.isBlocked = true) : Stops threeBridges .far 0 s := by
  refine ⟨ring, hg, ?_, hb⟩
  intro p
  cases p with
  | port0 => exact hport0
  | port1 => exact hport1

/-- A frame that comes in at the first node is sent both ways, and the next one does not take it. -/
theorem data_dies_out_plain :
    ∃ (s t : Plane 3) (es : List (PlaneEvent 3)), (plane (fun _ => someEnv) threeBridges).Run s es t ∧
      es.countP (PlaneEvent.isHop .far) = 1 ∧ t.bound .far + 1 ≤ 3 * s.bound .far + 3 := by
  have hsteps : ∃ s₁ s t₁ t ring ring₁,
      planeStep (fun _ => someEnv) threeBridges ⟨fun _ => .boot, 0⟩ (.module 0 (.load true)) = some s₁ ∧
      planeStep (fun _ => someEnv) threeBridges s₁
        (.module 0 (.ioctl 0 .init (some plainRequest) allWell someIdx)) = some s ∧
      planeStep (fun _ => someEnv) threeBridges s
        (.enter 0 0 0 dataFrame fun _ _ => .broadcast) = some t₁ ∧
      planeStep (fun _ => someEnv) threeBridges t₁
        (.hop 0 ⟨0, .far, dataFrame⟩ fun _ _ => .broadcast) = some t ∧
      (s.node 0).erGlobal = some ring ∧ ring.er.port0Idx = 1 ∧ ring.er.port1Idx = 2 ∧
      ring.er.ring.port0.isBlocked = true ∧ (t₁.node 0).erGlobal = some ring₁ ∧
      ring₁.er.port0Idx = 1 ∧ ring₁.er.port1Idx = 2 ∧ ring₁.er.ring.port0.isBlocked = true :=
    ⟨_, _, _, _, _, _, rfl, rfl, rfl, rfl, rfl, rfl, rfl, rfl, rfl, rfl, rfl, rfl⟩
  obtain ⟨s₁, s, t₁, t, ring, ring₁, hload, hinit, henter, hhop, hg, h₀, h₁, hb, hg₁, h₀', h₁', hb'⟩ :=
    hsteps
  have hboot : (plane (fun _ => someEnv) threeBridges).Reachable ⟨fun _ => .boot, 0⟩ :=
    .init ⟨fun _ => rfl, rfl⟩
  have hs : (plane (fun _ => someEnv) threeBridges).Reachable s := (hboot.step hload).step hinit
  have hrun := (Lts.Run.nil (L := (plane (fun _ => someEnv) threeBridges).restrict
    fun s _ => Stops threeBridges .far 0 s)).snoc ⟨stops_plain hg h₀ h₁ hb, henter⟩
  have hrun := hrun.snoc ⟨stops_plain hg₁ h₀' h₁' hb', hhop⟩
  exact ⟨s, t, _, hrun.of_restrict, rfl, data_dies_out hs hrun⟩

section plane

variable {N : Nat} {env : Fin N → Env} {c : Cabling N} {s t : Plane N}

/-! ## What goes on for ever -/

/-- Every node has an active ring that knows its ports. -/
def Serving (c : Cabling N) (s : Plane N) : Prop :=
  ∀ i, ∃ ring, (s.node i).erGlobal = some ring ∧ ring.er.active = true ∧
    ∀ p, ring.er.idx p = c.bdgPort i p

/-- A frame arrives, and the learning switch does not know its destination. -/
def Floods (e : PlaneEvent N) : Prop := ∃ now f, e = .hop now f fun _ _ => .broadcast

theorem Serving.admits_iff (h : Serving c s) (d : LinkEnd) (i : Fin N) :
    (s.node i).admits (c.bdgPort i (c.facing i d)) = true ↔ ¬ Stops c d i s := by
  constructor
  · intro hadmits hstop
    rw [hstop.admits] at hadmits
    cases hadmits
  · intro hstop
    obtain ⟨ring, hg, hactive, hidx⟩ := h i
    have hrecv := recvPort_bdgPort hidx (c.facing i d)
    have hb : ring.er.blocked (c.facing i d) = false := by
      apply Bool.eq_false_iff.mpr
      intro hb
      exact hstop ⟨ring, hg, hidx, hb⟩
    unfold State.admits
    rw [hg]
    simp [hrecv, hb, hactive]

/-- What is flooded leaves at the other ring port. -/
theorem Cabling.out_broadcast (c : Cabling N) {i : Fin N} (hports : ∀ p, c.bdgPort i p ∈ c.ports i)
    (p : PortId) : c.out i (c.bdgPort i p) (some .broadcast) = [p.other] := by
  have hne := c.bdgPort_ne i
  unfold Cabling.out
  cases p with
  | port0 =>
    simp [leaves, Destination.leaves, hports, Ne.symm hne, PortId.other]
  | port1 =>
    simp [leaves, Destination.leaves, hports, hne, PortId.other]

/-- A flooded frame goes on, or it is stopped. -/
theorem hop_broadcast (hports : ∀ i p, c.bdgPort i p ∈ c.ports i) {f : Flight N} (hf : f ∈ s.air)
    (hdata : isRapsFrame f.data = false) (now : Int32) :
    planeStep env c s (.hop now f fun _ _ => .broadcast) =
      some (if (s.node f.node).admits (c.bdgPort f.node (c.facing f.node f.dest)) then
        (s.drop f).add (onward c f) else s.drop f) := by
  simp only [planeStep, if_pos hf]
  rw [Plane.recv_dataFrame _ _ _ hdata]
  unfold onward
  rw [c.port_eq_facing]
  show some ((s.drop f).send c f.node f.data (c.out f.node _ (if (s.node f.node).admits
    (c.bdgPort f.node (c.facing f.node f.dest)) then _ else _))) = _
  split
  · rw [c.out_broadcast (hports f.node)]
    rfl
  · rw [c.out_none]
    simp [Plane.send]

/-- The frames of one direction only, and all of them data frames. -/
structure OneWay (d : LinkEnd) (s : Plane N) : Prop where
  plain : s.Plain
  dest : ∀ f ∈ s.air, f.dest = d

/-- Flooding turns nothing round, and changes no module. -/
theorem OneWay.flood {d : LinkEnd} (h : OneWay d s) {e : PlaneEvent N} (hflood : Floods e)
    (hst : planeStep env c s e = some t) : OneWay d t ∧ t.node = s.node ∧ e.isHop d = true := by
  have hplain := h.plain.step hst
  have hdrop : ∀ f, ∀ g ∈ (s.drop f).air, g.dest = d :=
    fun f g hg => h.dest g (Multiset.mem_of_mem_erase hg)
  obtain ⟨now, f, rfl⟩ := hflood
  cases moved h.plain hst with
  | dropped _ _ _ hf => exact ⟨⟨hplain, hdrop f⟩, rfl, decide_eq_true (h.dest f hf)⟩
  | passed _ _ _ hf =>
    refine ⟨⟨hplain, ?_⟩, rfl, decide_eq_true (h.dest f hf)⟩
    intro g hg
    rcases Multiset.mem_cons.mp hg with rfl | hg
    · exact (onward_dest c f).trans (h.dest f hf)
    · exact hdrop f g hg

/-- Frames of a direction that is stopped make a hop only if one is left to make. -/
theorem length_flood_le {d : LinkEnd} {k : Fin N} (h : OneWay d s) (hstop : Stops c d k s)
    {es : List (PlaneEvent N)} (hr : ((plane env c).restrict fun _ e => Floods e).Run s es t) :
    es.length ≤ N * s.bound d := by
  have hkeep : ∀ (s : Plane N) e t, OneWay d s ∧ Stops c d k s →
      ((plane env c).restrict fun _ e => Floods e).step s e t → OneWay d t ∧ Stops c d k t := by
    intro s e t hs hst
    obtain ⟨hone, hnode, _⟩ := hs.1.flood hst.1 hst.2
    refine ⟨hone, ?_⟩
    unfold Stops
    rw [hnode]
    exact hs.2
  have hpay : ∀ (s : Plane N) e t, OneWay d s ∧ Stops c d k s →
      ((plane env c).restrict fun _ e => Floods e).step s e t → t.due d k + 1 ≤ s.due d k := by
    intro s e t hs hst
    have hpaid := pays hs.1.plain hs.2 hst.2
    obtain ⟨_, _, hhop⟩ := hs.1.flood hst.1 hst.2
    have henter : e.isEnter = false := by
      obtain ⟨now, f, rfl⟩ := hst.1
      rfl
    rwa [hhop, henter] at hpaid
  exact (hr.length_le hkeep hpay ⟨h, hstop⟩).trans (s.due_le d k)

/-- A frame that nobody stops travels on alone. -/
theorem exists_hop (env : Fin N → Env) (hs : Serving c s)
    (hports : ∀ i p, c.bdgPort i p ∈ c.ports i) {f : Flight N} (hair : s.air = {f})
    (hdata : isRapsFrame f.data = false) (hstop : ¬ Stops c f.dest f.node s) :
    ∃ t, planeStep env c s (.hop 0 f fun _ _ => .broadcast) = some t ∧ t.node = s.node ∧
      t.air = {onward c f} := by
  have hmem : f ∈ s.air := by
    rw [hair]
    exact Multiset.mem_singleton_self f
  have hrest : (s.drop f).air = 0 := by
    show s.air.erase f = 0
    rw [hair]
    exact Multiset.erase_singleton f
  refine ⟨_, hop_broadcast hports hmem hdata 0, ?_⟩
  rw [if_pos ((hs.admits_iff f.dest f.node).mpr hstop)]
  refine ⟨rfl, ?_⟩
  show onward c f ::ₘ (s.drop f).air = _
  rw [hrest]
  rfl

/-- **What is not stopped goes on for ever.** A data frame that every bridge floods can be taken any
number of hops exactly if no module blocks the port at which it arrives. -/
theorem circulates_iff {f : Flight N} (hs : Serving c s)
    (hports : ∀ i p, c.bdgPort i p ∈ c.ports i) (hair : s.air = {f})
    (hdata : isRapsFrame f.data = false) :
    (∀ n, ∃ es t, ((plane env c).restrict fun _ e => Floods e).Run s es t ∧ es.length = n) ↔
      ∀ i, ¬ Stops c f.dest i s := by
  constructor
  · intro h k hstop
    obtain ⟨es, t, hr, hlen⟩ := h (N + 1)
    have hone : OneWay f.dest s := by
      refine ⟨?_, ?_⟩ <;> intro g hg <;> rw [hair, Multiset.mem_singleton] at hg <;> subst hg
      · exact hdata
      · rfl
    have hle := length_flood_le hone hstop hr
    have hbound : s.bound f.dest = 1 := by
      unfold Plane.bound
      rw [hair, Multiset.countP_eq_card.mpr (by simp), Multiset.card_singleton]
    rw [hlen, hbound] at hle
    omega
  · intro h n
    suffices hn : ∃ es t g, ((plane env c).restrict fun _ e => Floods e).Run s es t ∧
        es.length = n ∧ t.node = s.node ∧ t.air = {g} ∧ g.dest = f.dest ∧ g.data = f.data by
      obtain ⟨es, t, _, hr, hlen, _⟩ := hn
      exact ⟨es, t, hr, hlen⟩
    induction n with
    | zero => exact ⟨[], s, f, .nil, rfl, rfl, hair, rfl, rfl⟩
    | succ n ih =>
      obtain ⟨es, t, g, hr, hlen, hnode, hg, hdest, hgdata⟩ := ih
      have ht : Serving c t := by
        intro i
        rw [hnode]
        exact hs i
      have hgo : ¬ Stops c g.dest g.node t := by
        unfold Stops
        rw [hnode, hdest]
        exact h g.node
      obtain ⟨u, hst, hunode, hu⟩ := exists_hop env ht hports hg (hgdata ▸ hdata) hgo
      have hstep : ((plane env c).restrict fun _ e => Floods e).step t
          (.hop 0 g fun _ _ => .broadcast) u := ⟨⟨0, g, rfl⟩, hst⟩
      refine ⟨es ++ [.hop 0 g fun _ _ => .broadcast], u, onward c g, hr.snoc hstep, ?_,
        hunode.trans hnode, hu, (onward_dest c g).trans hdest, (onward_data c g).trans hgdata⟩
      rw [List.length_append, List.length_singleton, hlen]

end plane

/-- Three plain nodes that have heard nothing each block the port to the node before, and a frame goes
round all the same: the other way. -/
theorem circulates_plain :
    ∃ s : Plane 3, (∀ i, Stops threeBridges .far i s) ∧
      ∀ n, ∃ es t, ((plane (fun _ => someEnv) threeBridges).restrict fun _ e => Floods e).Run s es t ∧
        es.length = n := by
  have hsteps : ∃ a b ring, handle someEnv .boot (.load true) = some a ∧
      handle someEnv a (.ioctl 0 .init (some plainRequest) allWell someIdx) = some b ∧
      b.erGlobal = some ring ∧ ring.er.active = true ∧ ring.er.port0Idx = 1 ∧ ring.er.port1Idx = 2 ∧
      ring.er.ring.port0.isBlocked = true ∧ ring.er.ring.port1.isBlocked = false :=
    ⟨_, _, _, rfl, rfl, rfl, rfl, rfl, rfl, rfl, rfl⟩
  obtain ⟨a, b, ring, _, _, hg, hactive, h₀, h₁, hblocked, hopen⟩ := hsteps
  have hidx : ∀ p, ring.er.idx p = someIdx p := by
    intro p
    cases p with
    | port0 => exact h₀
    | port1 => exact h₁
  have hserving : Serving threeBridges ⟨fun _ => b, {⟨0, .near, dataFrame⟩}⟩ :=
    fun _ => ⟨ring, hg, hactive, hidx⟩
  have hports : ∀ (i : Fin 3) p, threeBridges.bdgPort i p ∈ threeBridges.ports i := by
    intro i p
    cases p <;> simp [threeBridges, someIdx]
  refine ⟨_, fun i => ⟨ring, hg, hidx, hblocked⟩, (circulates_iff hserving hports rfl rfl).mpr ?_⟩
  rintro i ⟨ring', hg', _, hb⟩
  have hsame : ring' = ring := Option.some.inj (hg'.symm.trans hg)
  subst hsame
  have hclosed : ring'.er.ring.port1.isBlocked = true := hb
  rw [hopen] at hclosed
  cases hclosed

end Erps.Kernel.Life
