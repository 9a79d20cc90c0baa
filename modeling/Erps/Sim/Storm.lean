import Mathlib.Algebra.BigOperators.Group.Multiset.Basic
import Mathlib.Algebra.Order.BigOperators.Group.Multiset
import Mathlib.Data.List.FinRange
import Erps.Format
import Erps.Sim.Hops

/-!
# No R-APS storm

Every node sends on what it receives, so it is the nodes that have to take the frames off the ring
again. A node drops its own: each copy of a frame goes round once at most, and what the ring receives
is bounded by what its nodes transmit (`no_storm`), blocked ports or not.

A frame pays for its hops out of the way back to its origin that it still has to go.
-/

set_option autoImplicit false

namespace Erps.Sim

open Bytes

section hops

variable {N : Nat}

/-! ## The way home -/

/-- How far `j` is ahead of `i`, going round towards higher nodes. -/
def ahead (i j : Fin N) : Nat := if i.val ≤ j.val then j.val - i.val else j.val + N - i.val

theorem ahead_lt (i j : Fin N) : ahead i j < N := by
  have hi := i.isLt
  have hj := j.isLt
  unfold ahead
  split <;> omega

theorem nextNode_val (i : Fin N) : (nextNode i).val = if i.val + 1 = N then 0 else i.val + 1 := by
  have hi := i.isLt
  show (i.val + 1) % N = _
  split
  · rename_i hlast
    rw [hlast, Nat.mod_self]
  · exact Nat.mod_eq_of_lt (by omega)

theorem prevNode_val (i : Fin N) : (prevNode i).val = if i.val = 0 then N - 1 else i.val - 1 := by
  have hi := i.isLt
  show (i.val + (N - 1)) % N = _
  split
  · rename_i hzero
    rw [hzero, Nat.zero_add]
    exact Nat.mod_eq_of_lt (by omega)
  · rw [show i.val + (N - 1) = i.val - 1 + N by omega, Nat.add_mod_right]
    exact Nat.mod_eq_of_lt (by omega)

theorem ahead_nextNode {i j : Fin N} (h : i ≠ j) : ahead (nextNode i) j + 1 = ahead i j := by
  have hi := i.isLt
  have hj := j.isLt
  have hne : i.val ≠ j.val := fun heq => h (Fin.ext heq)
  unfold ahead
  rw [nextNode_val]
  split <;> split <;> split <;> omega

theorem ahead_prevNode {i j : Fin N} (h : i ≠ j) : ahead i (prevNode j) + 1 = ahead i j := by
  have hi := i.isLt
  have hj := j.isLt
  have hne : i.val ≠ j.val := fun heq => h (Fin.ext heq)
  unfold ahead
  rw [prevNode_val]
  split <;> split <;> split <;> omega

/-- How many more nodes receive a frame of node `o`, the node itself included. -/
def Flight.toGo (f : Flight N) (o : Fin N) : Nat :=
  match f.dest with
  | .far => ahead f.node o + 1
  | .near => ahead o f.node + 1

theorem Flight.toGo_le (f : Flight N) (o : Fin N) : f.toGo o ≤ N := by
  unfold toGo
  split <;> exact ahead_lt _ _

theorem Flight.one_le_toGo (f : Flight N) (o : Fin N) : 1 ≤ f.toGo o := by
  unfold toGo
  split <;> exact Nat.le_add_left _ _

/-- Every hop is one less. -/
theorem Flight.toGo_send (w : Wiring N) {f : Flight N} {o : Fin N} (h : o ≠ f.node) (data : List UInt8) :
    (w.send f.node (w.port f.link f.dest).other data).toGo o + 1 = f.toGo o := by
  obtain ⟨l, e, data'⟩ := f
  cases e with
  | far =>
    have hport : ((w.toNext (nextNode l)).other.other = w.toNext (nextNode l)) := PortId.other_other _
    have hsend : w.send (nextNode l) (w.toNext (nextNode l)).other.other data =
        ⟨nextNode l, .far, data⟩ := by
      unfold Wiring.send
      rw [if_pos hport]
    show (w.send (nextNode l) (w.toNext (nextNode l)).other.other data).toGo o + 1 = _
    rw [hsend]
    exact congrArg (· + 1) (ahead_nextNode (Ne.symm h))
  | near =>
    have hsend : w.send l (w.toNext l).other data = ⟨prevNode l, .near, data⟩ := by
      unfold Wiring.send
      rw [if_neg (w.toNext l).other_ne]
    show (w.send l (w.toNext l).other data).toGo o + 1 = _
    rw [hsend]
    exact congrArg (· + 1) (ahead_prevNode h)

/-! ## The potential -/

variable {host : ByteOrder} {w : Wiring N}

/-- The node whose id the frame carries. -/
def origin (host : ByteOrder) (ids : Fin N → NodeId) (data : List UInt8) : Option (Fin N) :=
  (List.finRange N).find? fun o => isLocalRapsFrame host data (ids o)

theorem origin_eq {ids : Fin N → NodeId} (hinj : Function.Injective ids) {data : List UInt8}
    {o : Fin N} (h : isLocalRapsFrame host data (ids o) = true) : origin host ids data = some o := by
  unfold origin
  cases hfind : (List.finRange N).find? fun o => isLocalRapsFrame host data (ids o) with
  | none =>
    rw [List.find?_eq_none] at hfind
    exact absurd h (hfind o (List.mem_finRange o))
  | some o' =>
    -- the id is read at one place
    have h' := List.find?_some (p := fun o => isLocalRapsFrame host data (ids o)) hfind
    have hids : ids o' = ids o := ((isLocalRapsFrame_iff host data (ids o')).mp h').2.symm.trans
      ((isLocalRapsFrame_iff host data (ids o)).mp h).2
    rw [hinj hids]

/-- What a frame has left to spend. -/
def Flight.worth (host : ByteOrder) (ids : Fin N → NodeId) (f : Flight N) : Nat :=
  ((origin host ids f.data).map f.toGo).getD 0

/-- What is left on the air. -/
def worth (host : ByteOrder) (ids : Fin N → NodeId) (s : Hops N) : Nat :=
  (s.air.map (Flight.worth host ids)).sum

/-- The ring is sound, and these are its ids. -/
structure Named (ids : Fin N → NodeId) (s : Hops N) : Prop where
  sound : HopSound s
  ids : ∀ i, (s.net i).cfg.nodeId = ids i

theorem Named.injective {ids : Fin N → NodeId} {s : Hops N} (h : Named ids s) :
    Function.Injective ids := by
  intro i j hij
  apply h.sound.nodeId_injective
  simp only [h.ids, hij]

/-- A frame on the air has an origin. -/
theorem Named.exists_origin {ids : Fin N → NodeId} {s : Hops N} (h : Named ids s)
    (host : ByteOrder) {f : Flight N} (hf : f ∈ s.air) :
    ∃ o, isLocalRapsFrame host f.data (ids o) = true ∧ Flight.worth host ids f = f.toGo o := by
  obtain ⟨o, raps, hdata, _, _, hid, _⟩ := h.sound.air f hf
  have hown : isLocalRapsFrame host f.data (ids o) = true := by
    rw [hdata, isLocalRapsFrame_rapsBytes, hid, h.ids]
  refine ⟨o, hown, ?_⟩
  unfold Flight.worth
  rw [origin_eq h.injective hown]
  rfl

theorem Flight.worth_le (host : ByteOrder) (ids : Fin N → NodeId) (f : Flight N) :
    f.worth host ids ≤ N := by
  unfold worth
  cases origin host ids f.data with
  | none => exact Nat.zero_le N
  | some o => exact f.toGo_le o

theorem worth_le (host : ByteOrder) (ids : Fin N → NodeId) (s : Hops N) :
    worth host ids s ≤ N * s.air.card := by
  have h := Multiset.sum_le_card_nsmul (s.air.map (Flight.worth host ids)) N ?_
  · rw [Multiset.card_map, Nat.nsmul_eq_mul, Nat.mul_comm] at h
    exact h
  · intro n hn
    obtain ⟨f, _, rfl⟩ := Multiset.mem_map.mp hn
    exact f.worth_le host ids

theorem Named.card_le_worth {ids : Fin N → NodeId} {s : Hops N} (h : Named ids s)
    (host : ByteOrder) : s.air.card ≤ worth host ids s := by
  have hle := Multiset.card_nsmul_le_sum (s := s.air.map (Flight.worth host ids)) (a := 1) ?_
  · rw [Multiset.card_map, Nat.nsmul_eq_mul, Nat.mul_one] at hle
    exact hle
  · intro n hn
    obtain ⟨f, hf, rfl⟩ := Multiset.mem_map.mp hn
    obtain ⟨o, _, ho⟩ := h.exists_origin host hf
    rw [ho]
    exact f.one_le_toGo o

theorem worth_drop (host : ByteOrder) (ids : Fin N → NodeId) {s : Hops N} {f : Flight N}
    (hf : f ∈ s.air) : f.worth host ids + worth host ids (s.drop f) = worth host ids s :=
  Multiset.sum_map_erase hf

theorem worth_forward (host : ByteOrder) (w : Wiring N) (ids : Fin N → NodeId) (s : Hops N)
    (i : Fin N) (data : List UInt8) (p : PortId) :
    worth host ids (s.forward w i data (some p)) =
      (w.send i p data).worth host ids + worth host ids s := by
  simp only [worth, Hops.forward, Multiset.map_cons, Multiset.sum_cons]

/-! ## What each step pays -/

/-- A node transmits. -/
def HopInput.isSend (x : HopInput N) : Bool :=
  match x.event with
  | .send _ => true
  | _ => false

/-- A node receives. -/
def HopInput.isReceive (x : HopInput N) : Bool :=
  match x.event with
  | .receive _ => true
  | _ => false

theorem Named.step {ids : Fin N → NodeId} {s t : Hops N} (h : Named ids s) {x : HopInput N}
    (hst : hopStep host w s x = some t) : Named ids t := by
  refine ⟨h.sound.step hst, ?_⟩
  have hput : ∀ (s : Hops N) (i : Fin N) (r : Ring UInt64), r.cfg = (s.net i).cfg →
      (∀ j, (s.net j).cfg.nodeId = ids j) → ∀ j, ((s.put i r).net j).cfg.nodeId = ids j := by
    intro s i r hcfg hids j
    by_cases hj : j = i
    · subst hj
      rw [Hops.put_self, hcfg]
      exact hids j
    · rw [Hops.put_of_ne s hj]
      exact hids j
  have hmoved := hopMoved hst
  obtain ⟨now, e⟩ := x
  cases hmoved with
  | lost => exact h.ids
  | silent i | sent i => exact hput s i _ (alike_sendRapsCb _).cfg h.ids
  | @own e net he hnet =>
    unfold netStep at hnet
    split at hnet
    · obtain ⟨r', hr', rfl⟩ := Option.map_eq_some_iff.mp hnet
      have hcfg := (handle_outcome (h.sound.timed e.node).coherent hr').cfg
      exact hput s e.node r' hcfg h.ids
    · cases hnet
  | @received f r out hf hcb =>
    have hcfg := (handle_outcome (h.sound.timed f.node).coherent (handle_of_portCb hcb)).cfg
    rw [Hops.forward_net]
    exact hput (s.drop f) f.node r hcfg h.ids

/-- A node sends on what is not its own, at the other port. -/
theorem out_of_portCb {r r' : Ring UInt64} {now : UInt64} {data : List UInt8} {p q : PortId}
    (h : portCb host r now data p = some (r', some q)) :
    isLocalRapsFrame host data r.cfg.nodeId = false ∧ q = p.other := by
  unfold portCb at h
  split at h
  · split at h
    · cases h
    · rename_i hl
      refine ⟨Bool.eq_false_iff.mpr hl, ?_⟩
      obtain ⟨r₁, _, heq⟩ := Option.map_eq_some_iff.mp h
      have hq := congrArg Prod.snd heq
      simp only at hq
      split at hq
      · cases hq
      · rw [ringOtherPort_some] at hq
        exact (Option.some.inj hq).symm
  · cases h

/-- A transmission brings two frames, a reception takes one hop. -/
theorem Named.pays {ids : Fin N → NodeId} {s t : Hops N} (h : Named ids s) {x : HopInput N}
    (hst : hopStep host w s x = some t) :
    worth host ids t + (if x.isReceive then 1 else 0) ≤
      worth host ids s + if x.isSend then 2 * N else 0 := by
  have hmoved := hopMoved hst
  obtain ⟨now, e⟩ := x
  cases hmoved with
  | own | silent => exact Nat.le_add_right _ _
  | lost hf =>
    rename_i f
    have := worth_drop host ids hf
    show worth host ids (s.drop f) ≤ worth host ids s
    omega
  | sent i =>
    rename_i hs
    have h₀ := Flight.worth_le host ids (w.send i .port0 (s.net i).tx.rapsFrame)
    have h₁ := Flight.worth_le host ids (w.send i .port1 (s.net i).tx.rapsFrame)
    have hsum : worth host ids ((s.put i (sendRapsCb (s.net i)).1).ringSendRaps w i
        (s.net i).tx.rapsFrame) = (w.send i .port0 (s.net i).tx.rapsFrame).worth host ids +
          ((w.send i .port1 (s.net i).tx.rapsFrame).worth host ids + worth host ids s) := by
      simp only [worth, Hops.ringSendRaps, Hops.put, Multiset.map_cons, Multiset.sum_cons]
    show worth host ids _ + 0 ≤ worth host ids s + 2 * N
    rw [hsum]
    omega
  | @received f r out hf hcb =>
    have hdrop := worth_drop host ids hf
    obtain ⟨o, hown, hworth⟩ := h.exists_origin host hf
    show worth host ids (((s.drop f).put f.node r).forward w f.node f.data out) + 1 ≤
      worth host ids s
    cases out with
    | none =>
      have := f.one_le_toGo o
      show worth host ids (s.drop f) + 1 ≤ _
      omega
    | some q =>
      obtain ⟨hnot, rfl⟩ := out_of_portCb hcb
      have hne : o ≠ f.node := by
        rintro rfl
        rw [h.ids, hown] at hnot
        cases hnot
      have hhop := f.toGo_send w hne f.data
      have hsent : (w.send f.node (w.port f.link f.dest).other f.data).worth host ids =
          (w.send f.node (w.port f.link f.dest).other f.data).toGo o := by
        have hdata : (w.send f.node (w.port f.link f.dest).other f.data).data = f.data := by
          unfold Wiring.send
          split <;> rfl
        unfold Flight.worth
        rw [hdata, origin_eq h.injective hown]
        rfl
      have hput : worth host ids ((s.drop f).put f.node r) = worth host ids (s.drop f) := rfl
      rw [worth_forward, hput]
      omega

/-- **No storm.** Whatever else happens, a run receives no more frames than `N` for each that was on the
air and for each copy that is transmitted, and what is on the air in the end counts too. -/
theorem no_storm {s t : Hops N} {es : List (HopInput N)} (h : (hops host w).Reachable s)
    (hr : (hops host w).Run s es t) :
    t.air.card + es.countP HopInput.isReceive ≤
      N * s.air.card + 2 * N * es.countP HopInput.isSend := by
  have hs : Named (fun i => (s.net i).cfg.nodeId) s := ⟨.of_reachable h, fun _ => rfl⟩
  have ht := hr.invariant (I := Named (fun i => (s.net i).cfg.nodeId))
    (fun _ _ _ h hst => h.step hst) hs
  have hpaid := hr.countP_le (J := Named (fun i => (s.net i).cfg.nodeId))
    (fun _ _ _ h hst => h.step hst) (fun _ _ _ h hst => h.pays hst) hs
  calc t.air.card + es.countP HopInput.isReceive
      ≤ worth host (fun i => (s.net i).cfg.nodeId) t + es.countP HopInput.isReceive :=
        Nat.add_le_add_right (ht.card_le_worth host) _
    _ ≤ worth host (fun i => (s.net i).cfg.nodeId) s + 2 * N * es.countP HopInput.isSend := hpaid
    _ ≤ N * s.air.card + 2 * N * es.countP HopInput.isSend :=
        Nat.add_le_add_right (worth_le host _ s) _

end hops

/-- One transmission, one reception so far. -/
theorem no_storm_firstHop :
    ∃ s, Lts.exec (hopStep .little threeWiring) threeHops firstHop = some s ∧
      s.air.card + 1 ≤ 6 := by
  obtain ⟨s, hs, _⟩ := exists_firstHop
  have h := no_storm (.init ⟨assembled_threeNodes, rfl⟩) (Lts.run_of_exec hs)
  exact ⟨s, hs, h⟩

end Erps.Sim
