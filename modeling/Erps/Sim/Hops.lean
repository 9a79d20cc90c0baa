import Mathlib.Data.Multiset.AddSub
import Erps.Sim.Startup
import Erps.Sim.Timers

/-!
# The ring, hop by hop

The same nodes, with what `port_cb` does beside feeding the state machine: a frame travels one link at
a time, and each node that receives it sends it on from its other port, unless it is the node's own or
came in at a blocked port. Frames are lost and overtake each other at will.

A frame that is still under way may be older than what its sender transmits by now. In the runs where
that does not happen, the ring is the one in which everything that is transmitted can be heard
anywhere (`hops_refine`): forwarding adds nothing to it. What needs no such condition is who may have
sent a frame (`authentic`), and with it all that IDLE says of a node.
-/

set_option autoImplicit false

namespace Erps.Sim

open Bytes

/-! ## The system -/

/-- The node before `i`. -/
def prevNode {N : Nat} (i : Fin N) : Fin N := ⟨(i.val + (N - 1)) % N, Nat.mod_lt _ i.pos⟩

/-- A frame on its way to this end of a link. -/
structure Flight (N : Nat) where
  link : Fin N
  dest : LinkEnd
  data : List UInt8
  deriving DecidableEq

/-- The node it arrives at. -/
def Flight.node {N : Nat} (f : Flight N) : Fin N := f.dest.node f.link

/-- `ring_port_send`: node `i` puts a frame on the link at its port `p`. -/
def Wiring.send {N : Nat} (w : Wiring N) (i : Fin N) (p : PortId) (data : List UInt8) : Flight N :=
  if p = w.toNext i then ⟨i, .far, data⟩ else ⟨prevNode i, .near, data⟩

/-- The nodes, and what is on its way. -/
structure Hops (N : Nat) where
  net : Net N
  air : Multiset (Flight N)

inductive HopEvent (N : Nat)
  /-- a command, a change of a link or the timer of one node -/
  | own (e : NetEvent N)
  /-- `send_raps_cb` of node `i` -/
  | send (i : Fin N)
  /-- `port_cb`: a frame arrives -/
  | receive (f : Flight N)
  | lose (f : Flight N)

structure HopInput (N : Nat) where
  now : UInt64
  event : HopEvent N

/-- Nothing is received. -/
def NetEvent.isOwn {N : Nat} : NetEvent N → Bool
  | .deliver _ _ _ => false
  | _ => true

section hops

variable {N : Nat}

namespace Hops

/-- Node `i` is now `r`. -/
def put (s : Hops N) (i : Fin N) (r : Ring UInt64) : Hops N :=
  { s with net := Function.update s.net i r }

/-- `ring_send_raps`: the frame goes out at both ports. -/
def ringSendRaps (w : Wiring N) (s : Hops N) (i : Fin N) (data : List UInt8) : Hops N :=
  { s with air := w.send i .port0 data ::ₘ w.send i .port1 data ::ₘ s.air }

/-- A frame is off the air. -/
def drop (s : Hops N) (f : Flight N) : Hops N := { s with air := s.air.erase f }

/-- A frame is sent on from port `p`, if anywhere. -/
def forward (w : Wiring N) (s : Hops N) (i : Fin N) (data : List UInt8) : Option PortId → Hops N
  | none => s
  | some p => { s with air := w.send i p data ::ₘ s.air }

end Hops

def hopStep (host : ByteOrder) (w : Wiring N) (s : Hops N) (x : HopInput N) : Option (Hops N) :=
  match x.event with
  | .own e =>
    if e.isOwn then (netStep host w s.net ⟨x.now, e⟩).map fun net => { s with net := net } else none
  | .send i =>
    match sendRapsCb (s.net i) with
    | (r, none) => some (s.put i r)
    | (r, some data) => some ((s.put i r).ringSendRaps w i data)
  | .receive f =>
    if f ∈ s.air then
      (portCb host (s.net f.node) x.now f.data (w.port f.link f.dest)).map fun (r, out) =>
        ((s.drop f).put f.node r).forward w f.node f.data out
    else none
  | .lose f => if f ∈ s.air then some (s.drop f) else none

/-- **The ring, hop by hop.** It starts with nothing on the air. -/
def hops (host : ByteOrder) (w : Wiring N) : Lts (Hops N) (HopInput N) :=
  .ofStep (fun s => Assembled s.net ∧ s.air = 0) (hopStep host w)

/-- What is received is still being transmitted. -/
def Timely (s : Hops N) (x : HopInput N) : Prop :=
  ∀ f, x.event = .receive f → ∃ i, (s.net i).tx.isSendingRaps = true ∧ f.data = (s.net i).tx.rapsFrame

/-- A node that hears its link recover in PROTECTION has a block to announce. -/
def HopBacked (w : Wiring N) (s : Hops N) (x : HopInput N) : Prop :=
  ∀ e, x.event = .own e → RecoverBacked w s.net ⟨x.now, e⟩

end hops

/-! ## Burst counters

The abstract ring does not transmit, so it does not count bursts; nothing else tells the two apart. -/

/-- The ring, with another burst counter. -/
def withBursts (r : Ring UInt64) (n : Nat) : Ring UInt64 :=
  { r with tx := { r.tx with rapsBurstsRemain := n } }

theorem alike_withBursts (r : Ring UInt64) (n : Nat) : r.Alike (withBursts r n) :=
  ⟨rfl, rfl, rfl, rfl, rfl, fun p => by cases p <;> rfl⟩

theorem apply_withBursts (e : TxEffect) (tx : Transmission) (n : Nat) :
    ∃ n', e.apply { tx with rapsBurstsRemain := n } = { e.apply tx with rapsBurstsRemain := n' } := by
  cases e with
  | keep | stop => exact ⟨n, rfl⟩
  | start request flags =>
    by_cases hne : tx.raps.request ≠ request ∨ tx.raps.flags ≠ flags
    · refine ⟨3, ?_⟩
      simp only [TxEffect.apply, Transmission.start, if_pos hne]
    · refine ⟨n, ?_⟩
      simp only [TxEffect.apply, Transmission.start, if_neg hne]

theorem effect_apply_withBursts (e : Effect) (now : UInt64) (r : Ring UInt64) (n : Nat) :
    ∃ n', e.apply now (withBursts r n) = withBursts (e.apply now r) n' := by
  obtain ⟨n', hn'⟩ := apply_withBursts e.tx r.tx n
  have hports : ∀ p, e.ports.blocked (withBursts r n) p = e.ports.blocked r p := by
    intro p
    cases e.ports <;> cases p <;> rfl
  refine ⟨n', ?_⟩
  unfold Effect.apply
  rw [hports, hports]
  exact congrArg (fun tx : Transmission => ({ e.apply now r with tx := tx } : Ring UInt64)) hn'

theorem advance_withBursts (r : Ring UInt64) (n : Nat) (now : UInt64) (q : Request) :
    ∃ n', advance (withBursts r n) now q = withBursts (advance r now q) n' := by
  have he : (withBursts r n).effect q.request q.port q.remoteNodeId =
      r.effect q.request q.port q.remoteNodeId := by
    cases q.request <;> rfl
  unfold advance Ring.advance
  rw [he]
  exact effect_apply_withBursts _ now (r.recorded q.request q.port q.remoteNodeId) n

theorem ringProcessRequest_withBursts {r r' : Ring UInt64} (hc : Coherent r) {n : Nat}
    {now : UInt64} {q : Request}
    (h : ringProcessRequest (withBursts r n) now q.request q.port q.remoteNodeId = some r') :
    ∃ r₁ n', ringProcessRequest r now q.request q.port q.remoteNodeId = some r₁ ∧
      r' = withBursts r₁ n' := by
  have hc' := hc.congr (alike_withBursts r n)
  rcases hc'.processed_cases (processed hc' h) with ⟨hn, rfl⟩ | ⟨ht, rfl⟩
  · -- the process survives, so it would without the counter
    have hsome : ringProcessRequest r now q.request q.port q.remoteNodeId ≠ none := by
      intro hnone
      have hdies := (ringProcessRequest_eq_none_iff (withBursts r n) now q.request q.port
        q.remoteNodeId).mpr ((ringProcessRequest_eq_none_iff r now _ _ _).mp hnone)
      rw [hdies] at h
      cases h
    obtain ⟨r₁, hr₁⟩ := Option.ne_none_iff_exists'.mp hsome
    rcases hc.processed_cases (processed hc hr₁) with ⟨_, rfl⟩ | ⟨ht, _⟩
    · exact ⟨r₁, n, hr₁, rfl⟩
    · exact absurd ((alike_withBursts r n).takes ht) hn
  · obtain ⟨n', hn'⟩ := advance_withBursts r n now q
    exact ⟨_, n', ringProcessRequest_of_takes hc ((alike_withBursts r n).symm.takes ht) now, hn'⟩

/-- **A callback does not look at the burst counter.** -/
theorem handle_withBursts {host : ByteOrder} {r r' : Ring UInt64} (hc : Coherent r) {n : Nat}
    {i : Input} (h : handle host (withBursts r n) i = some r') :
    ∃ r₁ n', handle host r i = some r₁ ∧ r' = withBursts r₁ n' := by
  have hreq : i.request host (withBursts r n) = i.request host r := by
    obtain ⟨now, e⟩ := i
    cases e with
    | timer | frame => rfl
    | command c => cases c <;> rfl
  have hent : i.entry host (withBursts r n) = withBursts (i.entry host r) n := by
    obtain ⟨now, e⟩ := i
    cases e with
    | timer => rfl
    | command c =>
      cases c with
      | status | clear | ms | fs => rfl
      | fail p | recover p => cases p <;> rfl
    | frame data port =>
      show (if Hears host r now data && r.timers.guard.active then (withBursts r n).stopGuardTimer
        else withBursts r n) = withBursts (if Hears host r now data && r.timers.guard.active then
          r.stopGuardTimer else r) n
      split <;> rfl
  rw [handle_eq] at h ⊢
  rw [hreq, hent] at h
  cases hq : i.request host r with
  | none =>
    rw [hq, Option.some.injEq] at h
    exact ⟨_, n, rfl, h.symm⟩
  | some q =>
    rw [hq] at h
    obtain ⟨r₂, hr₂, rfl⟩ := Option.map_eq_some_iff.mp h
    obtain ⟨r₁, n', hr₁, rfl⟩ := ringProcessRequest_withBursts (hc.congr (alike_entry r i)) hr₂
    refine ⟨i.event.leave r₁, n', ?_, ?_⟩
    · simp only [hr₁, Option.map_some]
    · obtain ⟨now, e⟩ := i
      cases e <;> rfl

/-! ## What a step does -/

section hops

variable {N : Nat} {host : ByteOrder} {w : Wiring N}

inductive HopMoved (host : ByteOrder) (w : Wiring N) (s : Hops N) (now : UInt64) :
    HopEvent N → Hops N → Prop
  | own {e : NetEvent N} {net : Net N} (he : e.isOwn = true)
      (hst : netStep host w s.net ⟨now, e⟩ = some net) :
      HopMoved host w s now (.own e) { s with net := net }
  | silent (i : Fin N) (hnone : (sendRapsCb (s.net i)).2 = none) :
      HopMoved host w s now (.send i) (s.put i (sendRapsCb (s.net i)).1)
  | sent (i : Fin N) (hs : (s.net i).tx.isSendingRaps = true) :
      HopMoved host w s now (.send i)
        ((s.put i (sendRapsCb (s.net i)).1).ringSendRaps w i (s.net i).tx.rapsFrame)
  | received {f : Flight N} {r : Ring UInt64} {out : Option PortId} (hf : f ∈ s.air)
      (hcb : portCb host (s.net f.node) now f.data (w.port f.link f.dest) = some (r, out)) :
      HopMoved host w s now (.receive f) (((s.drop f).put f.node r).forward w f.node f.data out)
  | lost {f : Flight N} (hf : f ∈ s.air) : HopMoved host w s now (.lose f) (s.drop f)

theorem hopMoved {s t : Hops N} {x : HopInput N} (h : hopStep host w s x = some t) :
    HopMoved host w s x.now x.event t := by
  obtain ⟨now, e⟩ := x
  cases e with
  | own e =>
    simp only [hopStep] at h
    split at h
    · rename_i he
      obtain ⟨net, hnet, rfl⟩ := Option.map_eq_some_iff.mp h
      exact .own he hnet
    · cases h
  | send i =>
    simp only [hopStep] at h
    cases hcb : sendRapsCb (s.net i) with
    | mk r frame =>
      rw [hcb] at h
      have hr : (sendRapsCb (s.net i)).1 = r := congrArg Prod.fst hcb
      have hframe : (sendRapsCb (s.net i)).2 = frame := congrArg Prod.snd hcb
      cases frame with
      | none =>
        cases h
        exact hr ▸ .silent i hframe
      | some data =>
        cases h
        obtain ⟨hs, rfl⟩ := frame_of_sendRapsCb hframe
        exact hr ▸ .sent i hs
  | receive f =>
    simp only [hopStep] at h
    split at h
    · rename_i hf
      obtain ⟨⟨r, out⟩, hcb, rfl⟩ := Option.map_eq_some_iff.mp h
      exact .received hf hcb
    · cases h
  | lose f =>
    simp only [hopStep] at h
    split at h
    · rename_i hf
      cases h
      exact .lost hf
    · cases h

@[simp] theorem Hops.put_self (s : Hops N) (i : Fin N) (r : Ring UInt64) :
    (s.put i r).net i = r := Function.update_self ..

theorem Hops.put_of_ne (s : Hops N) {i j : Fin N} (h : i ≠ j) (r : Ring UInt64) :
    (s.put j r).net i = s.net i := Function.update_of_ne h ..

@[simp] theorem Hops.forward_net (w : Wiring N) (s : Hops N) (i : Fin N) (data : List UInt8)
    (out : Option PortId) : (s.forward w i data out).net = s.net := by
  cases out <;> rfl

/-- What a frame does to the node that receives it. -/
theorem handle_of_portCb {r r' : Ring UInt64} {now : UInt64} {data : List UInt8} {p : PortId}
    {out : Option PortId} (h : portCb host r now data p = some (r', out)) :
    handle host r ⟨now, .frame data p⟩ = some r' := by
  simp only [handle, h, Option.map_some]

/-! ## The same ring -/

/-- The two rings are in the same state but for their burst counters. -/
def SameNet (a net : Net N) : Prop := ∀ i, ∃ n, net i = withBursts (a i) n

theorem SameNet.update {a net : Net N} (h : SameNet a net) (i : Fin N) {r r' : Ring UInt64} {n : Nat}
    (hr : r' = withBursts r n) :
    SameNet (Function.update a i r) (Function.update net i r') := by
  intro j
  by_cases hj : j = i
  · subst hj
    exact ⟨n, by rw [Function.update_self, Function.update_self, hr]⟩
  · rw [Function.update_of_ne hj, Function.update_of_ne hj]
    exact h j

theorem SameNet.put {a : Net N} {s : Hops N} (h : SameNet a s.net) (i : Fin N) {r' : Ring UInt64}
    {n : Nat} (hr : r' = withBursts (s.net i) n) : SameNet a (s.put i r').net := by
  have hself : a = Function.update a i (a i) := (Function.update_eq_self i a).symm
  rw [hself]
  obtain ⟨m, hm⟩ := h i
  exact h.update i (n := n) (by rw [hr, hm]; rfl)

theorem withBursts_of_sendRapsCb (r : Ring UInt64) : ∃ n, (sendRapsCb r).1 = withBursts r n :=
  sendRapsCb_eq r

/-- A command, a link or a timer is seen by both rings alike. -/
theorem SameNet.callback_eq {a net : Net N} {e : NetEvent N} (he : e.isOwn = true) :
    e.callback w a = e.callback w net := by
  cases e with
  | deliver => cases he
  | clear | ms | fs | fail | recover | timer => rfl

theorem SameNet.enabled_eq {a net : Net N} (h : SameNet a net) (e : NetEvent N) :
    e.enabled w a = e.enabled w net := by
  have hfailed : ∀ i p, ((net i).port p).isFailed = ((a i).port p).isFailed := by
    intro i p
    obtain ⟨n, hn⟩ := h i
    rw [hn]
    cases p <;> rfl
  have hsend : ∀ i, (net i).tx.isSendingRaps = (a i).tx.isSendingRaps := by
    intro i
    obtain ⟨n, hn⟩ := h i
    rw [hn]
    rfl
  cases e with
  | fail l e | recover l e => simp only [NetEvent.enabled, hfailed]
  | deliver i j p => exact (hsend i).symm
  | clear | ms | fs | timer => rfl

/-- **One step.** A timely step of the ring hop by hop is one of the ring without hops, or not seen
there. -/
theorem SameNet.step {a : Net N} {s t : Hops N} (h : SameNet a s.net) (hc : ∀ i, Coherent (a i))
    {x : HopInput N} (hx : Timely s x) (hst : hopStep host w s x = some t) :
    SameNet a t.net ∨ ∃ y b, netStep host w a y = some b ∧ SameNet b t.net ∧
      ((∃ e, x.event = .own e ∧ y = ⟨x.now, e⟩) ∨ y.event.isOwn = false) := by
  have hmoved := hopMoved hst
  obtain ⟨now, e⟩ := x
  cases hmoved with
  | lost => exact .inl h
  | silent i =>
    obtain ⟨n, hn⟩ := withBursts_of_sendRapsCb (s.net i)
    exact .inl (h.put i hn)
  | sent i =>
    obtain ⟨n, hn⟩ := withBursts_of_sendRapsCb (s.net i)
    exact .inl (h.put i hn)
  | @own e net he hnet =>
    refine .inr ⟨⟨now, e⟩, ?_⟩
    unfold netStep at hnet ⊢
    rw [h.enabled_eq]
    split at hnet
    · rename_i hen
      rw [if_pos hen]
      obtain ⟨r', hr', rfl⟩ := Option.map_eq_some_iff.mp hnet
      obtain ⟨n, hn⟩ := h e.node
      rw [hn, ← SameNet.callback_eq (a := a) he] at hr'
      obtain ⟨r₁, n', hr₁, hr'⟩ := handle_withBursts (hc e.node) hr'
      exact ⟨_, by rw [hr₁, Option.map_some], h.update e.node hr', .inl ⟨e, rfl, rfl⟩⟩
    · cases hnet
  | @received f r out hf hcb =>
    obtain ⟨i, hsend, hdata⟩ := hx f rfl
    obtain ⟨m, hm⟩ := h i
    obtain ⟨n, hn⟩ := h f.node
    have hcb := handle_of_portCb hcb
    rw [hn] at hcb
    obtain ⟨r₁, n', hr₁, hr'⟩ := handle_withBursts (hc f.node) hcb
    refine .inr ⟨⟨now, .deliver i f.node (w.port f.link f.dest)⟩, Function.update a f.node r₁, ?_, ?_,
      .inr rfl⟩
    · have hen : NetEvent.enabled w a (.deliver i f.node (w.port f.link f.dest)) = true := by
        rw [hm] at hsend
        exact hsend
      have hframe : f.data = (a i).tx.rapsFrame := by
        rw [hdata, hm]
        rfl
      rw [hframe] at hr₁
      unfold netStep
      rw [if_pos hen]
      exact congrArg (Option.map (Function.update a f.node)) hr₁
    · rw [Hops.forward_net]
      exact h.update f.node hr'

theorem coherent_of_network {a : Net N} (h : (network host w).Reachable a) (i : Fin N) :
    Coherent (a i) := by
  revert i
  refine h.invariant (I := fun a => ∀ i, Coherent (a i)) ?_ ?_
  · intro a ha i
    have ha : Assembled a := ha
    exact (ha.created i).coherent
  · intro a x b _ hc hst i
    have hst : netStep host w a x = some b := hst
    unfold netStep at hst
    split at hst
    · obtain ⟨r', hr', rfl⟩ := Option.map_eq_some_iff.mp hst
      by_cases hi : i = x.event.node
      · subst hi
        rw [Function.update_self]
        exact (handle_outcome (hc _) hr').coherent (hc _)
      · rw [Function.update_of_ne hi]
        exact hc i
    · cases hst

/-- The simulation, for runs with a further condition on the steps of either ring. -/
theorem exists_sameNet {C : Net N → NetInput N → Prop} {D : Hops N → HopInput N → Prop}
    (htimely : ∀ s x, D s x → Timely s x)
    (hown : ∀ a s x e, SameNet a s.net → D s x → x.event = .own e → C a ⟨x.now, e⟩)
    (hdeliver : ∀ a y, y.event.isOwn = false → C a y) {s : Hops N}
    (h : ((hops host w).restrict D).Reachable s) :
    ∃ a, ((network host w).restrict C).Reachable a ∧ SameNet a s.net := by
  refine h.simulate (R := fun s a => SameNet a s.net) ?_ ?_
  · intro s hs
    exact ⟨s.net, hs.1, fun i => ⟨(s.net i).tx.rapsBurstsRemain, rfl⟩⟩
  · intro s x t a _ ha hR hst
    obtain ⟨hD, hst⟩ := hst
    have hc := coherent_of_network ha.of_restrict
    rcases hR.step hc (htimely s x hD) hst with hR' | ⟨y, b, hy, hR', hcase⟩
    · exact ⟨[], a, .nil, hR'⟩
    · have hC : C a y := by
        rcases hcase with ⟨e, he, rfl⟩ | hy
        · exact hown a s x e hR hD he
        · exact hdeliver a y hy
      exact ⟨[] ++ [y], b, Lts.Run.nil.snoc ⟨hC, hy⟩, hR'⟩

/-- **Forwarding adds nothing.** In the runs in which what is received is still being transmitted, the
nodes go through the states of the ring in which everybody hears what anybody transmits. -/
theorem hops_refine {s : Hops N} (h : ((hops host w).restrict Timely).Reachable s) :
    ∃ a, (network host w).Reachable a ∧ SameNet a s.net := by
  obtain ⟨a, ha, hR⟩ := exists_sameNet (C := fun _ _ => True) (fun _ _ h => h)
    (fun _ _ _ _ _ _ _ => trivial) (fun _ _ _ => trivial) h
  exact ⟨a, ha.of_restrict, hR⟩

/-- The runs in which every frame is timely and row 20 finds a block. -/
def Orderly (w : Wiring N) (s : Hops N) (x : HopInput N) : Prop := Timely s x ∧ HopBacked w s x

theorem SameNet.alike {a net : Net N} (h : SameNet a net) (i : Fin N) : (a i).Alike (net i) := by
  obtain ⟨n, hn⟩ := h i
  rw [hn]
  exact alike_withBursts (a i) n

theorem SameNet.holders_eq {a net : Net N} (h : SameNet a net) : holders net = holders a :=
  Set.ext fun i => (h.alike i).hasBlock_iff

theorem exists_sameNet_of_orderly {s : Hops N}
    (h : ((hops host w).restrict (Orderly w)).Reachable s) :
    ∃ a, ((network host w).restrict (RecoverBacked w)).Reachable a ∧ SameNet a s.net := by
  refine exists_sameNet (fun _ _ h => h.1) ?_ ?_ h
  · intro a s x e hR hD he p hp hs
    have ha := hR.alike e.node
    have hs : (a e.node).state = .protection := hs
    have hp : e.callback w a = .command (.recover p) := hp
    have hown : e.isOwn = true := by
      cases e with
      | deliver => cases hp
      | clear | ms | fs | fail | recover | timer => rfl
    have hsame : e.callback w a = e.callback w s.net := SameNet.callback_eq hown
    rw [hsame] at hp
    exact ha.hasBlock_iff.mp (hD.2 e he p hp (ha.state.trans hs))
  · intro a y hy p hp
    obtain ⟨now, e⟩ := y
    cases e with
    | deliver => cases hp
    | clear | ms | fs | fail | recover | timer => cases hy

/-- **No loop, hop by hop.** -/
theorem hops_loop_free {s : Hops N} (h : ((hops host w).restrict (Orderly w)).Reachable s) :
    ∃ i p, ((s.net i).port p).isBlocked = true := by
  have hhold : (holders s.net).Nonempty := by
    refine Custody.simulate (fun s : Hops N => holders s.net) ?_ ?_ h
    · intro s hs
      obtain ⟨i, _, _⟩ := hs.1.owner
      obtain ⟨now, id, role, hi⟩ := (hs.1.created i).exists_started
      refine ⟨i, ?_⟩
      show (s.net i).HasBlock
      rw [hi]
      exact (Ring.started_blocksOnly _ now).hasBlock
    · intro s x t hr hst
      obtain ⟨a, ha, hR⟩ := exists_sameNet_of_orderly hr
      have hc := coherent_of_network ha.of_restrict
      rcases hR.step hc hst.1.1 hst.2 with hR' | ⟨y, b, hy, hR', _⟩
      · refine ⟨.take, ?_⟩
        rw [hR.holders_eq, hR'.holders_eq]
        exact Set.Subset.refl _
      · obtain ⟨l, hl⟩ := exists_custody_step (.of_reachable ha) hy
        rw [← hR.holders_eq, ← hR'.holders_eq] at hl
        exact ⟨l, hl⟩
  exact hhold

end hops

/-- Three nodes and nothing on the air. -/
def threeHops : Hops 3 := ⟨threeNodes, 0⟩

/-- The last of them. -/
def lastNode : Fin 3 := ⟨2, Nat.lt_succ_self 2⟩

/-- What it announces, on its way to the owner. -/
def lastFlight : Flight 3 := ⟨lastNode, .far, (threeNodes lastNode).tx.rapsFrame⟩

/-- The last node transmits, and the owner hears it. -/
def firstHop : List (HopInput 3) := [⟨1000, .send lastNode⟩, ⟨1000, .receive lastFlight⟩]

theorem exists_firstHop :
    ∃ s, Lts.exec (hopStep .little threeWiring) threeHops firstHop = some s ∧
      ((hops .little threeWiring).restrict (Orderly threeWiring)).Reachable s := by
  have hsteps : ∃ s t, hopStep .little threeWiring threeHops ⟨1000, .send lastNode⟩ = some s ∧
      hopStep .little threeWiring s ⟨1000, .receive lastFlight⟩ = some t ∧
      (s.net lastNode).tx.isSendingRaps = true ∧
      lastFlight.data = (s.net lastNode).tx.rapsFrame := ⟨_, _, rfl, rfl, rfl, rfl⟩
  obtain ⟨s, t, hs, ht, hsend, hdata⟩ := hsteps
  have h₀ : ((hops .little threeWiring).restrict (Orderly threeWiring)).Reachable threeHops :=
    .init ⟨assembled_threeNodes, rfl⟩
  have h₁ : ((hops .little threeWiring).restrict (Orderly threeWiring)).Reachable s := by
    refine h₀.step ⟨⟨?_, ?_⟩, hs⟩
    · intro f hf
      cases hf
    · intro e he
      cases he
  refine ⟨t, by simp only [firstHop, Lts.exec, hs, ht, Option.bind_some], h₁.step ⟨⟨?_, ?_⟩, ht⟩⟩
  · intro f hf
    cases hf
    exact ⟨lastNode, hsend, hdata⟩
  · intro e he
    cases he

/-- The ring without hops has got there as well. -/
theorem hops_refine_firstHop :
    ∃ s, Lts.exec (hopStep .little threeWiring) threeHops firstHop = some s ∧
      ∃ a, (network .little threeWiring).Reachable a ∧ SameNet a s.net := by
  obtain ⟨s, hs, hr⟩ := exists_firstHop
  exact ⟨s, hs, hops_refine (hr.restrict_mono fun _ _ h => h.1)⟩

/-- The owner has opened the RPL, and some port is blocked. -/
theorem hops_loop_free_firstHop :
    ∃ s, Lts.exec (hopStep .little threeWiring) threeHops firstHop = some s ∧
      ∃ i p, ((s.net i).port p).isBlocked = true := by
  obtain ⟨s, hs, hr⟩ := exists_firstHop
  exact ⟨s, hs, hops_loop_free hr⟩

section hops

variable {N : Nat} {host : ByteOrder} {w : Wiring N}

/-! ## Who sent it -/

/-- The frame is one that this node sends at some time: it has the id of the node, and says
R-APS(NR,RB) only if the node is the RPL owner. -/
def SpelledBy (r : Ring UInt64) (data : List UInt8) : Prop :=
  ∃ raps : Raps, data = rapsBytes raps ∧ raps.subcode = 0 ∧ raps.request ≠ .event ∧
    raps.nodeId = r.cfg.nodeId ∧ (raps.ringRequest = some .rapsNrRb → r.cfg.isRplOwner = true)

theorem SpelledBy.congr {r r' : Ring UInt64} {data : List UInt8} (h : SpelledBy r data)
    (hcfg : r'.cfg = r.cfg) : SpelledBy r' data := by
  obtain ⟨raps, hdata, hsub, hreq, hid, hrb⟩ := h
  exact ⟨raps, hdata, hsub, hreq, hid.trans (by rw [hcfg]), fun h => by rw [hcfg]; exact hrb h⟩

/-- The invariant of the ring hop by hop, whatever is lost, late or out of order. -/
structure HopSound (s : Hops N) : Prop where
  timed : ∀ i, OwnerTimed (s.net i)
  framed : ∀ i, (s.net i).Framed
  nodeId_injective : Function.Injective fun i => (s.net i).cfg.nodeId
  owner_unique : ∀ i j, (s.net i).cfg.isRplOwner = true → (s.net j).cfg.isRplOwner = true → i = j
  air : ∀ f ∈ s.air, ∃ i, SpelledBy (s.net i) f.data

theorem spelledBy_of_sending {r : Ring UInt64} (ht : OwnerTimed r) (hf : r.Framed)
    (hs : r.tx.isSendingRaps = true) : SpelledBy r r.tx.rapsFrame :=
  ⟨r.tx.raps, hf.frame, hf.subcode, hf.request, hf.nodeId,
    fun h => (ht.idle.sendsNrRb_iff.mp (sendsNrRb_of_ringRequest hs h)).1⟩

theorem Outcome.framed {r r' : Ring UInt64} {i : Input} (h : r.Framed) (ho : Outcome host r i r') :
    r'.Framed := by
  have hprep : (i.event.prepare r).Framed := by
    unfold Ring.Framed
    rw [prepare_tx, (alike_prepare r i.event).cfg]
    exact h
  cases ho with
  | still => exact hprep
  | @taken t q => exact hprep.advance i.now q.request q.port q.remoteNodeId

/-- What stays when one node moves on to `r`: nothing is known of `r` but what every node keeps. -/
theorem HopSound.put {s : Hops N} (h : HopSound s) (i : Fin N) {r : Ring UInt64} (ht : OwnerTimed r)
    (hf : r.Framed) (hcfg : r.cfg = (s.net i).cfg) : HopSound (s.put i r) := by
  have hcfgs : ∀ j, ((s.put i r).net j).cfg = (s.net j).cfg := by
    intro j
    by_cases hj : j = i
    · subst hj
      rw [Hops.put_self]
      exact hcfg
    · rw [Hops.put_of_ne s hj]
  refine ⟨?_, ?_, ?_, ?_, ?_⟩
  · intro j
    by_cases hj : j = i
    · subst hj
      rw [Hops.put_self]
      exact ht
    · rw [Hops.put_of_ne s hj]
      exact h.timed j
  · intro j
    by_cases hj : j = i
    · subst hj
      rw [Hops.put_self]
      exact hf
    · rw [Hops.put_of_ne s hj]
      exact h.framed j
  · intro j k hjk
    simp only [hcfgs] at hjk
    exact h.nodeId_injective hjk
  · intro j k hj hk
    rw [hcfgs] at hj hk
    exact h.owner_unique j k hj hk
  · intro f hfm
    obtain ⟨j, hj⟩ := h.air f hfm
    exact ⟨j, hj.congr (hcfgs j)⟩

/-- Frames may leave the air, and such that a node sends may enter it. -/
theorem HopSound.with_air {s : Hops N} (h : HopSound s) {air : Multiset (Flight N)}
    (hair : ∀ f ∈ air, f ∈ s.air ∨ ∃ i, SpelledBy (s.net i) f.data) :
    HopSound { s with air := air } where
  timed := h.timed
  framed := h.framed
  nodeId_injective := h.nodeId_injective
  owner_unique := h.owner_unique
  air f hf := (hair f hf).elim (h.air f) id

/-- What arrives is of a node of the ring, so R-APS(NR,RB) never arrives at the owner. -/
theorem HopSound.sparesOwner_of_received {s : Hops N} (h : HopSound s) {f : Flight N}
    (hf : f ∈ s.air) (now : UInt64) (j : Fin N) (p : PortId) :
    SparesOwner host (s.net j) ⟨now, .frame f.data p⟩ := by
  intro q hq hreq
  obtain ⟨i, raps, hdata, hsub, hevent, hid, hrb⟩ := h.air f hf
  rw [hdata] at hq
  obtain ⟨hne, request, hring, rfl⟩ := request_of_rapsBytes hsub hevent hq
  have hreq : request = .rapsNrRb := hreq
  have hown := hrb (hring.trans (congrArg some hreq))
  apply Bool.eq_false_iff.mpr
  intro hown'
  rw [hid, h.owner_unique i j hown hown'] at hne
  exact hne rfl

/-- A command, a link or a timer brings no R-APS(NR,RB) at all. -/
theorem sparesOwner_of_isOwn {net : Net N} {e : NetEvent N} (he : e.isOwn = true) (now : UInt64)
    (r : Ring UInt64) : SparesOwner host r ⟨now, e.callback w net⟩ := by
  intro q hq hreq
  cases e with
  | deliver => cases he
  | clear | ms | fs | fail | recover =>
    cases hq
    cases hreq
  | timer =>
    simp only [Input.request, NetEvent.callback] at hq
    split at hq <;> cases hq
    cases hreq

theorem HopSound.step {s t : Hops N} (h : HopSound s) {x : HopInput N}
    (hst : hopStep host w s x = some t) : HopSound t := by
  have hmoved := hopMoved hst
  obtain ⟨now, e⟩ := x
  have htransmit : ∀ i, HopSound (s.put i (sendRapsCb (s.net i)).1) := by
    intro i
    have ha := alike_sendRapsCb (s.net i)
    obtain ⟨n, hn⟩ := sendRapsCb_eq (s.net i)
    have hf := h.framed i
    rw [hn] at ha ⊢
    refine h.put i ⟨(h.timed i).coherent.congr ha, (h.timed i).idle.congr ha, (h.timed i).wtr⟩ ?_ rfl
    exact ⟨hf.frame, hf.frameLen, hf.subcode, hf.nodeId, hf.request⟩
  cases hmoved with
  | lost => exact h.with_air fun f hf => .inl (Multiset.mem_of_mem_erase hf)
  | silent i => exact htransmit i
  | sent i hs =>
    have hown : SpelledBy ((s.put i (sendRapsCb (s.net i)).1).net i) (s.net i).tx.rapsFrame := by
      rw [Hops.put_self]
      exact (spelledBy_of_sending (h.timed i) (h.framed i) hs).congr (alike_sendRapsCb _).cfg
    refine (htransmit i).with_air ?_
    intro f hf
    rcases Multiset.mem_cons.mp hf with rfl | hf
    · exact .inr ⟨i, by unfold Wiring.send; split <;> exact hown⟩
    · rcases Multiset.mem_cons.mp hf with rfl | hf
      · exact .inr ⟨i, by unfold Wiring.send; split <;> exact hown⟩
      · exact .inl hf
  | @own e net he hnet =>
    unfold netStep at hnet
    split at hnet
    · obtain ⟨r', hr', rfl⟩ := Option.map_eq_some_iff.mp hnet
      have ho := handle_outcome (h.timed e.node).coherent hr'
      exact h.put e.node ((h.timed e.node).outcome (sparesOwner_of_isOwn he now _) ho)
        (ho.framed (h.framed e.node)) ho.cfg
    · cases hnet
  | @received f r out hf hcb =>
    have ho := handle_outcome (h.timed f.node).coherent (handle_of_portCb hcb)
    have hspell := h.air f hf
    have hdrop : HopSound (s.drop f) :=
      h.with_air fun g hg => .inl (Multiset.mem_of_mem_erase hg)
    have hput := hdrop.put f.node
      ((h.timed f.node).outcome (h.sparesOwner_of_received hf now f.node _) ho)
      (ho.framed (h.framed f.node)) ho.cfg
    cases out with
    | none => exact hput
    | some p =>
      refine hput.with_air ?_
      intro g hg
      rcases Multiset.mem_cons.mp hg with rfl | hg
      · obtain ⟨i, hi⟩ := hspell
        refine .inr ⟨i, ?_⟩
        have hcfg : (((s.drop f).put f.node r).net i).cfg = (s.net i).cfg := by
          by_cases hif : i = f.node
          · subst hif
            rw [Hops.put_self]
            exact ho.cfg
          · rw [Hops.put_of_ne _ hif]
            rfl
        have hi := hi.congr hcfg
        unfold Wiring.send
        split <;> exact hi
      · exact .inl hg

theorem HopSound.of_reachable {s : Hops N} (h : (hops host w).Reachable s) : HopSound s := by
  refine h.invariant (I := HopSound) ?_ ?_
  · intro s hs
    obtain ⟨ha, hair⟩ := hs
    refine ⟨?_, ?_, ha.nodeId_injective, fun i j => ha.owner.unique, ?_⟩
    · intro i
      obtain ⟨now, id, role, hi⟩ := (ha.created i).exists_started
      rw [hi]
      exact .started now role id
    · intro i
      obtain ⟨now, id, role, hi⟩ := (ha.created i).exists_started
      rw [hi]
      exact framed_started now role id
    · intro f hf
      rw [hair] at hf
      exact absurd hf (Multiset.notMem_zero f)
  · intro s x t _ hs hst
    exact hs.step hst

/-- **IDLE is sound in the ring**, whatever becomes of the frames: each of them is of a node of the
ring, R-APS(NR,RB) is the RPL owner's alone and is transmitted exactly while it is IDLE, and an IDLE
node blocks its end of the RPL and nothing else. -/
theorem authentic {s : Hops N} (h : (hops host w).Reachable s) :
    (∀ f ∈ s.air, ∃ i, SpelledBy (s.net i) f.data) ∧
    (∀ i, (s.net i).SendsNrRb ↔ (s.net i).cfg.isRplOwner = true ∧ (s.net i).state = .idle) ∧
    ∀ i, (s.net i).state = .idle →
      ((s.net i).cfg.isRplOwner = true ∨ (s.net i).cfg.isRplNeighbour = true →
        (s.net i).BlocksOnly (s.net i).rpl) ∧
      ((s.net i).cfg.isRplOwner = false → (s.net i).cfg.isRplNeighbour = false → (s.net i).Open) := by
  have hs := HopSound.of_reachable h
  exact ⟨hs.air, fun i => (hs.timed i).idle.sendsNrRb_iff,
    fun i hi => ⟨(hs.timed i).idle.idle_rpl hi, (hs.timed i).idle.idle_plain hi⟩⟩

end hops

/-- So it is after the first hop. -/
theorem authentic_firstHop :
    ∃ s, Lts.exec (hopStep .little threeWiring) threeHops firstHop = some s ∧
      ∀ f ∈ s.air, ∃ i, SpelledBy (s.net i) f.data := by
  obtain ⟨s, hs, hr⟩ := exists_firstHop
  exact ⟨s, hs, (authentic hr.of_restrict).1⟩

end Erps.Sim
