import Erps.Ring.Rest
import Erps.Sim.Switching

/-!
# Back to IDLE

The other way round: the RPL owner has reverted, and the rest of the ring is in PENDING or IDLE. From
there on, as long as no link fails and nobody asks for a switch, no order of deliveries leads away
again. A node gets to IDLE exactly by hearing R-APS(NR,RB), unless the last thing it heeded was
R-APS(NR,RB) already: what took it out of a switch does not count twice. Once all are there the ring
is what it was configured to be: exactly the ports of the RPL are blocked, and only the owner speaks
(`ring_settles`).
-/

set_option autoImplicit false

namespace Erps.Sim

open Bytes

section network

variable {N : Nat} {host : ByteOrder} {w : Wiring N}

/-- The RPL owner is IDLE, and so are the other nodes or they wait for it. A switch that is over is not
announced any more; MS is the one a node can go on announcing. -/
structure Reverting (s : Net N) : Prop where
  phase : ∀ i, (s i).state = .pending ∨ (s i).state = .idle
  owner : ∀ i, (s i).cfg.isRplOwner = true → (s i).state = .idle
  no_ms : ∀ i, ¬ (s i).Sends .ms

/-- No link fails, and nobody asks for a switch. -/
def Unharmed (_ : Net N) (x : NetInput N) : Prop :=
  match x.event with
  | .ms _ _ | .fs _ _ | .fail _ _ => False
  | _ => True

/-- In the run `es` from `s`, node `j` hears R-APS(NR,RB) at a time when that is not its previous
request. -/
def HeardReversion (host : ByteOrder) (w : Wiring N) (s : Net N) (es : List (NetInput N))
    (j : Fin N) : Prop :=
  ∃ fs x gs i p u, es = fs ++ x :: gs ∧ (network host w).Run s fs u ∧ x.event = .deliver i j p ∧
    (u i).SendsNrRb ∧
    (Input.request host (u j) ⟨x.now, .frame (u i).tx.rapsFrame p⟩).isSome = true ∧
    (u j).prev.request ≠ .rapsNrRb

/-! ## Every node of the network -/

theorem ringRequest_of_sendsNrRb {r : Ring UInt64} (h : r.SendsNrRb) :
    r.tx.raps.ringRequest = some .rapsNrRb := by
  obtain ⟨flags, hs, hrb⟩ := h
  unfold Ring.sending Transmission.sending at hs
  split at hs
  · obtain ⟨hreq, rfl⟩ := Prod.mk.inj (Option.some.inj hs)
    unfold Raps.ringRequest
    simp only [hreq, if_pos hrb]
  · cases hs

/-- What every node keeps, and what they know of each other. -/
structure NetIdle (s : Net N) : Prop where
  net : NetYielding s
  timed : ∀ i, OwnerTimed (s i)
  silent : ∀ i, IdleSilent (s i)
  nodeId_injective : Function.Injective fun i => (s i).cfg.nodeId
  owner_unique : ∀ i j, (s i).cfg.isRplOwner = true → (s j).cfg.isRplOwner = true → i = j
  /-- an R-APS(NR,RB) that was heeded was the owner's -/
  from_owner : ∀ i, (s i).prev.request = .rapsNrRb →
    ∃ o, (s o).cfg.isRplOwner = true ∧ (s i).prev.remoteNodeId = (s o).cfg.nodeId

namespace NetIdle

variable {s t : Net N}

/-- Who sends R-APS(NR,RB), and what is heard of it. -/
theorem owner_of_deliver (h : NetIdle s) {i j : Fin N} {now : UInt64} {p : PortId} {q : Request}
    (hsend : (s i).tx.isSendingRaps = true)
    (hq : Input.request host (s j) ⟨now, .frame (s i).tx.rapsFrame p⟩ = some q)
    (hreq : q.request = .rapsNrRb) :
    (s i).cfg.isRplOwner = true ∧ i ≠ j ∧ q = .fromNode .rapsNrRb p (s i).cfg.nodeId := by
  obtain ⟨hne, request, hring, rfl⟩ := request_of_deliver (h.net.framed i) hq
  obtain rfl : request = .rapsNrRb := hreq
  refine ⟨((h.timed i).idle.sendsNrRb_iff.mp (sendsNrRb_of_ringRequest hsend hring)).1, ?_, rfl⟩
  intro hij
  subst hij
  exact hne rfl

/-- An R-APS(NR,RB) comes from a node of the ring. -/
theorem deliver_of_request {x : NetInput N} {q : Request}
    (hq : Input.request host (s x.event.node) ⟨x.now, x.event.callback w s⟩ = some q)
    (hreq : q.request = .rapsNrRb) : ∃ i p, x.event = .deliver i x.event.node p := by
  obtain ⟨now, e⟩ := x
  cases e with
  | deliver i j p => exact ⟨i, p, rfl⟩
  | clear | ms | fs | fail | recover =>
    cases hq
    cases hreq
  | timer =>
    simp only [Input.request, NetEvent.callback] at hq
    split at hq <;> cases hq
    cases hreq

theorem sparesOwner (h : NetIdle s) {x : NetInput N} (hen : x.event.enabled w s = true) :
    SparesOwner host (s x.event.node) ⟨x.now, x.event.callback w s⟩ := by
  intro q hq hreq
  obtain ⟨i, p, hx⟩ := deliver_of_request hq hreq
  obtain ⟨now, e⟩ := x
  generalize hj : e.node = j at hx hq
  obtain rfl : e = .deliver i j p := hx
  obtain ⟨hown, hne, _⟩ := h.owner_of_deliver hen hq hreq
  apply Bool.eq_false_iff.mpr
  intro hown'
  exact hne (h.owner_unique i j hown hown')

theorem step (h : NetIdle s) {x : NetInput N} (hst : netStep host w s x = some t) : NetIdle t := by
  have hnet := h.net.step hst
  obtain ⟨hen, r', rfl, _, ho⟩ := outcome_of_netStep (fun i => (h.net.yielding i).coherent) hst
  have hcfg : ∀ i, (Function.update s x.event.node r' i).cfg = (s i).cfg :=
    forall_update (P := fun i r => r.cfg = (s i).cfg) (fun _ => rfl) ho.cfg
  have ha := alike_prepare (s x.event.node) (x.event.callback w s)
  refine ⟨hnet, ?_, ?_, ?_, ?_, ?_⟩
  · exact forall_update (P := fun _ r => OwnerTimed r) h.timed
      ((h.timed x.event.node).outcome (h.sparesOwner hen) ho)
  · refine forall_update (P := fun _ r => IdleSilent r) h.silent ?_
    have hsilent := (h.silent x.event.node).congr ha
    cases ho with
    | still => exact hsilent.congr (alike_withTimers _ _)
    | @taken u q hq ht =>
      refine (hsilent.advance ((h.timed _).idle.congr ha) ht.accepts ?_).congr (alike_withTimers _ _)
      intro hexp
      rw [ha.cfg]
      exact (h.timed _).wtr (wtr_active_of_request hq hexp)
  · intro i j hij
    simp only [hcfg] at hij
    exact h.nodeId_injective hij
  · intro i j hi hj
    rw [hcfg] at hi hj
    exact h.owner_unique i j hi hj
  · simp only [hcfg]
    refine forall_update (P := fun _ r => r.prev.request = .rapsNrRb →
      ∃ o, (s o).cfg.isRplOwner = true ∧ r.prev.remoteNodeId = (s o).cfg.nodeId) h.from_owner ?_
    cases ho with
    | still =>
      show ((x.event.callback w s).prepare (s x.event.node)).prev.request = .rapsNrRb →
        ∃ o, (s o).cfg.isRplOwner = true ∧
          ((x.event.callback w s).prepare (s x.event.node)).prev.remoteNodeId = (s o).cfg.nodeId
      rw [ha.prev]
      exact h.from_owner _
    | @taken u q hq ht =>
      intro hreq
      have hreq : q.request = .rapsNrRb := hreq
      obtain ⟨i, p, hx⟩ := deliver_of_request hq hreq
      obtain ⟨now, e⟩ := x
      generalize hj : e.node = j at hx hq
      obtain rfl : e = .deliver i j p := hx
      obtain ⟨hown, _, rfl⟩ := h.owner_of_deliver hen hq hreq
      exact ⟨i, hown, rfl⟩

theorem assembled (h : Assembled s) : NetIdle s := by
  refine ⟨.assembled h, ?_, ?_, h.nodeId_injective, fun i j => h.owner.unique, ?_⟩
  · intro i
    obtain ⟨now, id, role, hi⟩ := (h.created i).exists_started
    rw [hi]
    exact .started now role id
  · intro i
    obtain ⟨now, id, role, hi⟩ := (h.created i).exists_started
    rw [hi]
    exact .started _ now
  · intro i hprev
    obtain ⟨now, id, role, hi⟩ := (h.created i).exists_started
    rw [hi] at hprev
    cases hprev

theorem of_reachable (h : (network host w).Reachable s) : NetIdle s :=
  h.invariant (I := NetIdle) (fun _ => .assembled) fun _ _ _ _ hs hst => hs.step hst

end NetIdle

/-! ## The ring that reverts -/

namespace Reverting

variable {s t : Net N}

theorem calm (h : Reverting s) (hn : NetIdle s) (i : Fin N) : Calm (s i) := by
  refine .of_dominant (hn.net.yielding i).dominant (h.phase i) (h.no_ms i) ?_
  intro hev
  exact (hn.net.framed i).request (request_of_sends hev)

/-- What is left to be handed over. -/
theorem request_isCalm (h : Reverting s) (hn : NetIdle s) {x : NetInput N} (hx : Unharmed s x)
    (hen : x.event.enabled w s = true) {q : Request}
    (hq : Input.request host (s x.event.node) ⟨x.now, x.event.callback w s⟩ = some q) :
    q.request.isCalm = true := by
  obtain ⟨now, e⟩ := x
  cases e with
  | ms | fs | fail => exact hx.elim
  | clear | recover =>
    cases hq
    rfl
  | timer =>
    simp only [Input.request, NetEvent.callback] at hq
    split at hq <;> cases hq
    rfl
  | deliver i j p =>
    obtain ⟨_, request, hring, rfl⟩ := request_of_deliver (hn.net.framed i) hq
    have hsends : (s i).Sends (s i).tx.raps.request := by
      have hsend : (s i).tx.isSendingRaps = true := hen
      refine ⟨(s i).tx.raps.flags, ?_⟩
      unfold Ring.sending Transmission.sending
      rw [if_pos hsend]
    have hnr := (h.calm hn i).sends_nr _ hsends
    unfold Raps.ringRequest at hring
    simp only [hnr] at hring
    split at hring <;> cases hring <;> rfl

theorem step (h : Reverting s) (hn : NetIdle s) {x : NetInput N} (hx : Unharmed s x)
    (hst : netStep host w s x = some t) : Reverting t := by
  obtain ⟨hen, r', rfl, _, ho⟩ := outcome_of_netStep (fun i => (hn.net.yielding i).coherent) hst
  have ha := alike_prepare (s x.event.node) (x.event.callback w s)
  have hcalm : ∀ i, Calm (Function.update s x.event.node r' i) := by
    refine forall_update (P := fun _ r => Calm r) (h.calm hn) ?_
    have hprep := (h.calm hn x.event.node).congr ha
    cases ho with
    | still => exact hprep.congr (alike_withTimers _ _)
    | taken hq _ =>
      exact (hprep.advance (h.request_isCalm hn hx hen hq)).congr (alike_withTimers _ _)
  refine ⟨fun i => (hcalm i).phase, ?_, ?_⟩
  · refine forall_update (P := fun _ r => r.cfg.isRplOwner = true → r.state = .idle) h.owner ?_
    intro hown
    rw [ho.cfg] at hown
    have hidle := ha.state.trans (h.owner _ hown)
    cases ho with
    | still => exact hidle
    | taken hq _ => exact Ring.next_of_calm_idle (h.request_isCalm hn hx hen hq) hidle
  · intro i hms
    cases (hcalm i).sends_nr _ hms

/-- A node that is IDLE stays so. -/
theorem idle (h : Reverting s) (hn : NetIdle s) {x : NetInput N} (hx : Unharmed s x)
    (hst : netStep host w s x = some t) {j : Fin N} (hj : (s j).state = .idle) :
    (t j).state = .idle := by
  obtain ⟨hen, r', rfl, _, ho⟩ := outcome_of_netStep (fun i => (hn.net.yielding i).coherent) hst
  refine forall_update (P := fun i r => (s i).state = .idle → r.state = .idle) (fun _ h => h) ?_ j hj
  intro hidle
  have hidle := (alike_prepare _ (x.event.callback w s)).state.trans hidle
  cases ho with
  | still => exact hidle
  | taken hq _ => exact Ring.next_of_calm_idle (h.request_isCalm hn hx hen hq) hidle

/-- A node comes to IDLE by an R-APS(NR,RB) that it takes. -/
theorem heard_of_idle (h : Reverting s) (hn : NetIdle s) {x : NetInput N} (hx : Unharmed s x)
    (hst : netStep host w s x = some t) {j : Fin N} (hs : (s j).state ≠ .idle)
    (ht : (t j).state = .idle) :
    ∃ i p, x.event = .deliver i j p ∧ (s i).SendsNrRb ∧
      (Input.request host (s j) ⟨x.now, .frame (s i).tx.rapsFrame p⟩).isSome = true ∧
      (s j).prev.request ≠ .rapsNrRb := by
  have hj : j = x.event.node := by
    by_contra hj
    rw [netStep_of_ne hst hj] at ht
    exact hs ht
  have hpending := (h.phase j).resolve_right hs
  have hown : (s j).cfg.isRplOwner = false := by
    apply Bool.eq_false_iff.mpr
    intro hown
    exact hs (h.owner j hown)
  obtain ⟨hen, r', rfl, _, ho⟩ := outcome_of_netStep (fun i => (hn.net.yielding i).coherent) hst
  rw [hj, Function.update_self] at ht
  rw [hj] at hs hpending hown
  have ha := alike_prepare (s x.event.node) (x.event.callback w s)
  cases ho with
  | still => exact absurd (ha.state.symm.trans ht) hs
  | @taken u q hq htk =>
    have hnext : (((x.event.callback w s).prepare (s x.event.node)).effect q.request q.port
        q.remoteNodeId).next = .idle := ht
    have hreq : q.request = .rapsNrRb := by
      refine (next_idle_iff_of_calm ((hn.timed _).idle.congr ha) (h.request_isCalm hn hx hen hq)
        (ha.state.trans hpending) htk.accepts ?_ ?_).mp hnext
      · intro hexp
        rw [ha.cfg]
        exact (hn.timed _).wtr (wtr_active_of_request hq (.inl hexp))
      · rw [ha.cfg]
        exact hown
    obtain ⟨i, p, hdel⟩ := NetIdle.deliver_of_request hq hreq
    obtain ⟨now, e⟩ := x
    generalize hk : e.node = k at *
    obtain rfl : e = .deliver i k p := hdel
    obtain ⟨hown', _, rfl⟩ := hn.owner_of_deliver hen hq hreq
    subst hj
    refine ⟨i, p, rfl, (hn.timed i).idle.sendsNrRb_iff.mpr ⟨hown', h.owner i hown'⟩, ?_, ?_⟩
    · exact Option.isSome_iff_exists.mpr ⟨_, hq⟩
    · -- there is one owner, so a second one would be a duplicate
      intro hprev
      obtain ⟨o, ho, hid⟩ := hn.from_owner j hprev
      rw [hn.owner_unique o i ho hown'] at hid
      have hdupe : (s j).isDupe .rapsNrRb (some p) (some (s i).cfg.nodeId) = true := by
        simp [Ring.isDupe, hprev, hid, NodeId.memcmp_eq_zero_iff]
      have hno : (s j).isDupe .rapsNrRb (some p) (some (s i).cfg.nodeId) = false := htk.not_dupe
      exact absurd hdupe (by simp [hno])

/-- An R-APS(NR,RB) that is not the previous request is taken, and leads to IDLE. -/
theorem idle_of_heard (h : Reverting s) (hn : NetIdle s) {now : UInt64} {i j : Fin N} {p : PortId}
    (hst : netStep host w s ⟨now, .deliver i j p⟩ = some t) (hsends : (s i).SendsNrRb)
    (hheard : (Input.request host (s j) ⟨now, .frame (s i).tx.rapsFrame p⟩).isSome = true)
    (hprev : (s j).prev.request ≠ .rapsNrRb) : (t j).state = .idle := by
  obtain ⟨_, r', rfl, _, ho⟩ := outcome_of_netStep (fun i => (hn.net.yielding i).coherent) hst
  obtain ⟨q, hq⟩ := Option.isSome_iff_exists.mp hheard
  obtain ⟨_, request, hring, rfl⟩ := request_of_deliver (hn.net.framed i) hq
  rw [ringRequest_of_sendsNrRb hsends, Option.some.injEq] at hring
  subst hring
  have htakes : Takes (s j) (.fromNode .rapsNrRb p (s i).cfg.nodeId) := by
    by_contra hno
    have hl := (hn.timed j).idle.quiet (h.phase j).symm
    exact hprev (Ring.prev_of_not_takes (Ring.accepts_of_raps hl rfl) rfl hno).1
  show (Function.update s j r' j).state = .idle
  rw [Function.update_self]
  cases ho with
  | still hno => exact absurd htakes (hno _ hq)
  | @taken u q' hq' ht =>
    obtain rfl := Option.some.inj (hq.symm.trans hq')
    show ((s j).effect .rapsNrRb (some p) (some (s i).cfg.nodeId)).next = .idle
    rcases h.phase j with hs | hs
    · rw [Ring.next_of_calm_pending rfl hs]
      rfl
    · exact Ring.next_of_calm_idle rfl hs

end Reverting

/-! ## What it comes to -/

theorem HeardReversion.snoc {s : Net N} {es : List (NetInput N)} {j : Fin N}
    (h : HeardReversion host w s es j) (x : NetInput N) : HeardReversion host w s (es ++ [x]) j := by
  obtain ⟨fs, y, gs, i, p, u, rfl, hu, hrest⟩ := h
  exact ⟨fs, y, gs ++ [x], i, p, u, by rw [List.append_assoc, List.cons_append], hu, hrest⟩

/-- What was heard in a run was heard before its last step, or in it. -/
theorem HeardReversion.cases_of_snoc {s u : Net N} {es : List (NetInput N)} {x : NetInput N}
    {j : Fin N} (h : HeardReversion host w s (es ++ [x]) j) (hr : (network host w).Run s es u) :
    HeardReversion host w s es j ∨
      ∃ i p, x.event = .deliver i j p ∧ (u i).SendsNrRb ∧
        (Input.request host (u j) ⟨x.now, .frame (u i).tx.rapsFrame p⟩).isSome = true ∧
        (u j).prev.request ≠ .rapsNrRb := by
  obtain ⟨fs, y, gs, i, p, v, hes, hv, hy, hrest⟩ := h
  rcases List.eq_nil_or_concat gs with rfl | ⟨gs, z, rfl⟩
  · obtain ⟨rfl, hxy⟩ := List.append_inj' hes rfl
    obtain rfl : x = y := List.cons.inj hxy |>.1
    obtain rfl : v = u := Option.some.inj ((Lts.exec_of_run hv).symm.trans (Lts.exec_of_run hr))
    exact .inr ⟨i, p, hy, hrest⟩
  · rw [List.concat_eq_append, ← List.cons_append, ← List.append_assoc] at hes
    obtain ⟨rfl, _⟩ := List.append_inj' hes rfl
    exact .inl ⟨fs, y, gs, i, p, v, rfl, hv, hy, hrest⟩

/-- A ring at rest. -/
theorem blocked_and_sending_of_idle {t : Net N} (hn : NetIdle t) (hall : ∀ j, (t j).state = .idle)
    (i : Fin N) :
    (∀ p, ((t i).port p).isBlocked = true ↔
      ((t i).cfg.isRplOwner = true ∨ (t i).cfg.isRplNeighbour = true) ∧
        (t i).cfg.rplPort = some p) ∧
      ((t i).sending ≠ none ↔ (t i).cfg.isRplOwner = true) := by
  refine ⟨(hn.timed i).isBlocked_iff_of_idle (hall i), ?_⟩
  constructor
  · intro hsend
    by_contra hown
    exact hsend (hn.silent i (hall i) (Bool.eq_false_iff.mpr hown))
  · intro hown
    obtain ⟨flags, hs, _⟩ := (hn.timed i).idle.sendsNrRb_iff.mpr ⟨hown, hall i⟩
    rw [hs]
    exact Option.some_ne_none _

/-- **The way back.** From a state in which the owner has reverted and everybody else is IDLE or waits,
a run without failures and switches stays there, in whatever order things happen. A node is IDLE at
its end exactly if it was, or has heard R-APS(NR,RB) when that was not what it had heard before. Once
all are IDLE exactly the ports of the RPL are blocked, and nobody but the owner transmits. -/
theorem ring_settles {s t : Net N} {es : List (NetInput N)} (hs : (network host w).Reachable s)
    (hrev : Reverting s) (hr : ((network host w).restrict Unharmed).Run s es t) :
    Reverting t ∧
      (∀ j, (t j).state = .idle ↔ (s j).state = .idle ∨ HeardReversion host w s es j) ∧
      ((∀ j, (t j).state = .idle) → ∀ i,
        (∀ p, ((t i).port p).isBlocked = true ↔
          ((t i).cfg.isRplOwner = true ∨ (t i).cfg.isRplNeighbour = true) ∧
            (t i).cfg.rplPort = some p) ∧
          ((t i).sending ≠ none ↔ (t i).cfg.isRplOwner = true)) := by
  have hkeep : Reverting t ∧
      ∀ j, (t j).state = .idle ↔ (s j).state = .idle ∨ HeardReversion host w s es j := by
    induction hr with
    | nil =>
      refine ⟨hrev, fun j => ⟨.inl, ?_⟩⟩
      intro h
      rcases h with hj | ⟨fs, x, gs, _, _, _, hes, _⟩
      · exact hj
      · simp at hes
    | @snoc es u v x hr hst ih =>
      obtain ⟨hu, hiff⟩ := ih
      obtain ⟨hx, hst⟩ := hst
      have hn := NetIdle.of_reachable (hs.run hr.of_restrict)
      refine ⟨hu.step hn hx hst, fun j => ?_⟩
      constructor
      · intro hj
        by_cases hidle : (u j).state = .idle
        · exact ((hiff j).mp hidle).imp_right fun h => h.snoc x
        · obtain ⟨i, p, hdel, hheard⟩ := hu.heard_of_idle hn hx hst hidle hj
          exact .inr ⟨es, x, [], i, p, u, rfl, hr.of_restrict, hdel, hheard⟩
      · intro h
        rcases h with hj | hheard
        · exact hu.idle hn hx hst ((hiff j).mpr (.inl hj))
        · rcases hheard.cases_of_snoc hr.of_restrict with h | ⟨i, p, hdel, hsends, hsome, hprev⟩
          · exact hu.idle hn hx hst ((hiff j).mpr (.inr h))
          · obtain ⟨now, e⟩ := x
            obtain rfl : e = .deliver i j p := hdel
            exact hu.idle_of_heard hn hst hsends hsome hprev
  have hn := NetIdle.of_reachable (hs.run hr.of_restrict)
  exact ⟨hkeep.1, hkeep.2, blocked_and_sending_of_idle hn⟩

end network

/-- The owner has reverted, and the others hear of it. -/
def revertedRun : List (NetInput 3) :=
  [⟨16000, .deliver firstNode middleNode .port0⟩, ⟨16000, .deliver firstNode lastNode .port1⟩]

set_option maxRecDepth 20000 in
theorem ring_settles_threeNodes :
    ∃ s t, netStep .little threeWiring threeNodes ⟨15000, .timer firstNode⟩ = some s ∧
      Lts.exec (netStep .little threeWiring) s revertedRun = some t ∧
      ∀ i p, ((t i).port p).isBlocked = true ↔
        ((t i).cfg.isRplOwner = true ∨ (t i).cfg.isRplNeighbour = true) ∧
          (t i).cfg.rplPort = some p := by
  have hsteps : ∃ s u t,
      netStep .little threeWiring threeNodes ⟨15000, .timer firstNode⟩ = some s ∧
      netStep .little threeWiring s ⟨16000, .deliver firstNode middleNode .port0⟩ = some u ∧
      netStep .little threeWiring u ⟨16000, .deliver firstNode lastNode .port1⟩ = some t ∧
      (s firstNode).state = .idle ∧ (s middleNode).state = .pending ∧
      (s lastNode).state = .pending ∧ (s firstNode).sending = some (.nr, rapsFlagRb ||| rapsFlagDnf) ∧
      (s middleNode).sending = some (.nr, 0) ∧ (s lastNode).sending = some (.nr, 0) ∧
      (s middleNode).cfg.isRplOwner = false ∧ (s lastNode).cfg.isRplOwner = false ∧
      (t firstNode).state = .idle ∧ (t middleNode).state = .idle ∧ (t lastNode).state = .idle :=
    ⟨_, _, _, rfl, rfl, rfl, rfl, rfl, rfl, rfl, rfl, rfl, rfl, rfl, rfl, rfl, rfl⟩
  obtain ⟨s, u, t, hs, hu, ht, h₀, h₁, h₂, hsend₀, hsend₁, hsend₂, hown₁, hown₂, ht₀, ht₁, ht₂⟩ :=
    hsteps
  have hreach : (network .little threeWiring).Reachable s :=
    (Lts.Reachable.init assembled_threeNodes).step hs
  have hrev : Reverting s := by
    refine ⟨fun i => ?_, fun i hown => ?_, fun i hms => ?_⟩
    · rcases cases_of_three i with rfl | rfl | rfl
      · exact .inr h₀
      · exact .inl h₁
      · exact .inl h₂
    · rcases cases_of_three i with rfl | rfl | rfl
      · exact h₀
      · exact absurd hown (by simp [hown₁])
      · exact absurd hown (by simp [hown₂])
    · obtain ⟨flags, hms⟩ := hms
      rcases cases_of_three i with rfl | rfl | rfl
      · exact absurd (hsend₀.symm.trans hms) (by simp)
      · exact absurd (hsend₁.symm.trans hms) (by simp)
      · exact absurd (hsend₂.symm.trans hms) (by simp)
  have hfirst : ((network .little threeWiring).restrict Unharmed).Run s
      ([] ++ [⟨16000, .deliver firstNode middleNode .port0⟩]) u := Lts.Run.nil.snoc ⟨trivial, hu⟩
  have hrun : ((network .little threeWiring).restrict Unharmed).Run s revertedRun t :=
    hfirst.snoc ⟨trivial, ht⟩
  refine ⟨s, t, hs, Lts.exec_of_run hrun.of_restrict, fun i => ?_⟩
  refine ((ring_settles hreach hrev hrun).2.2 (fun j => ?_) i).1
  rcases cases_of_three j with rfl | rfl | rfl
  · exact ht₀
  · exact ht₁
  · exact ht₂

end Erps.Sim
