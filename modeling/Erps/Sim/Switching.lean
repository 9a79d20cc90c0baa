import Erps.Ring.Yield
import Erps.Sim.Storm

/-!
# Switching over

What the ring is for: a forced switch, or a failed link, takes the block away from wherever it is. No
order of deliveries makes that happen by itself, since a node that still announces R-APS(NR) takes
others back out of the switch. But where the last thing heard by every node was the switch, the whole
ring has switched (`forced_switch_takes_over`, `failed_link_takes_over`): exactly the ports of the
switch are blocked, and nobody else says anything. From there on nothing is left on the air that could
undo it, so it stays until a CLEAR, or a command, or a change of the link.
-/

set_option autoImplicit false

namespace Erps.Sim

open Bytes

section network

variable {N : Nat} {host : ByteOrder} {w : Wiring N}

/-! ## What a node has heard -/

/-- After `es`, a run from `s`, the last thing that happened to node `j` is that it heard `request`,
which another node was transmitting. It need not have heeded it. -/
def LastHeard (host : ByteOrder) (w : Wiring N) (s : Net N) (es : List (NetInput N))
    (request : RapsRequest) (j : Fin N) : Prop :=
  ∃ fs x gs i p u, es = fs ++ x :: gs ∧ (network host w).Run s fs u ∧ x.event = .deliver i j p ∧
    (u i).Sends request ∧
    (Input.request host (u j) ⟨x.now, .frame (u i).tx.rapsFrame p⟩).isSome = true ∧
    ∀ y ∈ gs, y.event.node ≠ j

/-- What was heard after `es`, with nothing but `fs` since. -/
theorem lastHeard_of_run {s u : Net N} {es : List (NetInput N)} {request : RapsRequest}
    {i j : Fin N} {p : PortId} {now : UInt64} (fs : List (NetInput N)) (hu : (network host w).Run s es u)
    (hsends : (u i).Sends request)
    (hheard : (Input.request host (u j) ⟨now, .frame (u i).tx.rapsFrame p⟩).isSome = true)
    (hlast : ∀ y ∈ fs, y.event.node ≠ j) :
    LastHeard host w s (es ++ ⟨now, .deliver i j p⟩ :: fs) request j :=
  ⟨es, ⟨now, .deliver i j p⟩, fs, i, p, u, rfl, hu, rfl, hsends, hheard, hlast⟩

/-- What a node makes of each other's announcement of a switch. -/
def SwitchHeardAs (request : RapsRequest) (req : RingRequest) : Prop :=
  request = .fs ∧ req = .rapsFs ∨ request = .sf ∧ req = .rapsSf

theorem SwitchHeardAs.ringRequest {request : RapsRequest} {req : RingRequest}
    (h : SwitchHeardAs request req) {raps : Raps} (hraps : raps.request = request) :
    raps.ringRequest = some req := by
  unfold Raps.ringRequest
  rcases h with ⟨rfl, rfl⟩ | ⟨rfl, rfl⟩ <;> simp only [hraps]

theorem request_of_sends {r : Ring UInt64} {request : RapsRequest} (h : r.Sends request) :
    r.tx.raps.request = request := by
  obtain ⟨flags, h⟩ := h
  unfold Ring.sending Transmission.sending at h
  split at h
  · cases h
    rfl
  · cases h

theorem sending_ne_none {r : Ring UInt64} (h : r.tx.isSendingRaps = true) : r.sending ≠ none := by
  unfold Ring.sending Transmission.sending
  rw [if_pos h]
  exact Option.some_ne_none _

/-! ## Every node of the network -/

theorem outcome_of_netStep {s t : Net N} (hc : ∀ i, Coherent (s i)) {x : NetInput N}
    (hst : netStep host w s x = some t) :
    x.event.enabled w s = true ∧ ∃ r', t = Function.update s x.event.node r' ∧
      handle host (s x.event.node) ⟨x.now, x.event.callback w s⟩ = some r' ∧
      Outcome host (s x.event.node) ⟨x.now, x.event.callback w s⟩ r' := by
  unfold netStep at hst
  split at hst
  · rename_i hen
    obtain ⟨r', hr', rfl⟩ := Option.map_eq_some_iff.mp hst
    exact ⟨hen, r', rfl, hr', handle_outcome (hc x.event.node) hr'⟩
  · cases hst

theorem netStep_of_ne {s t : Net N} {x : NetInput N} (hst : netStep host w s x = some t) {j : Fin N}
    (hj : j ≠ x.event.node) : t j = s j := by
  unfold netStep at hst
  split at hst
  · obtain ⟨r', _, rfl⟩ := Option.map_eq_some_iff.mp hst
    exact Function.update_of_ne hj ..
  · cases hst

/-- A property of the nodes is kept if the node that moves keeps it. -/
theorem forall_update {P : Fin N → Ring UInt64 → Prop} {s : Net N} {j : Fin N} {r : Ring UInt64}
    (h : ∀ i, P i (s i)) (hj : P j r) : ∀ i, P i (Function.update s j r i) := by
  intro i
  by_cases hi : i = j
  · subst hi
    rw [Function.update_self]
    exact hj
  · rw [Function.update_of_ne hi]
    exact h i

theorem yielding_outcome {r r' : Ring UInt64} {i : Input} (h : Yielding r)
    (ho : Outcome host r i r') : Yielding r' := by
  have hprep := h.congr (alike_prepare r i.event)
  cases ho with
  | still => exact hprep.congr (alike_withTimers _ _)
  | @taken t q _ ht => exact (hprep.advance ht.accepts q.port_isSome).congr (alike_withTimers _ _)

/-- What every node keeps, whatever happens. -/
structure NetYielding (s : Net N) : Prop where
  yielding : ∀ i, Yielding (s i)
  framed : ∀ i, (s i).Framed

theorem NetYielding.step {s t : Net N} (h : NetYielding s) {x : NetInput N}
    (hst : netStep host w s x = some t) : NetYielding t := by
  obtain ⟨_, r', rfl, _, ho⟩ := outcome_of_netStep (fun i => (h.yielding i).coherent) hst
  exact ⟨forall_update (P := fun _ r => Yielding r) h.yielding
      (yielding_outcome (h.yielding x.event.node) ho),
    forall_update (P := fun _ r => r.Framed) h.framed (ho.framed (h.framed x.event.node))⟩

theorem NetYielding.assembled {s : Net N} (hs : Assembled s) : NetYielding s := by
  refine ⟨fun i => ?_, fun i => ?_⟩
  · obtain ⟨now, id, role, hi⟩ := (hs.created i).exists_started
    rw [hi]
    exact .started (blank_ringBlank role id) now
  · obtain ⟨now, id, role, hi⟩ := (hs.created i).exists_started
    rw [hi]
    exact framed_started now role id

theorem NetYielding.of_reachable {s : Net N} (h : (network host w).Reachable s) :
    NetYielding s :=
  h.invariant (I := NetYielding) (fun _ => .assembled) fun _ _ _ _ hs hst => hs.step hst

/-- **What was heard last is the previous request**, unless the node would not take it now either. -/
theorem LastHeard.prev_request {s t : Net N} {es : List (NetInput N)} {request : RapsRequest}
    {req : RingRequest} {j : Fin N} (h : LastHeard host w s es request j)
    (hreq : SwitchHeardAs request req) (hs : (network host w).Reachable s)
    (hr : (network host w).Run s es t) (ha : (t j).accepts req = true) :
    (t j).prev.request = req := by
  obtain ⟨fs, x, gs, i, p, u, rfl, hu, hx, hsends, hheard, hlast⟩ := h
  obtain ⟨v, hv, hvt⟩ := Lts.exists_step_of_run hr hu
  have hn := NetYielding.of_reachable (hs.run hu)
  obtain ⟨now, e⟩ := x
  obtain rfl : e = .deliver i j p := hx
  obtain ⟨_, r', rfl, hhandle, _⟩ := outcome_of_netStep (fun i => (hn.yielding i).coherent) hv
  have htj : t j = r' := by
    have hkeep : t j = Function.update u j r' j :=
      hvt.keeps (f := fun s : Net N => s j) fun s y t hy hst => netStep_of_ne hst (hlast y hy).symm
    rw [hkeep, Function.update_self]
  rw [htj] at ha ⊢
  obtain ⟨q, hq⟩ := Option.isSome_iff_exists.mp hheard
  -- the request the node heard
  have hqreq : q.request = req := by
    obtain ⟨_, request, hring, rfl⟩ := request_of_deliver (hn.framed i) hq
    rw [hreq.ringRequest (request_of_sends hsends), Option.some.injEq] at hring
    exact hring.symm
  have halike : (u j).Alike (Input.entry host (u j) ⟨now, .frame (u i).tx.rapsFrame p⟩) :=
    alike_entry _ _
  rcases handle_entry (hn.yielding j).coherent hhandle with ⟨hnone, _⟩ | ⟨q', hq', hcases⟩
  · exact absurd (hq.symm.trans hnone) (by simp)
  · obtain rfl : q = q' := Option.some.inj (hq.symm.trans hq')
    rcases hcases with ⟨hn', rfl⟩ | ⟨_, rfl⟩
    · -- it would take it but for the duplicate filter
      have ha : (Input.entry host (u j) ⟨now, .frame (u i).tx.rapsFrame p⟩).accepts req = true := ha
      rw [halike.accepts_eq] at ha
      have hdupe : (u j).isDupe q.request q.port q.remoteNodeId = true ∨
          (u j).isImpossibleDupe q.request = true := by
        by_contra hnd
        simp only [not_or, Bool.not_eq_true] at hnd
        exact hn' ⟨hqreq ▸ ha, hnd.1, hnd.2⟩
      have hprev := Ring.prev_request_of_dupe hdupe
      show (Input.entry host (u j) ⟨now, .frame (u i).tx.rapsFrame p⟩).prev.request = req
      rw [halike.prev, hprev, hqreq]
    · exact hqreq

/-! ## A forced switch -/

/-- Nobody clears anything. -/
def NoClear (_ : Net N) (x : NetInput N) : Prop := ∀ i, x.event ≠ .clear i

/-- Every node has heard of the switch. -/
structure AllForced (s : Net N) : Prop where
  net : NetYielding s
  forced : ∀ i, (s i).state = .forcedSwitch

/-- Where all nodes uphold a switch, nothing else is on the air. -/
theorem request_of_upholds {s : Net N} (hf : ∀ i, (s i).Framed) {request : RapsRequest}
    {req heard : RingRequest} (hreq : SwitchHeardAs request heard)
    (hu : ∀ i, (s i).Upholds req request) {i j : Fin N} {now : UInt64} {p : PortId} {q : Request}
    (hsend : (s i).tx.isSendingRaps = true)
    (hq : Input.request host (s j) ⟨now, .frame (s i).tx.rapsFrame p⟩ = some q) :
    q.request = heard := by
  have hl : (s i).localRequest = req := by
    by_contra hl
    exact sending_ne_none hsend ((hu i).silent hl)
  obtain ⟨_, request', hring, rfl⟩ := request_of_deliver (hf i) hq
  rw [hreq.ringRequest (request_of_sends ((hu i).sends hl)), Option.some.injEq] at hring
  exact hring.symm

namespace AllForced

variable {s t : Net N}

theorem upholds (h : AllForced s) (i : Fin N) : (s i).Upholds .fs .fs :=
  (h.net.yielding i).upholds_fs (h.forced i)

/-- What a callback hands over does not end a forced switch. -/
theorem request_ne (h : AllForced s) {x : NetInput N} (hx : NoClear s x)
    (hen : x.event.enabled w s = true) {q : Request}
    (hq : Input.request host (s x.event.node) ⟨x.now, x.event.callback w s⟩ = some q) :
    q.request ≠ .clear ∧ q.request ≠ .rapsNr ∧ q.request ≠ .rapsNrRb := by
  obtain ⟨now, e⟩ := x
  cases e with
  | clear i => exact absurd rfl (hx i)
  | ms | fs | fail | recover =>
    cases hq
    simp [Request.onPort]
  | timer i =>
    simp only [Input.request, NetEvent.callback] at hq
    split at hq <;> cases hq
    simp [Request.bare]
  | deliver i j p =>
    rw [request_of_upholds h.net.framed (.inl ⟨rfl, rfl⟩) h.upholds hen hq]
    simp

theorem step (h : AllForced s) {x : NetInput N} (hx : NoClear s x)
    (hst : netStep host w s x = some t) : AllForced t := by
  obtain ⟨hen, r', rfl, _, ho⟩ := outcome_of_netStep (fun i => (h.net.yielding i).coherent) hst
  refine ⟨h.net.step hst, ?_⟩
  refine forall_update (P := fun _ r => r.state = .forcedSwitch) h.forced ?_
  have hprep : ((x.event.callback w s).prepare (s x.event.node)).state = .forcedSwitch :=
    (alike_prepare _ _).state.trans (h.forced x.event.node)
  cases ho with
  | still => exact hprep
  | @taken u q hq _ =>
    obtain ⟨hclear, hnr, hrb⟩ := h.request_ne hx hen hq
    exact Ring.effect_next_of_forcedSwitch hprep hclear hnr hrb

/-- A node that holds an FS heeds nothing but a CLEAR. -/
theorem holds (h : AllForced s) {x : NetInput N} (hx : NoClear s x)
    (hst : netStep host w s x = some t) {i : Fin N} (hl : (s i).localRequest = .fs) :
    (t i).localRequest = .fs ∧ (t i).prev = (s i).prev := by
  by_cases hi : i = x.event.node
  · subst hi
    obtain ⟨hen, r', rfl, _, ho⟩ := outcome_of_netStep (fun i => (h.net.yielding i).coherent) hst
    rw [Function.update_self]
    have ha := alike_prepare (s x.event.node) (x.event.callback w s)
    cases ho with
    | still => exact ⟨ha.localRequest.trans hl, ha.prev⟩
    | @taken u q hq ht =>
      have hclear := Ring.eq_clear_of_accepts ht.accepts (ha.localRequest.trans hl)
      exact absurd hclear (h.request_ne hx hen hq).1
  · rw [netStep_of_ne hst hi]
    exact ⟨hl, rfl⟩

end AllForced

/-- **A forced switch takes over.** Once each node holds an FS of its own or has heard one last, all
are in FORCED_SWITCH, exactly the ports of an FS are blocked, and only the nodes that hold one
transmit. So it stays, and each FS keeps its port, until somebody clears. -/
theorem forced_switch_takes_over {s t u : Net N} {es fs : List (NetInput N)}
    (hs : (network host w).Reachable s) (hr : (network host w).Run s es t)
    (hheard : ∀ i, (t i).localRequest = .fs ∨ LastHeard host w s es .fs i)
    (hu : ((network host w).restrict NoClear).Run t fs u) (i : Fin N) :
    (u i).state = .forcedSwitch ∧ (u i).Upholds .fs .fs ∧
      ((t i).localRequest = .fs → (u i).localRequest = .fs ∧ (u i).prev = (t i).prev) := by
  have hn := NetYielding.of_reachable (hs.run hr)
  have ht : AllForced t := by
    refine ⟨hn, fun i => ?_⟩
    by_cases hl : (t i).localRequest = .fs
    · exact ((hn.yielding i).dominant.fs hl).1
    · have ha := (hn.yielding i).coherent.accepts_rapsFs hl
      have hprev := ((hheard i).resolve_left hl).prev_request (.inl ⟨rfl, rfl⟩) hs hr ha
      exact (hn.yielding i).rapsFs hprev
  have hall : AllForced u ∧
      ((t i).localRequest = .fs → (u i).localRequest = .fs ∧ (u i).prev = (t i).prev) := by
    refine hu.invariant (I := fun u => AllForced u ∧
      ((t i).localRequest = .fs → (u i).localRequest = .fs ∧ (u i).prev = (t i).prev)) ?_
        ⟨ht, fun hl => ⟨hl, rfl⟩⟩
    intro u x v hI hst
    obtain ⟨hforced, hkept⟩ := hI
    obtain ⟨hx, hst⟩ := hst
    refine ⟨hforced.step hx hst, fun hl => ?_⟩
    obtain ⟨hlocal, hprev⟩ := hkept hl
    obtain ⟨hlocal', hprev'⟩ := hforced.holds hx hst hlocal
    exact ⟨hlocal', hprev'.trans hprev⟩
  exact ⟨hall.1.forced i, hall.1.upholds i, hall.2⟩

/-! ## A failed link -/

/-- No link but `l` fails. -/
def FailsOnly (l : Fin N) (_ : Net N) (x : NetInput N) : Prop :=
  ∀ l' e, x.event = .fail l' e → l' = l

/-- Timers expire, messages arrive, an end of `l` fails once more, and nothing else happens. -/
def Unattended (l : Fin N) (_ : Net N) (x : NetInput N) : Prop :=
  match x.event with
  | .timer _ | .deliver _ _ _ => True
  | .fail l' _ => l' = l
  | _ => False

/-- The node has no end of the link. -/
def Beside (l i : Fin N) : Prop := ∀ e : LinkEnd, i ≠ e.node l

theorem settled_outcome {r r' : Ring UInt64} {i : Input} (h : Settled r) (hc : Coherent r)
    (hfail : ∀ p, i.event ≠ .command (.fail p)) (ho : Outcome host r i r') : Settled r' := by
  have ha := alike_prepare r i.event
  have hprep : Settled (i.event.prepare r) := by
    refine h.congr ha fun p => ?_
    obtain ⟨now, e⟩ := i
    cases e with
    | timer | frame => rfl
    | command c =>
      cases c with
      | status | clear | ms | fs => rfl
      | fail q => exact absurd rfl (hfail q)
      | recover q =>
        have hp := h.healthy p
        cases p <;> cases q <;> first | rfl | exact hp.symm
  have htimers : ∀ {r : Ring UInt64} {t : Timers UInt64}, Settled r → Settled (withTimers r t) :=
    fun h => h.congr (alike_withTimers _ _) fun p => by rw [withTimers_port]
  cases ho with
  | still => exact htimers hprep
  | @taken t q _ ht =>
    exact htimers (hprep.advance (hc.congr ha) ht.accepts q.remoteNodeId_isSome)

/-- What is left of the ring of the failure of one link: no other node has ever failed, and an SF is
of an end of the link. -/
structure OneFailure (w : Wiring N) (l : Fin N) (s : Net N) : Prop where
  net : NetYielding s
  settled : ∀ i, Beside l i → Settled (s i)
  ends : ∀ i, (s i).localRequest = .sf →
    ∃ e : LinkEnd, i = e.node l ∧ (s i).prev.port = some (w.port l e)

namespace OneFailure

variable {l : Fin N} {s t : Net N}

theorem step (h : OneFailure w l s) {x : NetInput N} (hx : FailsOnly l s x)
    (hst : netStep host w s x = some t) : OneFailure w l t := by
  obtain ⟨_, r', rfl, _, ho⟩ := outcome_of_netStep (fun i => (h.net.yielding i).coherent) hst
  have ha := alike_prepare (s x.event.node) (x.event.callback w s)
  refine ⟨h.net.step hst, ?_, ?_⟩
  · refine forall_update (P := fun i r => Beside l i → Settled r) h.settled fun hb => ?_
    refine settled_outcome (h.settled _ hb) (h.net.yielding _).coherent ?_ ho
    intro p hfail
    obtain ⟨now, e⟩ := x
    cases e with
    | fail l' e =>
      obtain rfl := hx l' e rfl
      exact hb e rfl
    | clear | ms | fs | recover | timer | deliver => cases hfail
  · refine forall_update (P := fun i r => r.localRequest = .sf →
      ∃ e : LinkEnd, i = e.node l ∧ r.prev.port = some (w.port l e)) h.ends fun hl => ?_
    cases ho with
    | still =>
      obtain ⟨e, he, hport⟩ := h.ends _ (ha.localRequest.symm.trans hl)
      exact ⟨e, he, (congrArg PrevRequest.port ha.prev).trans hport⟩
    | @taken u q hq _ =>
      have hsf : q.request = .sf := by
        have hret : q.request.retained = .sf := hl
        cases hreq : q.request <;> simp [hreq, RingRequest.retained] at hret ⊢
      obtain ⟨now, e⟩ := x
      cases e with
      | fail l' e =>
        obtain rfl := hx l' e rfl
        cases hq
        exact ⟨e, rfl, rfl⟩
      | clear | ms | fs | recover =>
        cases hq
        cases hsf
      | timer =>
        simp only [Input.request, NetEvent.callback] at hq
        split at hq <;> cases hq
        cases hsf
      | deliver i j p =>
        have hraps := isRaps_of_request hq
        rw [hsf] at hraps
        cases hraps

theorem assembled (h : Assembled s) : OneFailure w l s := by
  refine ⟨.assembled h, ?_, ?_⟩
  · intro i _
    obtain ⟨now, id, role, hi⟩ := (h.created i).exists_started
    rw [hi]
    refine Settled.started (fun p => ?_) rfl (blank_ringBlank role id).prev_request
    show ((Ring.started _ now).port p).isFailed = false
    rw [Ring.started_port]
    exact congrArg Port.isFailed ((blank_ringBlank role id).port p)
  · intro i hl
    obtain ⟨now, id, role, hi⟩ := (h.created i).exists_started
    rw [hi] at hl
    cases hl

theorem of_reachable (h : ((network host w).restrict (FailsOnly l)).Reachable s) :
    OneFailure w l s := by
  refine h.invariant (I := OneFailure w l) (fun _ => assembled) ?_
  intro s x t _ hs hst
  exact hs.step hst.1 hst.2

end OneFailure

/-- The ring has switched to the failed link. -/
structure Protected (w : Wiring N) (l : Fin N) (s : Net N) : Prop where
  net : NetYielding s
  ends : ∀ e : LinkEnd, (s (e.node l)).localRequest = .sf ∧
    (s (e.node l)).prev.port = some (w.port l e)
  beside : ∀ i, Beside l i → Subdued (s i)

namespace Protected

variable {l : Fin N} {s t : Net N}

theorem cases_of_node (l i : Fin N) : (∃ e : LinkEnd, i = e.node l) ∨ Beside l i := by
  by_cases h : ∃ e : LinkEnd, i = e.node l
  · exact .inl h
  · exact .inr fun e he => h ⟨e, he⟩

theorem upholds (h : Protected w l s) (i : Fin N) : (s i).Upholds .sf .sf := by
  rcases cases_of_node l i with ⟨e, rfl⟩ | hb
  · exact (h.net.yielding _).upholds_sf (h.ends e).1
  · have hsub := h.beside i hb
    exact hsub.withdrawn.upholds (by simp [hsub.localRequest]) .sf

/-- What is left to happen: a timer, the SF of the link, and its failure once more. -/
theorem request_cases (h : Protected w l s) {x : NetInput N} (hx : Unattended l s x)
    (hen : x.event.enabled w s = true) {q : Request}
    (hq : Input.request host (s x.event.node) ⟨x.now, x.event.callback w s⟩ = some q) :
    (q.request = .rapsSf ∨ q.request = .wtrExpires) ∨
      q.request = .sf ∧ ∃ e : LinkEnd, x.event.node = e.node l := by
  obtain ⟨now, e⟩ := x
  cases e with
  | timer i =>
    simp only [Input.request, NetEvent.callback] at hq
    split at hq <;> cases hq
    exact .inl (.inr rfl)
  | deliver i j p =>
    exact .inl (.inl (request_of_upholds h.net.framed (.inr ⟨rfl, rfl⟩) h.upholds hen hq))
  | fail l' e =>
    obtain rfl : l' = l := hx
    cases hq
    exact .inr ⟨rfl, e, rfl⟩
  | clear | ms | fs | recover => exact hx.elim

theorem step (h : Protected w l s) {x : NetInput N} (hx : Unattended l s x)
    (hst : netStep host w s x = some t) : Protected w l t := by
  obtain ⟨hen, r', rfl, _, ho⟩ := outcome_of_netStep (fun i => (h.net.yielding i).coherent) hst
  have ha := alike_prepare (s x.event.node) (x.event.callback w s)
  refine ⟨h.net.step hst, ?_, ?_⟩
  · intro e
    refine forall_update (P := fun i r => i = e.node l → r.localRequest = .sf ∧
      r.prev.port = some (w.port l e)) (fun i hi => hi ▸ h.ends e) ?_ (e.node l) rfl
    intro hi
    obtain ⟨hl, hport⟩ := hi ▸ h.ends e
    cases ho with
    | still => exact ⟨ha.localRequest.trans hl, (congrArg PrevRequest.port ha.prev).trans hport⟩
    | @taken u q hq ht =>
      -- with its SF retained the node heeds none of these
      have hl' := ha.localRequest.trans hl
      have hs := ((h.net.yielding _).congr ha).dominant.sf hl'
      have hacc := Ring.cases_of_accepts_of_sf ht.accepts hl' hs.1
      rcases h.request_cases hx hen hq with (hreq | hreq) | ⟨hreq, _⟩ <;> simp [hreq] at hacc
  · refine forall_update (P := fun i r => Beside l i → Subdued r) h.beside fun hb => ?_
    have hsub := h.beside _ hb
    have hprep : (x.event.callback w s).prepare (s x.event.node) = s x.event.node := by
      obtain ⟨now, e⟩ := x
      cases e with
      | timer | deliver => rfl
      | fail l' e =>
        obtain rfl : l' = l := hx
        exact absurd rfl (hb e)
      | clear | ms | fs | recover => exact hx.elim
    have htimers : ∀ {r : Ring UInt64} {t : Timers UInt64}, Subdued r → Subdued (withTimers r t) :=
      fun h => h.congr (alike_withTimers _ _) fun p => by rw [withTimers_port]
    cases ho with
    | still =>
      rw [hprep]
      exact htimers hsub
    | @taken u q hq _ =>
      rw [hprep]
      rcases h.request_cases hx hen hq with hreq | ⟨_, e, he⟩
      · exact htimers (hsub.advance (h.net.yielding _).coherent.not_init hreq)
      · exact absurd he (hb e)

end Protected

end network

/-- The owner of the three nodes. -/
def firstNode : Fin 3 := ⟨0, Nat.succ_pos 2⟩

def middleNode : Fin 3 := ⟨1, Nat.succ_lt_succ (Nat.succ_pos 1)⟩

theorem cases_of_three (i : Fin 3) : i = firstNode ∨ i = middleNode ∨ i = lastNode := by
  match i with
  | ⟨0, _⟩ => exact .inl rfl
  | ⟨1, _⟩ => exact .inr (.inl rfl)
  | ⟨2, _⟩ => exact .inr (.inr rfl)

/-- The last node is told to switch, and the others hear of it. -/
def forcedRun : List (NetInput 3) :=
  [⟨1000, .fs lastNode .port1⟩, ⟨2000, .deliver lastNode firstNode .port0⟩,
    ⟨2000, .deliver lastNode middleNode .port1⟩]

set_option maxRecDepth 20000 in
theorem forced_switch_takes_over_threeNodes :
    ∃ t u, Lts.exec (netStep .little threeWiring) threeNodes forcedRun = some t ∧
      netStep .little threeWiring t ⟨3000, .timer firstNode⟩ = some u ∧
      ∀ i, (u i).state = .forcedSwitch ∧ (u i).Upholds .fs .fs := by
  have hsteps : ∃ a b t u,
      netStep .little threeWiring threeNodes ⟨1000, .fs lastNode .port1⟩ = some a ∧
      netStep .little threeWiring a ⟨2000, .deliver lastNode firstNode .port0⟩ = some b ∧
      netStep .little threeWiring b ⟨2000, .deliver lastNode middleNode .port1⟩ = some t ∧
      netStep .little threeWiring t ⟨3000, .timer firstNode⟩ = some u ∧
      (a lastNode).sending = some (.fs, 0) ∧ (b lastNode).sending = some (.fs, 0) ∧
      (t lastNode).localRequest = .fs ∧
      (Input.request .little (a firstNode)
        ⟨2000, .frame (a lastNode).tx.rapsFrame .port0⟩).isSome = true ∧
      (Input.request .little (b middleNode)
        ⟨2000, .frame (b lastNode).tx.rapsFrame .port1⟩).isSome = true :=
    ⟨_, _, _, _, rfl, rfl, rfl, rfl, rfl, rfl, rfl, rfl, rfl⟩
  obtain ⟨a, b, t, u, ha, hb, ht, hu, hsendA, hsendB, hlocal, hfirst, hmiddle⟩ := hsteps
  have hs : (network .little threeWiring).Reachable threeNodes := .init assembled_threeNodes
  have hra : (network .little threeWiring).Run threeNodes ([] ++ [⟨1000, .fs lastNode .port1⟩]) a :=
    Lts.Run.nil.snoc ha
  have hrb := hra.snoc hb
  have hrt : (network .little threeWiring).Run threeNodes forcedRun t := hrb.snoc ht
  refine ⟨t, u, Lts.exec_of_run hrt, hu, fun i => ?_⟩
  have htimer : ((network .little threeWiring).restrict NoClear).Run t
      ([] ++ [⟨3000, .timer firstNode⟩]) u := by
    refine Lts.Run.nil.snoc ⟨?_, hu⟩
    intro i h
    cases h
  have hheard : ∀ i, (t i).localRequest = .fs ∨
      LastHeard .little threeWiring threeNodes forcedRun .fs i := by
    intro i
    rcases cases_of_three i with rfl | rfl | rfl
    · refine .inr (lastHeard_of_run [⟨2000, .deliver lastNode middleNode .port1⟩] hra
        ⟨0, hsendA⟩ hfirst ?_)
      intro y hy
      cases hy with
      | head => simp [NetEvent.node, firstNode, middleNode]
      | tail _ hy => cases hy
    · refine .inr (lastHeard_of_run [] hrb ⟨0, hsendB⟩ hmiddle ?_)
      intro y hy
      cases hy
    · exact .inl hlocal
  obtain ⟨hforced, hupholds, _⟩ := forced_switch_takes_over hs hrt hheard htimer i
  exact ⟨hforced, hupholds⟩

end Erps.Sim
