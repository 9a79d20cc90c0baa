import Erps.Kernel.Forward
import Erps.Ring.Announce
import Erps.Ring.Previous

/-!
# Requests of other nodes

R-APS messages are repeated every few seconds, so a node sees most of them more than once, and the
duplicate filter of `ring_fsm` swallows all but the first. It compares a request with the previous
one and does not ask whether the node has changed state since. `dedup_transparent_iff` says when that
is safe: a dropped duplicate would have had no effect, except in the four situations of
`RepeatMatters`, each of which is a row that the first message led *to*.

`rapsSf_protects_iff` is about one message in particular: an accepted R-APS(SF) ends in PROTECTION
with the ports open and nothing on the air, unless it finds the node in MANUAL_SWITCH (row 35).
-/

set_option autoImplicit false

namespace Erps.Kernel

open Bytes

variable {r : Ring Int32}

/-! ## What a request of another node has left behind -/

theorem Settled.of_init (h : requests.init r) : Settled r := by
  obtain ⟨now, ringId, rplOwner, rplNeighbour, version, rapsVid, isRevertive, rfl⟩ := h
  have hb := blank_ringBlank ringId rplOwner rplNeighbour
  rw [erRingCreate_eq]
  have hs : Settled ((ringBlank ringId rplOwner rplNeighbour).started now) := by
    refine Settled.started ?_ rfl hb.prev_request
    intro p
    rw [Ring.started_port, hb.port]
  exact Settled.started hs.healthy rfl hb.prev_request

theorem Settled.handle (hs : Settled r) (hd : Sound r) (c : Call) : Settled (handle r c) := by
  rcases handle_cases hd.coherent c with heq | ⟨ha, heq⟩
  · rw [heq]
    exact hs
  · rw [heq]
    exact hs.advance hd.coherent ha c.req.remoteNodeId_isSome

theorem Settled.of_reachable (h : requests.Reachable r) : Settled r := by
  refine h.invariant (I := Settled) (fun _ => Settled.of_init) ?_
  intro s c t hr hs hst
  rw [hst]
  exact Settled.handle hs (.of_reachable hr) c

/-! ## The node and its frames -/

/-- What reaches the ring: a call of `ring_process_request`, or a frame that goes through
`process_raps_frame`. -/
inductive Arrival
  | call (c : Call)
  | frame (now : Int32) (data : List UInt8) (origin : PortId)

/-- The ring after an arrival. -/
def receive (host : ByteOrder) (hz : Int32) (r : Ring Int32) : Arrival → Ring Int32
  | .call c => handle r c
  | .frame now data origin => processRapsFrame host hz now r data origin

/-- The kernel node with everything that can reach it. A frame is at most one more call, but it can
also clear the guard timer. -/
def arrivals (host : ByteOrder) (hz : Int32) : Lts (Ring Int32) Arrival where
  init := requests.init
  step r a r' := r' = receive host hz r a

theorem Settled.stopGuardTimer (h : Settled r) : Settled r.stopGuardTimer :=
  h.congr r.alike_stopGuardTimer fun p => by cases p <;> rfl

theorem receive_sound {host : ByteOrder} {hz : Int32} (hd : Sound r) (hs : Settled r)
    (a : Arrival) : Sound (receive host hz r a) ∧ Settled (receive host hz r a) := by
  cases a with
  | call c => exact ⟨hd.handle c, Settled.handle hs hd c⟩
  | frame now data origin =>
    show Sound (processRapsFrame host hz now r data origin) ∧
      Settled (processRapsFrame host hz now r data origin)
    rcases processRapsFrame_cases host hz now r data origin with h | h | ⟨c, h | h⟩
    · rw [h]
      exact ⟨hd, hs⟩
    · rw [h]
      exact ⟨hd.stopGuardTimer, Settled.stopGuardTimer hs⟩
    · rw [h]
      exact ⟨hd.handle c, Settled.handle hs hd c⟩
    · rw [h]
      exact ⟨hd.stopGuardTimer.handle c,
        Settled.handle (Settled.stopGuardTimer hs) hd.stopGuardTimer c⟩

theorem arrivals_sound {host : ByteOrder} {hz : Int32} (h : (arrivals host hz).Reachable r) :
    Sound r ∧ Settled r := by
  refine h.invariant (I := fun r => Sound r ∧ Settled r) ?_ ?_
  · intro s hs
    exact ⟨Sound.init hs, Settled.of_init hs⟩
  · intro s a t _ hs hst
    rw [hst]
    exact receive_sound hs.1 hs.2 a

/-! ## Duplicates -/

/-- `ring_fsm` without the early return on `dupe`. -/
def ringFsm0 (r : Ring Int32) (now : Int32) (req : RingRequest) (port : Option PortId)
    (remote : Option NodeId) : Ring Int32 :=
  if r.isImpossibleDupe req then r
  else (r.saveRequest req port remote).fsmRow now req port remote

/-- Equal in everything a node shows: its state, its blocks, its message, and which of the two
timers of the RPL owner run. -/
structure Unmoved (r r' : Ring Int32) : Prop where
  state : r'.state = r.state
  blocked : ∀ p, (r'.port p).isBlocked = (r.port p).isBlocked
  sending : r'.sending = r.sending
  wtr : r'.timers.wtr.active = r.timers.wtr.active
  wtb : r'.timers.wtb.active = r.timers.wtb.active

/-- The node is transmitting, or one of its ports is blocked. -/
def Standing (r : Ring Int32) : Prop := r.HasBlock ∨ r.sending ≠ none

/-- **The repeats that matter.** The row of the repeated request is not the one its first copy
took. -/
inductive RepeatMatters (r : Ring Int32) (q : Request) : Prop
  /-- rows 28, 42 and 56, then row 70 -/
  | rapsNrRb_pending (hq : q.request = .rapsNrRb) (hs : r.state = .pending)
  /-- row 36, then row 64 -/
  | rapsMs_pending (hq : q.request = .rapsMs) (hs : r.state = .pending)
  /-- rows 43 and 57, then row 71 -/
  | rapsNr_pending (hq : q.request = .rapsNr) (hs : r.state = .pending)
      (hb : r.isBelow q.remoteNodeId = true) (hst : Standing r)
  /-- row 70 at the RPL owner, then row 14 -/
  | rapsNrRb_idle (hq : q.request = .rapsNrRb) (hs : r.state = .idle)
      (ho : r.cfg.isRplOwner = true) (hb : (r.port r.rpl.other).isBlocked = true)

/-- What a row shows of its effect. -/
theorem unmoved_advance_iff (now : Int32) (req : RingRequest) (port : Option PortId)
    (remote : Option NodeId) :
    Unmoved r (r.advance now req port remote) ↔
      (r.effect req port remote).next = r.state ∧
      (∀ p, (r.effect req port remote).ports.blocked r p = (r.port p).isBlocked) ∧
      (r.effect req port remote).tx.sending r.sending = r.sending ∧
      ((r.effect req port remote).wtr.apply now r.timers.wtr).active = r.timers.wtr.active ∧
      ((r.effect req port remote).wtb.apply now r.timers.wtb).active = r.timers.wtb.active := by
  constructor
  · intro h
    refine ⟨h.state, fun p => ?_, ?_, h.wtr, h.wtb⟩
    · have hp := h.blocked p
      rwa [Ring.advance_port] at hp
    · have hs := h.sending
      rwa [Ring.advance_sending] at hs
  · intro h
    obtain ⟨hn, hp, ht, hw, hb⟩ := h
    refine ⟨hn, fun p => ?_, ?_, hw, hb⟩
    · rw [Ring.advance_port]
      exact hp p
    · rw [Ring.advance_sending]
      exact ht

theorem unmoved_of_stay (now : Int32) {req : RingRequest} {port : Option PortId}
    {remote : Option NodeId} (h : r.effect req port remote = r.stay) :
    Unmoved r (r.advance now req port remote) := by
  rw [unmoved_advance_iff, h]
  exact ⟨rfl, fun _ => rfl, rfl, rfl, rfl⟩

/-- A row that opens ports and stops a transmission has nothing to do on a withdrawn node. -/
theorem unmoved_of_withdrawn (hh : r.Healthy) (hw : r.Withdrawn) (now : Int32) {req : RingRequest}
    {port : Option PortId} {remote : Option NodeId}
    (h : r.effect req port remote = ⟨.openNonfailed, .stop, r.state, .keep, .keep, .keep⟩) :
    Unmoved r (r.advance now req port remote) := by
  rw [unmoved_advance_iff, h]
  refine ⟨rfl, fun p => ?_, hw.silent.symm, rfl, rfl⟩
  show ((r.port p).isFailed && (r.port p).isBlocked) = (r.port p).isBlocked
  rw [hh p, hw.isOpen p]
  rfl

theorem withdrawn_of_not_standing (h : ¬ Standing r) : r.Withdrawn := by
  constructor
  · intro p
    apply Bool.eq_false_iff.mpr
    intro hp
    exact h (.inl ⟨p, hp⟩)
  · by_contra hsend
    exact h (.inr hsend)

/-- Row 14 has nothing to do once the port it opens is open and the message is the owner's. -/
theorem unmoved_rapsNrRb_idle (hs : r.state = .idle)
    (hopen : (r.port (ringOtherPort r.cfg.rplPort)).isBlocked = false)
    (hsend : r.cfg.isRplOwner = false → r.sending = none) (now : Int32) (port : Option PortId)
    (remote : Option NodeId) : Unmoved r (r.advance now .rapsNrRb port remote) := by
  rw [unmoved_advance_iff, Ring.effect_rapsNrRb_idle _ _ hs]
  refine ⟨hs.symm, fun p => ?_, ?_, rfl, rfl⟩
  · show (!decide (p = ringOtherPort r.cfg.rplPort) && (r.port p).isBlocked) = _
    by_cases hp : p = ringOtherPort r.cfg.rplPort
    · rw [hp, hopen]
      simp
    · simp [hp]
  · cases hown : r.cfg.isRplOwner with
    | false =>
      rw [hsend hown]
      rfl
    | true => rfl

/-- A duplicate is an R-APS request of the previous sender, or a local request that was repeated. -/
theorem dupe_cases {q : Request} (hd : r.isDupe q.request q.port q.remoteNodeId = true) :
    r.prev.request = q.request ∧ (q.request.retained = q.request ∨ q.request = .clearSf ∨
      (q.request.isRaps = true ∧ q.remoteNodeId = some r.prev.remoteNodeId)) := by
  refine ⟨Ring.prev_request_of_dupe (.inl hd), ?_⟩
  cases hq : q.request with
  | ms | sf | fs => exact .inl rfl
  | clearSf => exact .inr (.inl rfl)
  | rapsNr | rapsNrRb | rapsMs | rapsSf | rapsFs =>
    refine .inr (.inr ⟨rfl, ?_⟩)
    obtain ⟨id, hid⟩ := Option.isSome_iff_exists.mp (q.remoteNodeId_isSome (by rw [hq]; rfl))
    simp only [Ring.isDupe, hq, hid, Bool.and_eq_true, beq_iff_eq,
      NodeId.memcmp_eq_zero_iff] at hd
    rw [hid, hd.2]
  | invalid | wtbRunning | wtbExpires | wtrRunning | wtrExpires | clear =>
    simp [Ring.isDupe, hq] at hd

/-- Outside the four situations the row of a duplicate finds its work done. -/
theorem unmoved_of_dupe (hc : Coherent r) (hs : Settled r) {q : Request}
    (ha : r.accepts q.request = true)
    (hd : r.isDupe q.request q.port q.remoteNodeId = true) (hn : ¬ RepeatMatters r q)
    (now : Int32) : Unmoved r (r.advance now q.request q.port q.remoteNodeId) := by
  obtain ⟨hprev, hkind⟩ := dupe_cases hd
  cases hq : q.request with
  | ms | sf | fs => exact absurd hprev (hc.prev_request_ne ha (by rw [hq]; rfl))
  | invalid | wtbRunning | wtbExpires | wtrRunning | wtrExpires | clear =>
    simp [Ring.isDupe, hq] at hd
  | clearSf =>
    have hne := hs.clearSf (hprev.trans hq)
    apply unmoved_of_stay
    cases hst : r.state <;> simp [Ring.effect, hst] at hne ⊢
  | rapsFs =>
    apply unmoved_of_stay
    simp [Ring.effect, hs.rapsFs (hprev.trans hq)]
  | rapsSf =>
    rcases hs.rapsSf (hprev.trans hq) with hst | hst | ⟨hst, hw⟩
    · exact unmoved_of_stay now (by simp [Ring.effect, hst])
    · exact unmoved_of_stay now (by simp [Ring.effect, hst])
    · exact unmoved_of_withdrawn hs.healthy hw now (by simp [Ring.effect, Ring.withdraw, hst])
  | rapsMs =>
    obtain ⟨hidle, hopen⟩ := hs.rapsMs (hprev.trans hq)
    apply unmoved_of_stay
    cases hst : r.state with
    | init => exact absurd hst hc.not_init
    | idle => exact absurd hst hidle
    | pending => exact absurd (.rapsMs_pending hq hst) hn
    | manualSwitch => simp [Ring.effect, hst, Ring.open_iff_anyBlocked.mp (hopen hst)]
    | protection | forcedSwitch => simp [Ring.effect, hst]
  | rapsNrRb =>
    rcases hs.rapsNrRb (hprev.trans hq) with hst | ⟨hst, hleft⟩
    · exact absurd (.rapsNrRb_pending hq hst) hn
    · have hopen : (r.port (ringOtherPort r.cfg.rplPort)).isBlocked = false := by
        cases hown : r.cfg.isRplOwner with
        | false => exact (hleft hown).1
        | true =>
          rw [Ring.ringOtherPort_rplPort hc.rplSet hown]
          apply Bool.eq_false_iff.mpr
          intro hb
          exact hn (.rapsNrRb_idle hq hst hown hb)
      exact unmoved_rapsNrRb_idle hst hopen (fun hown => (hleft hown).2) now _ _
  | rapsNr =>
    have hremote : q.remoteNodeId = some r.prev.remoteNodeId := by
      rcases hkind with h | h | ⟨_, h⟩
      · simp [hq, RingRequest.retained] at h
      · simp [hq] at h
      · exact h
    rcases hs.rapsNr (hprev.trans hq) with hst | ⟨hst, hleft⟩
    · cases hb : r.isBelow q.remoteNodeId with
      | false => exact unmoved_of_stay now (by simp [Ring.effect, hst, hb])
      | true =>
        have hw : r.Withdrawn :=
          withdrawn_of_not_standing fun h => hn (.rapsNr_pending hq hst hb h)
        exact unmoved_of_withdrawn hs.healthy hw now (by simp [Ring.effect, hst, hb])
    · cases hrow : !r.cfg.isRplOwner && !r.cfg.isRplNeighbour && r.isBelow q.remoteNodeId with
      | false => exact unmoved_of_stay now (by simp [Ring.effect, hst, hrow])
      | true =>
        have hrow' := hrow
        simp only [Bool.and_eq_true, Bool.not_eq_true'] at hrow'
        obtain ⟨⟨hown, hnb⟩, hb⟩ := hrow'
        rw [hremote] at hb
        exact unmoved_of_withdrawn hs.healthy (hleft hown hnb hb) now
          (by simp [Ring.effect, hst, hrow])

/-- In the four situations it does not. -/
theorem not_unmoved_of_repeatMatters (hc : Coherent r) (hs : Settled r) {q : Request}
    (hm : RepeatMatters r q) (now : Int32) :
    ¬ Unmoved r (r.advance now q.request q.port q.remoteNodeId) := by
  intro hu
  rw [unmoved_advance_iff] at hu
  obtain ⟨hnext, hblocked, hsend, _, _⟩ := hu
  cases hm with
  | rapsNrRb_pending hq hst =>
    cases hnb : r.cfg.isRplNeighbour <;> cases hown : r.cfg.isRplOwner <;>
      simp [Ring.effect, hq, hst, hnb, hown] at hnext
  | rapsMs_pending hq hst => simp [Ring.effect, hq, hst, Ring.withdraw] at hnext
  | rapsNr_pending hq hst hb hstand =>
    rcases hstand with ⟨p, hp⟩ | hne
    · have hp' := hblocked p
      simp [Ring.effect, hq, hst, hb, PortEffect.blocked, hs.healthy p, hp] at hp'
    · simp only [Ring.effect, hq, hst, hb, if_true, TxEffect.sending] at hsend
      exact hne hsend.symm
  | rapsNrRb_idle hq hst hown hb =>
    have hp := hblocked r.rpl.other
    rw [hq, Ring.effect_rapsNrRb_idle _ _ hst, Ring.ringOtherPort_rplPort hc.rplSet hown, hb] at hp
    simp [PortEffect.blocked] at hp

/-- Without the early return a duplicate takes the row of its request. -/
theorem ringFsm0_eq (hc : Coherent r) {c : Call} {r₁ : Ring Int32}
    (hf : r.filterRequest c.req.request = .pass r₁)
    (hd : r₁.isDupe c.req.request c.req.port c.req.remoteNodeId = true) :
    r.accepts c.req.request = true ∧
      r.isDupe c.req.request c.req.port c.req.remoteNodeId = true ∧
      ringFsm0 r₁ c.now c.req.request c.req.port c.req.remoteNodeId =
        r.advance c.now c.req.request c.req.port c.req.remoteNodeId := by
  rw [Ring.filterRequest_eq] at hf
  split at hf
  · rename_i ha
    cases hf
    refine ⟨ha, hd, ?_⟩
    have himp : r.isImpossibleDupe c.req.request = false := by
      cases hq : c.req.request <;> simp [Ring.isDupe, Ring.isImpossibleDupe, hq] at hd ⊢
    have himp' : Ring.isImpossibleDupe { r with localRequest := c.req.request.retained }
        c.req.request = false := himp
    unfold ringFsm0
    rw [himp', if_neg (by simp)]
    exact r.fsmRow_recorded c.now hc.not_init c.req.port_isSome hc.rplSet
  · cases hf

/-- **Duplicate suppression.** Processing a dropped duplicate would have changed nothing, exactly
outside the four situations. -/
theorem dedup_transparent_iff {host : ByteOrder} {hz : Int32}
    (hr : (arrivals host hz).Reachable r) {c : Call} {r₁ : Ring Int32}
    (hf : r.filterRequest c.req.request = .pass r₁)
    (hd : r₁.isDupe c.req.request c.req.port c.req.remoteNodeId = true) :
    Unmoved r (ringFsm0 r₁ c.now c.req.request c.req.port c.req.remoteNodeId) ↔
      ¬ RepeatMatters r c.req := by
  obtain ⟨⟨hc, _⟩, hs⟩ := arrivals_sound hr
  obtain ⟨ha, hd', heq⟩ := ringFsm0_eq hc hf hd
  rw [heq]
  constructor
  · intro hu hm
    exact not_unmoved_of_repeatMatters hc hs hm c.now hu
  · intro hn
    exact unmoved_of_dupe hc hs ha hd' hn c.now

/-- An R-APS(SF) and its repeat. -/
theorem dedup_transparent_plainNode :
    Unmoved (handle plainNode (.at0 (.fromNode .rapsSf .port0 node2)))
      (ringFsm0 (handle plainNode (.at0 (.fromNode .rapsSf .port0 node2))) 0 .rapsSf (some .port1)
        (some node2)) := by
  have h₀ : (arrivals .little 1000).Reachable plainNode := .init init_plainNode
  have h₁ : (arrivals .little 1000).Reachable
      (handle plainNode (.at0 (.fromNode .rapsSf .port0 node2))) :=
    h₀.step (e := .call (.at0 (.fromNode .rapsSf .port0 node2))) rfl
  refine (dedup_transparent_iff h₁ (c := .at0 (.fromNode .rapsSf .port1 node2)) rfl rfl).mpr ?_
  intro hm
  cases hm with
  | rapsNrRb_pending hq | rapsMs_pending hq | rapsNr_pending hq | rapsNrRb_idle hq => cases hq

/-- R-APS(SF), R-APS(NR,RB), and the NR,RB again: the node stays in PENDING, where row 70 would have
taken it to IDLE. -/
theorem dedup_transparent_counterexample :
    ¬ ∀ (host : ByteOrder) (hz : Int32) (r r₁ : Ring Int32) (c : Call),
      (arrivals host hz).Reachable r → r.filterRequest c.req.request = .pass r₁ →
      r₁.isDupe c.req.request c.req.port c.req.remoteNodeId = true →
      Unmoved r (ringFsm0 r₁ c.now c.req.request c.req.port c.req.remoteNodeId) := by
  intro h
  have h₀ : (arrivals .little 1000).Reachable plainNode := .init init_plainNode
  have h₁ : (arrivals .little 1000).Reachable
      (handle plainNode (.at0 (.fromNode .rapsSf .port0 node2))) :=
    h₀.step (e := .call (.at0 (.fromNode .rapsSf .port0 node2))) rfl
  have h₂ : (arrivals .little 1000).Reachable
      (handle (handle plainNode (.at0 (.fromNode .rapsSf .port0 node2)))
        (.at0 (.fromNode .rapsNrRb .port0 node2))) :=
    h₁.step (e := .call (.at0 (.fromNode .rapsNrRb .port0 node2))) rfl
  have hu := h .little 1000 _ _ (.at0 (.fromNode .rapsNrRb .port0 node2)) h₂ rfl rfl
  cases hu.state

/-! ## R-APS(SF) -/

/-- In PROTECTION, silent, and open wherever a port works. -/
structure Protecting (r : Ring Int32) : Prop where
  state : r.state = .protection
  silent : r.tx.isSendingRaps = false
  isOpen : ∀ p, (r.port p).isFailed = false → (r.port p).isBlocked = false

theorem protecting_of_withdrawn (hs : r.state = .protection) (hw : r.Withdrawn) :
    Protecting r := by
  refine ⟨hs, ?_, fun p _ => hw.isOpen p⟩
  have hsilent := hw.silent
  unfold Ring.sending Transmission.sending at hsilent
  split at hsilent
  · cases hsilent
  · rename_i h
    exact Bool.eq_false_iff.mpr h

/-- An R-APS(SF) never finds itself as the previous request in IDLE or PENDING. -/
theorem takes_rapsSf (hs : Settled r) {q : Request} (hq : q.request = .rapsSf)
    (ha : r.accepts .rapsSf = true) (hst : r.state = .idle ∨ r.state = .pending) :
    r.Takes q.request q.port q.remoteNodeId := by
  have hprev : r.prev.request ≠ .rapsSf := by
    intro h
    rcases hs.rapsSf h with h' | h' | ⟨h', _⟩ <;> rcases hst with h'' | h'' <;>
      exact absurd (h'.symm.trans h'') (by simp)
  refine ⟨by rw [hq]; exact ha, ?_, by rw [hq]; rfl⟩
  apply Bool.eq_false_iff.mpr
  intro hd
  exact hprev ((Ring.prev_request_of_dupe (.inl hd)).trans hq)

/-- In PROTECTION an accepted R-APS(SF) finds nothing left to do. -/
theorem withdrawn_of_accepts_rapsSf (hs : Settled r) (ha : r.accepts .rapsSf = true)
    (hst : r.state = .protection) : r.Withdrawn := by
  refine hs.protection hst ?_
  intro hl
  have hreq := Ring.cases_of_accepts_of_sf ha hl hst
  simp at hreq

/-- Rows 7, 21 and 63. -/
theorem protecting_advance_rapsSf (hc : Coherent r) (hs : Settled r) (ha : r.accepts .rapsSf = true)
    (hf : r.state ≠ .forcedSwitch) (hm : r.state ≠ .manualSwitch) (now : Int32)
    (port : Option PortId) (remote : Option NodeId) :
    Protecting (r.advance now .rapsSf port remote) := by
  rcases Ring.effect_rapsSf_cases hc.not_init port remote with ⟨he, _⟩ | ⟨_, hst⟩ | ⟨he, hst⟩
  · refine protecting_of_withdrawn (by rw [Ring.advance_state, he]; rfl)
      (hs.healthy.withdrawn_advance (by rw [he]; rfl) (by rw [he]; rfl))
  · exact absurd hst hm
  · rcases hst with hst | hst
    · exact protecting_of_withdrawn (by rw [Ring.advance_state, he]; exact hst)
        ((withdrawn_of_accepts_rapsSf hs ha hst).advance_of_stay he)
    · exact absurd hst hf

/-- An R-APS(SF) that is dropped as a duplicate finds the node in PROTECTION. -/
theorem protection_of_not_takes (hc : Coherent r) (hs : Settled r) {q : Request}
    (hq : q.request = .rapsSf) (ha : r.accepts .rapsSf = true) (hf : r.state ≠ .forcedSwitch)
    (hm : r.state ≠ .manualSwitch) (hn : ¬ r.Takes q.request q.port q.remoteNodeId) :
    r.state = .protection := by
  cases hst : r.state with
  | init => exact absurd hst hc.not_init
  | idle => exact absurd (takes_rapsSf hs hq ha (.inl hst)) hn
  | pending => exact absurd (takes_rapsSf hs hq ha (.inr hst)) hn
  | protection => rfl
  | manualSwitch => exact absurd hst hm
  | forcedSwitch => exact absurd hst hf

/-- Row 35, and its duplicate. -/
theorem handle_rapsSf_manualSwitch (hc : Coherent r) {c : Call} (hq : c.req.request = .rapsSf)
    (hm : r.state = .manualSwitch) : (handle r c).state = .manualSwitch := by
  rcases handle_cases hc c with heq | ⟨_, heq⟩
  · rw [heq]
    exact hm
  · rw [heq, Ring.advance_state, hq]
    simp [Ring.effect, hm, Ring.withdraw]

/-- **A remote signal failure leads to protection**, from everywhere but MANUAL_SWITCH. -/
theorem rapsSf_protects_iff (hr : timedRequests.Reachable r) (hf : r.state ≠ .forcedSwitch)
    {c : Call} (hc : c.Accepted r .rapsSf) :
    Protecting (handle r c) ↔ r.state ≠ .manualSwitch := by
  obtain ⟨hq, ha⟩ := hc
  have hcoh := (Sound.of_reachable hr.of_restrict).coherent
  have hs := Settled.of_reachable hr.of_restrict
  constructor
  · intro hp hm
    have hst := hp.state.symm.trans (handle_rapsSf_manualSwitch hcoh hq hm)
    exact absurd hst (by simp)
  · intro hm
    have hp := processed hcoh c.now c.req
    show Protecting (ringProcessRequest r c.now c.req.request c.req.port c.req.remoteNodeId)
    rcases hcoh.processed_cases hp with ⟨hn, heq⟩ | ⟨_, heq⟩
    · rw [heq]
      have hst := protection_of_not_takes hcoh hs hq ha hf hm hn
      exact protecting_of_withdrawn hst (withdrawn_of_accepts_rapsSf hs ha hst)
    · rw [heq, hq]
      exact protecting_advance_rapsSf hcoh hs ha hf hm c.now c.req.port c.req.remoteNodeId

/-- An R-APS(SF) in PENDING. -/
theorem rapsSf_protects_plainNode :
    Protecting (handle plainNode (.at0 (.fromNode .rapsSf .port0 node2))) :=
  (rapsSf_protects_iff (c := .at0 (.fromNode .rapsSf .port0 node2)) (.init init_plainNode)
    (by simp [plainNode, configure, erRingCreate_eq]) ⟨rfl, rfl⟩).mpr
    (by simp [plainNode, configure, erRingCreate_eq])

/-- Row 35: the node goes on in MANUAL_SWITCH. -/
theorem rapsSf_protects_counterexample :
    ¬ ∀ (r : Ring Int32) (c : Call), timedRequests.Reachable r → r.state ≠ .forcedSwitch →
      c.Accepted r .rapsSf → Protecting (handle r c) := by
  intro h
  have h₀ : timedRequests.Reachable plainNode := .init init_plainNode
  have h₁ : timedRequests.Reachable (handle plainNode (.at0 (.onPort .ms .port0 rfl))) := by
    refine h₀.step (e := .at0 (.onPort .ms .port0 rfl)) ⟨⟨?_, ?_⟩, rfl⟩ <;>
    · intro h
      cases h
  have hp := h _ (.at0 (.fromNode .rapsSf .port0 node2)) h₁ (by decide) ⟨rfl, rfl⟩
  cases hp.state

end Erps.Kernel
