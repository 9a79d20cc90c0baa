import Erps.Kernel.Node

/-!
# Runs of the kernel node

What holds along every sequence of `ring_process_request` calls.

A retained FS or SF dominates: it holds its port and its message through everything but what clears
it (`dominates`). No run blocks both ports (`never_isolates`).

The retained request, the state and the message on the air agree about FS and SF in every reachable
state. About MS they do not. The priority filter retains an MS before the state machine has looked at
it, and the machine has a row for it in IDLE and PENDING only; and a CLEAR_SF, which outranks a
retained MS, clears it without the machine hearing of it (row 34). `agrees_exactly` says that these
two are all there is: the runs without them are the runs that agree throughout.
-/

set_option autoImplicit false

namespace Erps.Kernel

variable {r : Ring Int32}

/-! ## Dominance -/

/-- A retained FS or SF that names `p`. -/
structure Holds (r : Ring Int32) (retained : RingRequest) (p : PortId) : Prop where
  sound : Sound r
  localRequest : r.localRequest = retained
  prev_port : r.prev.port = some p

theorem Holds.forcedSwitch {p : PortId} (h : Holds r .fs p) :
    r.state = .forcedSwitch ∧ r.BlocksOnly p ∧ r.Sends .fs := by
  obtain ⟨hs, q, hq, hb, ht⟩ := h.sound.dominant.fs h.localRequest
  rw [h.prev_port, Option.some.injEq] at hq
  exact ⟨hs, hq ▸ hb, ht⟩

theorem Holds.protection {p : PortId} (h : Holds r .sf p) :
    r.state = .protection ∧ r.BlocksOnly p ∧ r.Sends .sf := by
  obtain ⟨hs, q, hq, hb, ht⟩ := h.sound.dominant.sf h.localRequest
  rw [h.prev_port, Option.some.injEq] at hq
  exact ⟨hs, hq ▸ hb, ht⟩

/-- An accepted FS or SF is held from its own call on. -/
theorem Holds.start (hs : Sound r) {c : Call} {request : RingRequest} {p : PortId}
    (ha : c.Accepted r request) (hret : request.retained = request)
    (hp : c.req.port = some p) : Holds (handle r c) request p := by
  obtain ⟨hreq, ha⟩ := ha
  have heq : handle r c = r.advance c.now c.req.request c.req.port c.req.remoteNodeId :=
    hs.coherent.eq_advance_of_local (by rw [hreq]; exact ha) (by rw [hreq]; exact hret)
      (processed hs.coherent c.now c.req)
  refine ⟨hs.handle c, ?_, ?_⟩
  · rw [heq, Ring.advance_localRequest, hreq, hret]
  · rw [heq, Ring.advance_prev_port, hp]

/-- It is held until a request passes the filter. -/
theorem Holds.handle {retained : RingRequest} {p : PortId} (h : Holds r retained p) {c : Call}
    (hn : r.accepts c.req.request = false) : Holds (handle r c) retained p := by
  rcases handle_cases h.sound.coherent c with heq | ⟨ha, _⟩
  · rw [heq]
    exact h
  · exact absurd hn (by simp [ha])

/-- The calls of a run that clears no forced switch. -/
def KeepsFs (r : Ring Int32) (c : Call) : Prop := ¬ c.Accepted r .clear

/-- The calls of a run that neither clears nor overrides a signal failure. -/
def KeepsSf (r : Ring Int32) (c : Call) : Prop :=
  c.req.request ≠ .clearSf ∧ ¬ c.Accepted r .fs ∧ c.req.request ≠ .rapsFs

theorem KeepsFs.not_accepts {p : PortId} (h : Holds r .fs p) {c : Call} (hk : KeepsFs r c) :
    r.accepts c.req.request = false := by
  apply Bool.eq_false_iff.mpr
  intro ha
  have hreq := Ring.eq_clear_of_accepts ha h.localRequest
  exact hk ⟨hreq, by rw [← hreq]; exact ha⟩

theorem KeepsSf.not_accepts {p : PortId} (h : Holds r .sf p) {c : Call} (hk : KeepsSf r c) :
    r.accepts c.req.request = false := by
  apply Bool.eq_false_iff.mpr
  intro ha
  rcases Ring.cases_of_accepts_of_sf ha h.localRequest h.protection.1 with hreq | hreq | hreq
  · exact hk.1 hreq
  · exact hk.2.2 hreq
  · exact hk.2.1 ⟨hreq, by rw [← hreq]; exact ha⟩

/-- **A local forced switch or signal failure dominates.** -/
theorem dominates {c : Call} {p : PortId} (hr : requests.Reachable r) (hp : c.req.port = some p) :
    (c.Accepted r .fs → ∀ es t, (requests.restrict KeepsFs).Run (handle r c) es t →
      t.state = .forcedSwitch ∧ t.BlocksOnly p ∧ t.Sends .fs) ∧
    (c.Accepted r .sf → ∀ es t, (requests.restrict KeepsSf).Run (handle r c) es t →
      t.state = .protection ∧ t.BlocksOnly p ∧ t.Sends .sf) := by
  have hs := Sound.of_reachable hr
  constructor
  · intro ha es t hrun
    have ht : Holds t .fs p := by
      refine hrun.invariant (I := fun t => Holds t .fs p) ?_ (.start hs ha rfl hp)
      intro s e _ h hst
      obtain ⟨hk, rfl⟩ := hst
      exact h.handle (hk.not_accepts h)
    exact ht.forcedSwitch
  · intro ha es t hrun
    have ht : Holds t .sf p := by
      refine hrun.invariant (I := fun t => Holds t .sf p) ?_ (.start hs ha rfl hp)
      intro s e _ h hst
      obtain ⟨hk, rfl⟩ := hst
      exact h.handle (hk.not_accepts h)
    exact ht.protection

/-- Calls at tick 0. -/
def Call.at0 (req : Request) : Call := ⟨0, req⟩

/-- A plain version 2 node. -/
def plainNode : Ring Int32 := configure (erRingCreate 0 1 erpsRplNone erpsRplNone) 2 2000 false

theorem init_plainNode : requests.init plainNode :=
  ⟨0, 1, erpsRplNone, erpsRplNone, 2, 2000, false, rfl⟩

/-- The node id `00:00:00:00:00:02`. -/
def node2 : NodeId := ⟨[0, 0, 0, 0, 0, 2], rfl⟩

/-- A forced switch outlives an R-APS(SF), a failure its forced switch. -/
theorem dominates_plainNode :
    (handle (handle plainNode (.at0 (.onPort .fs .port1 rfl)))
      (.at0 (.fromNode .rapsSf .port0 node2))).state = .forcedSwitch ∧
    (handle (handle plainNode (.at0 (.onPort .sf .port1 rfl)))
      (.at0 (.fromNode .rapsSf .port0 node2))).BlocksOnly .port1 := by
  have hfs := (dominates (c := .at0 (.onPort .fs .port1 rfl)) (p := .port1) (.init init_plainNode)
    rfl).1 ⟨rfl, by decide⟩
  have hsf := (dominates (c := .at0 (.onPort .sf .port1 rfl)) (p := .port1) (.init init_plainNode)
    rfl).2 ⟨rfl, by decide⟩
  refine ⟨(hfs [.at0 (.fromNode .rapsSf .port0 node2)] _ (Lts.Run.nil.snoc ⟨?_, rfl⟩)).1,
    (hsf [.at0 (.fromNode .rapsSf .port0 node2)] _ (Lts.Run.nil.snoc ⟨⟨?_, ?_, ?_⟩, rfl⟩)).2.1⟩
  · intro h
    obtain ⟨h, _⟩ := h
    cases h
  · simp [Call.at0, Request.fromNode]
  · intro h
    obtain ⟨h, _⟩ := h
    cases h
  · simp [Call.at0, Request.fromNode]

/-! ## Isolation -/

/-- **A node never isolates itself.** -/
theorem never_isolates (hr : requests.Reachable r) :
    ¬ ((r.port .port0).isBlocked = true ∧ (r.port .port1).isBlocked = true) := by
  intro h
  obtain ⟨h₀, h₁⟩ := h
  obtain ⟨p, hp⟩ := (Sound.of_reachable hr).dominant.not_both
  cases p with
  | port0 => exact absurd hp (by simp [h₀])
  | port1 => exact absurd hp (by simp [h₁])

/-- Row 45 on both ports in turn, after an R-APS(FS). -/
theorem never_isolates_plainNode :
    ¬ (((handle (handle plainNode (.at0 (.fromNode .rapsFs .port0 node2)))
        (.at0 (.onPort .fs .port1 rfl))).port .port0).isBlocked = true ∧
      ((handle (handle plainNode (.at0 (.fromNode .rapsFs .port0 node2)))
        (.at0 (.onPort .fs .port1 rfl))).port .port1).isBlocked = true) := by
  have h₁ : requests.Reachable (handle plainNode (.at0 (.fromNode .rapsFs .port0 node2))) :=
    (Lts.Reachable.init init_plainNode).step rfl
  exact never_isolates (h₁.step (e := .at0 (.onPort .fs .port1 rfl)) rfl)

/-! ## Agreement -/

/-- The retained request, the transmission and the state agree about one local request. -/
structure AgreesOn (r : Ring Int32) (retained : RingRequest) (request : RapsRequest)
    (state : RingState) : Prop where
  sends_iff : r.localRequest = retained ↔ r.Sends request
  state : r.localRequest = retained → r.state = state

/-- They agree about all three. -/
structure Agrees (r : Ring Int32) : Prop where
  fs : AgreesOn r .fs .fs .forcedSwitch
  ms : AgreesOn r .ms .ms .manualSwitch
  sf : AgreesOn r .sf .sf .protection

theorem Sound.agreesOn_fs (h : Sound r) : AgreesOn r .fs .fs .forcedSwitch where
  sends_iff := by
    constructor
    · intro hl
      obtain ⟨_, _, he⟩ := h.dominant.fs hl
      exact he.sends
    · exact h.dominant.sends_fs
  state hl := (h.dominant.fs hl).1

theorem Sound.agreesOn_sf (h : Sound r) : AgreesOn r .sf .sf .protection where
  sends_iff := by
    constructor
    · intro hl
      obtain ⟨_, _, he⟩ := h.dominant.sf hl
      exact he.sends
    · exact h.dominant.sends_sf
  state hl := (h.dominant.sf hl).1

/-- The timers whose expiry a call reports are running. -/
def TimerArmed (r : Ring Int32) (c : Call) : Prop :=
  (c.req.request = .wtrExpires → r.timers.wtr.active = true) ∧
    (c.req.request = .wtbExpires → r.timers.wtb.active = true)

/-- The kernel node whose timers expire only while they run. -/
def timedRequests : Lts (Ring Int32) Call := requests.restrict TimerArmed

/-- A call that neither retains an MS the state machine has no row for, nor clears one behind its
back. -/
def MsTakesEffect (r : Ring Int32) (c : Call) : Prop :=
  (c.Accepted r .ms → r.state = .idle ∨ r.state = .pending) ∧
    (c.req.request = .clearSf → r.localRequest ≠ .ms)

/-- The invariant of the runs that meet the condition: a retained MS is in force as well. -/
structure MsSound (r : Ring Int32) : Prop where
  sound : Sound r
  ms : r.localRequest = .ms → r.state = .manualSwitch ∧ ∃ p, Enforced r .ms p
  sends_ms : r.Sends .ms → r.localRequest = .ms

namespace MsSound

theorem agrees (h : MsSound r) : Agrees r where
  fs := h.sound.agreesOn_fs
  sf := h.sound.agreesOn_sf
  ms :=
    { sends_iff := by
        constructor
        · intro hl
          obtain ⟨_, _, he⟩ := h.ms hl
          exact he.sends
        · exact h.sends_ms
      state := fun hl => (h.ms hl).1 }

theorem init (h : requests.init r) : MsSound r := by
  refine ⟨.init h, ?_, ?_⟩
  · obtain ⟨now, ringId, rplOwner, rplNeighbour, version, rapsVid, isRevertive, rfl⟩ := h
    intro hl
    have hinv : (erRingCreate now ringId rplOwner rplNeighbour).localRequest = .ms := hl
    rw [erRingCreate_eq, Ring.started_localRequest] at hinv
    exact absurd hinv (by simp [(blank_ringBlank ringId rplOwner rplNeighbour).localRequest])
  · obtain ⟨now, ringId, rplOwner, rplNeighbour, version, rapsVid, isRevertive, rfl⟩ := h
    intro h
    obtain ⟨flags, hs⟩ := h
    have hnr : (erRingCreate now ringId rplOwner rplNeighbour).sending = some (.ms, flags) := hs
    rw [erRingCreate_eq, Ring.started_sending] at hnr
    cases hnr

/-- With an MS in force, no request but a CLEAR_SF leaves the transmission alone. -/
theorem effect_tx_ne_keep (h : MsSound r) (hms : r.localRequest = .ms) {req : RingRequest}
    (ha : r.accepts req = true) (hne : req ≠ .clearSf) (port : Option PortId)
    (remote : Option NodeId) : (r.effect req port remote).tx ≠ .keep := by
  obtain ⟨hs, p, _, hb, _⟩ := h.ms hms
  have hany : r.anyBlocked = true := Ring.hasBlock_iff.mp hb.hasBlock
  rcases Ring.cases_of_accepts_of_ms ha hms with rfl | rfl | rfl | rfl | rfl | rfl | rfl
  · simp [Ring.effect, hs, hany, Ring.announceEffect]
  · simp [Ring.effect, hs, Ring.withdraw]
  · exact absurd rfl hne
  · simp [Ring.effect, hs, Ring.switchEffect]
  · simp [Ring.effect, hs, Ring.withdraw]
  · simp [Ring.effect, hs, Ring.switchEffect]
  · simp [Ring.effect, hs, hany, Ring.announceEffect]

theorem handle (h : MsSound r) {c : Call} (hm : MsTakesEffect r c) : MsSound (handle r c) := by
  refine ⟨h.sound.handle c, ?_, ?_⟩
  · rcases handle_cases h.sound.coherent c with heq | ⟨ha, heq⟩
    · rw [heq]
      exact h.ms
    · rw [heq]
      intro hl
      have hreq : c.req.request = .ms := by
        rw [Ring.advance_localRequest] at hl
        cases hq : c.req.request <;> simp [hq, RingRequest.retained] at hl
        rfl
      obtain ⟨p, hp⟩ := Option.isSome_iff_exists.mp (c.req.port_isSome (by rw [hreq]; rfl))
      rw [hreq] at ha
      have hs := hm.1 ⟨hreq, ha⟩
      have he : r.effect .ms (some p) c.req.remoteNodeId =
          r.switchEffect .ms p .manualSwitch := by
        rcases hs with hs | hs <;> simp [Ring.effect, hs, Ring.named]
      rw [hreq, hp]
      refine ⟨?_, p, Dominant.enforced_of_switch .manualSwitch he⟩
      rw [Ring.advance_state, he]
      rfl
  · rcases handle_cases h.sound.coherent c with heq | ⟨ha, heq⟩
    · rw [heq]
      exact h.sends_ms
    · rw [heq]
      intro hs
      rcases Dominant.sends_advance hs with ⟨hk, hs⟩ | ⟨flags, hs⟩
      · have hms := h.sends_ms hs
        exact absurd hk (h.effect_tx_ne_keep hms ha (fun hc => hm.2 hc hms) _ _)
      · rw [Ring.advance_localRequest]
        rcases r.effect_start _ _ _ hs with h' | ⟨_, h'⟩ | ⟨_, h'⟩ | ⟨h', _⟩
        · cases h'
        · cases h'
        · cases h'
        · rw [h']
          rfl

/-- A call that fails the condition breaks the agreement at once. -/
theorem takesEffect_of_agrees (h : MsSound r) {c : Call} (ha : Agrees (Kernel.handle r c)) :
    MsTakesEffect r c := by
  constructor
  · intro h
    obtain ⟨hreq, hacc⟩ := h
    have heq : Kernel.handle r c = r.advance c.now .ms c.req.port c.req.remoteNodeId := by
      have := h.sound.coherent.eq_advance_of_local (by rw [hreq]; exact hacc) (by rw [hreq]; rfl)
        (processed h.sound.coherent c.now c.req)
      rw [← hreq]
      exact this
    have hl : (Kernel.handle r c).localRequest = .ms := by
      rw [heq]
      rfl
    by_contra hs
    rw [not_or] at hs
    -- the row is empty, so an MS would already have been on the air
    have hstay : r.effect .ms c.req.port c.req.remoteNodeId = r.stay := by
      unfold Ring.effect
      cases hst : r.state with
      | idle => exact absurd hst hs.1
      | pending => exact absurd hst hs.2
      | init | protection | manualSwitch | forcedSwitch => rfl
    have hsend : r.Sends .ms := by
      obtain ⟨flags, hf⟩ := ha.ms.sends_iff.mp hl
      rw [heq, Ring.advance_sending, hstay] at hf
      exact ⟨flags, hf⟩
    have hlt := Ring.lt_of_accepts hacc (by simp [h.sends_ms hsend])
    rw [h.sends_ms hsend] at hlt
    exact absurd hlt (by simp)
  · intro hreq hms
    obtain ⟨hs, _, he⟩ := h.ms hms
    have hacc : r.accepts .clearSf = true := by
      simp [Ring.accepts, hms, RingRequest.code]
    have hrow : r.effect .clearSf c.req.port c.req.remoteNodeId = r.stay := by
      simp only [Ring.effect, hs]
    rcases handle_cases h.sound.coherent c with heq | ⟨_, heq⟩
    · -- a CLEAR_SF that is swallowed still clears what was retained
      have hp := processed h.sound.coherent c.now c.req
      have hl : (Kernel.handle r c).localRequest = c.req.request.retained :=
        hp.localRequest (by rw [hreq]; exact hacc)
      rw [heq, hms, hreq] at hl
      cases hl
    · rw [hreq] at heq
      have hsend : (Kernel.handle r c).Sends .ms := by
        obtain ⟨flags, hf⟩ := he.sends
        refine ⟨flags, ?_⟩
        rw [heq, Ring.advance_sending, hrow]
        exact hf
      have hl := ha.ms.sends_iff.mpr hsend
      rw [heq, Ring.advance_localRequest] at hl
      cases hl

end MsSound

/-- **The runs that agree.** A run agrees in every state it reaches exactly when no MS is accepted
that takes no effect, and no CLEAR_SF arrives while an MS is retained. -/
theorem agrees_exactly {s t : Ring Int32} {cs : List Call} (hs : timedRequests.init s) :
    Agrees s ∧ ((timedRequests.restrict MsTakesEffect).Run s cs t ↔
      (timedRequests.within Agrees).Run s cs t) := by
  have hinit : MsSound s := .init hs
  refine ⟨hinit.agrees, Lts.run_restrict_iff (J := MsSound) (fun _ h => h.agrees) ?_ ?_ hinit⟩
  · intro s c _ h hm hst
    obtain ⟨_, rfl⟩ := hst
    exact h.handle hm
  · intro s c _ h hst ha
    obtain ⟨_, rfl⟩ := hst
    exact h.takesEffect_of_agrees ha

/-- An MS in PENDING meets the condition. -/
theorem agrees_exactly_plainNode :
    (timedRequests.within Agrees).Run plainNode [.at0 (.onPort .ms .port0 rfl)]
      (handle plainNode (.at0 (.onPort .ms .port0 rfl))) := by
  refine (agrees_exactly init_plainNode).2.mp (Lts.Run.nil.snoc ⟨⟨fun _ => .inr rfl, ?_⟩, ⟨?_, rfl⟩⟩)
  · intro h
    cases h
  · constructor <;>
    · intro h
      cases h

/-- After an R-APS(SF), a local MS is retained but neither obeyed nor announced. -/
theorem agrees_counterexample : ¬ ∀ r, timedRequests.Reachable r → Agrees r := by
  intro h
  have h₀ : timedRequests.Reachable plainNode := .init init_plainNode
  have h₁ : timedRequests.Reachable (handle plainNode (.at0 (.fromNode .rapsSf .port0 node2))) := by
    refine h₀.step
      (e := .at0 (.fromNode .rapsSf .port0 node2)) ⟨⟨?_, ?_⟩, rfl⟩ <;>
    · intro h
      cases h
  have h₂ : timedRequests.Reachable
      (handle (handle plainNode (.at0 (.fromNode .rapsSf .port0 node2)))
        (.at0 (.onPort .ms .port0 rfl))) := by
    refine h₁.step (e := .at0 (.onPort .ms .port0 rfl)) ⟨⟨?_, ?_⟩, rfl⟩ <;>
    · intro h
      cases h
  have hstate := (h _ h₂).ms.state (by decide)
  exact absurd hstate (by decide)

end Erps.Kernel
