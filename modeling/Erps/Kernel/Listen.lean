import Erps.Format
import Erps.Kernel.Life
import Erps.Ring.Quiet

/-!
# A ring of the module

Of everything that calls `ring_process_request` in the simulator the module has one thing left:
`process_raps_frame`. ERIOCCOMMAND is "not implemented", `ring_timer` is commented out, and nothing sets
`link_event` or `is_failed`. So a ring of the module listens and that is all (`Listening`). Its guard
timer never runs, it has nothing to say but the R-APS(NR) of row 01, and of its two ports it blocks one
at most, the one it was born with.

That one it gives up for good, unless it is the RPL neighbour. Which port takes in what is a matter of
the requests the ring has heard since its ERIOCINIT and of their senders, and of nothing else
(`Heard.blocked_iff`): for all it remembers of them the ring is a `Listener`.
-/

set_option autoImplicit false

namespace Erps.Kernel

open Bytes

/-! ## The listener -/

/-- How far a ring that only listens has got: it has not heard yet that the RPL is blocked, it has, or
somebody has switched. -/
inductive Phase
  | waiting | idle | away
  deriving DecidableEq, Repr

/-- What one of the five requests makes of it, whatever the role of the node. -/
def Phase.next : Phase → RingRequest → Phase
  | .idle, .rapsNr | .idle, .rapsNrRb | .waiting, .rapsNrRb => .idle
  | _, .rapsNr | _, .rapsNrRb => .waiting
  | _, _ => .away

/-- All that is left of what a ring has heard: the phase, and the last request with its sender. -/
structure Listener where
  phase : Phase
  last : Option (RingRequest × NodeId)
  deriving DecidableEq, Repr

namespace Listener

/-- A request that the same node has just made goes by. -/
def hear (l : Listener) (q : RingRequest × NodeId) : Listener :=
  if l.last = some q then l else ⟨l.phase.next q.1, some q⟩

/-- The listener that has heard these requests. -/
def after (heard : List (RingRequest × NodeId)) : Listener := heard.foldl hear ⟨.waiting, none⟩

variable {heard : List (RingRequest × NodeId)} {q : RingRequest × NodeId}

@[simp] theorem after_append : after (heard ++ [q]) = (after heard).hear q := by
  simp [after]

@[simp] theorem hear_last (l : Listener) : (l.hear q).last = some q := by
  unfold hear
  split <;> simp_all

@[simp] theorem after_last : (after heard).last = heard.getLast? := by
  induction heard using List.reverseRecOn with
  | nil => rfl
  | append_singleton heard q _ => simp

end Listener

/-- The phase of a state. -/
def phaseOf : RingState → Phase
  | .idle => .idle
  | .init | .pending => .waiting
  | .protection | .manualSwitch | .forcedSwitch => .away

/-- What a ring is as a listener. -/
def listenerOf (r : Ring Int32) : Listener where
  phase := phaseOf r.state
  last := if r.prev.request = .invalid then none else some (r.prev.request, r.prev.remoteNodeId)

theorem listenerOf_idle_iff {r : Ring Int32} : (listenerOf r).phase = .idle ↔ r.state = .idle := by
  unfold listenerOf
  cases r.state <;> simp [phaseOf]

theorem last_listenerOf_iff {r : Ring Int32} {request : RingRequest} {id : NodeId}
    (hraps : request.isRaps = true) :
    (listenerOf r).last = some (request, id) ↔
      r.prev.request = request ∧ r.prev.remoteNodeId = id := by
  unfold listenerOf
  split
  · rename_i hnone
    rw [hnone]
    simp only [reduceCtorEq, false_iff, not_and]
    rintro rfl
    cases hraps
  · simp

/-! ## Heard requests -/

/-- The request that a node other than `id` makes. -/
theorem memcmp_zero_neg {id : NodeId} (h : id ≠ .zero) : memcmp NodeId.zero.bytes id.bytes < 0 := by
  rw [Bytes.memcmp_neg_iff (NodeId.zero.length_eq.trans id.length_eq.symm)]
  have hne : beNat NodeId.zero.bytes ≠ beNat id.bytes := fun heq => h (NodeId.rank_injective heq).symm
  have hzero : beNat NodeId.zero.bytes = 0 := rfl
  omega

section node

variable {r : Ring Int32} {request : RingRequest} {p : PortId} {id : NodeId}

/-- What no heard request changes of a ring, or not much. -/
structure Listening (r : Ring Int32) : Prop where
  coherent : Coherent r
  nodeId : r.cfg.nodeId = .zero
  localRequest : r.localRequest = .invalid
  healthy : r.Healthy
  guard : r.timers.guard.active = false
  other : (r.port r.rpl.other).isBlocked = false
  sending : r.sending = none ∨ r.sending = some (.nr, 0)
  away : r.state ≠ .pending → r.state ≠ .idle → r.Withdrawn

namespace Listening

theorem isBelow (h : Listening r) (hid : id ≠ .zero) : r.isBelow (some id) = true := by
  unfold Ring.isBelow
  rw [h.nodeId]
  simpa using memcmp_zero_neg hid

theorem guardHolds_eq (h : Listening r) (hz now : Int32) : guardHolds hz now r = false := by
  simp [guardHolds, h.guard]

/-- A heard request is a repetition, or takes its row. -/
theorem process_eq (h : Listening r) (hraps : request.isRaps = true) (now : Int32) (p : PortId)
    (id : NodeId) :
    ringProcessRequest r now request (some p) (some id) =
      if (listenerOf r).last = some (request, id) then r
      else r.advance now request (some p) (some id) := by
  have hp : Processed r now request (some p) (some id) _ :=
    processed h.coherent now (.fromNode request p id)
  rcases h.coherent.processed_cases hp with ⟨hn, heq⟩ | ⟨ht, heq⟩
  · have hprev := Ring.prev_of_not_takes (Ring.accepts_of_raps h.localRequest hraps) hraps hn
    rw [if_pos ((last_listenerOf_iff hraps).mpr hprev)]
    exact heq
  · have hprev := prev_ne_of_takes hraps ht
    rw [if_neg (fun hlast => hprev ((last_listenerOf_iff hraps).mp hlast))]
    exact heq

end Listening

/-- **What a heard request can do.** -/
inductive Reaction (r : Ring Int32) (request : RingRequest) (r' : Ring Int32) : Prop
  /-- the ports are open afterwards, and nothing is sent -/
  | opens (hw : r'.Withdrawn) (hnr : request = .rapsNr → r.cfg.isRplOwner = false ∨ r.state ≠ .idle)
      (hrb : request = .rapsNrRb → r.cfg.isRplOwner = false ∨ r.Withdrawn)
      (hnb : r.cfg.isRplNeighbour = true → r'.state ≠ .idle)
  /-- the block stays where it is -/
  | keeps (hs : r'.state = .idle) (hb : ∀ q, (r'.port q).isBlocked = (r.port q).isBlocked)
      (ht : r'.sending = none ∨ r'.sending = r.sending)
      (hwhy : r.state = .idle ∧ (request = .rapsNr ∨ request = .rapsNrRb) ∨
        r.cfg.isRplNeighbour = false ∧ r.cfg.isRplOwner = true ∧ request = .rapsNrRb)
  /-- row 70 at the RPL neighbour -/
  | blocks (hnb : r.cfg.isRplNeighbour = true) (hs : r'.state = .idle) (hb : r'.BlocksOnly r.rpl)
      (ht : r'.sending = none)

namespace Listening

theorem ringOtherPort_rplPort (r : Ring Int32) : ringOtherPort r.cfg.rplPort = r.rpl.other := by
  unfold Ring.rpl
  cases r.cfg.rplPort with
  | none => rfl
  | some p => simp

/-- The reaction of an RPL role to R-APS(NR,RB). -/
theorem reaction_rapsNrRb (h : Listening r) (now : Int32) (p : PortId) (id : NodeId) :
    Reaction r .rapsNrRb (r.advance now .rapsNrRb (some p) (some id)) := by
  cases hs : r.state with
  | init => exact absurd hs h.coherent.not_init
  | protection | manualSwitch | forcedSwitch =>
    have hw := h.away (by simp [hs]) (by simp [hs])
    refine .opens ⟨?_, ?_⟩ (by simp) (fun _ => .inr hw) (fun _ => ?_)
    · exact hw.isOpen.advance_of_keep (by simp [Ring.effect, hs])
    · rw [Ring.advance_sending]
      simpa [Ring.effect, hs, TxEffect.sending] using hw.silent
    · simp [Ring.effect, hs]
  | idle =>
    refine .keeps (by simp [Ring.effect, hs]) ?_ ?_ (.inl ⟨hs, .inr rfl⟩)
    · intro q
      rw [Ring.advance_port]
      simp only [Ring.effect, hs, ringOtherPort_rplPort, PortEffect.blocked]
      rcases PortId.eq_or_eq_other r.rpl q with rfl | rfl
      · simp [(PortId.other_ne _).symm]
      · simp [h.other]
    · rw [Ring.advance_sending]
      cases hown : r.cfg.isRplOwner <;> simp [Ring.effect, hs, hown, TxEffect.sending]
  | pending =>
    cases hnb : r.cfg.isRplNeighbour with
    | true =>
      refine .blocks hnb (by simp [Ring.effect, hs, hnb]) ⟨?_, ?_⟩ ?_
      · simp [Ring.effect, hs, hnb, PortEffect.blocked]
      · simp [Ring.effect, hs, hnb, PortEffect.blocked, PortId.other_ne]
      · simp [Ring.effect, hs, hnb, TxEffect.sending]
    | false =>
      cases hown : r.cfg.isRplOwner with
      | true =>
        refine .keeps (by simp [Ring.effect, hs, hnb, hown]) ?_ (.inr ?_) (.inr ⟨hnb, hown, rfl⟩)
        · intro q
          simp [Ring.effect, hs, hnb, hown, PortEffect.blocked]
        · simp [Ring.effect, hs, hnb, hown, TxEffect.sending]
      | false =>
        refine .opens ⟨?_, ?_⟩ (by simp) (fun _ => .inl hown) (by simp [hnb])
        · intro q
          simp [Ring.effect, hs, hnb, hown, PortEffect.blocked]
        · simp [Ring.effect, hs, hnb, hown, TxEffect.sending]

theorem reaction_rapsNr (h : Listening r) (hid : id ≠ .zero) (now : Int32) (p : PortId) :
    Reaction r .rapsNr (r.advance now .rapsNr (some p) (some id)) := by
  have hbelow := h.isBelow hid
  cases hs : r.state with
  | init => exact absurd hs h.coherent.not_init
  | protection | manualSwitch | forcedSwitch =>
    have hw := h.away (by simp [hs]) (by simp [hs])
    refine .opens ⟨?_, ?_⟩ (fun _ => .inr (by simp [hs])) (by simp) (fun _ => ?_)
    · exact hw.isOpen.advance_of_keep (by simp [Ring.effect, hs])
    · rw [Ring.advance_sending]
      simpa [Ring.effect, hs, TxEffect.sending] using hw.silent
    · simp [Ring.effect, hs]
  | pending =>
    refine .opens (h.healthy.withdrawn_advance ?_ ?_) (fun _ => .inr (by simp [hs])) (by simp)
      (fun _ => ?_) <;> simp [Ring.effect, hs, hbelow]
  | idle =>
    cases hrole : r.cfg.isRplOwner || r.cfg.isRplNeighbour with
    | false =>
      obtain ⟨hown, hnb⟩ := Bool.or_eq_false_iff.mp hrole
      refine .opens (h.healthy.withdrawn_advance ?_ ?_) (fun _ => .inl hown) (by simp)
        (by simp [hnb]) <;> simp [Ring.effect, hs, hbelow, hown, hnb]
    | true =>
      have hstay : r.effect .rapsNr (some p) (some id) = r.stay := by
        simp only [Ring.effect, hs]
        rw [if_neg]
        intro hn
        simp only [Bool.and_eq_true, Bool.not_eq_true'] at hn
        simp [hn.1.1, hn.1.2] at hrole
      refine .keeps (by simp [hstay, Ring.stay, hs]) ?_ (.inr ?_) (.inl ⟨hs, .inl rfl⟩)
      · intro q
        simp [hstay, Ring.stay, PortEffect.blocked]
      · simp [hstay, Ring.stay, TxEffect.sending]

/-- Another node's switch opens the ports, if they are not open anyway. -/
theorem withdrawn_of_switch (h : Listening r)
    (hreq : request = .rapsFs ∨ request = .rapsSf ∨ request = .rapsMs) (now : Int32) (p : PortId)
    (id : NodeId) :
    (r.advance now request (some p) (some id)).Withdrawn ∧
      (r.advance now request (some p) (some id)).state ≠ .idle := by
  by_cases haway : r.state = .pending ∨ r.state = .idle
  · rcases hreq with rfl | rfl | rfl
    · have he : r.effect .rapsFs (some p) (some id) = r.withdraw .openAll .forcedSwitch := by
        rcases haway with hs | hs <;> simp [Ring.effect, hs]
      refine ⟨⟨?_, ?_⟩, ?_⟩
      · intro q
        simp [he, PortEffect.blocked]
      · simp [he, TxEffect.sending]
      · simp [he]
    · have he : r.effect .rapsSf (some p) (some id) = r.withdraw .openNonfailed .protection := by
        rcases haway with hs | hs <;> simp [Ring.effect, hs]
      exact ⟨h.healthy.withdrawn_advance (by simp [he]) (by simp [he]), by simp [he]⟩
    · have he : r.effect .rapsMs (some p) (some id) = r.withdraw .openNonfailed .manualSwitch := by
        rcases haway with hs | hs <;> simp [Ring.effect, hs]
      exact ⟨h.healthy.withdrawn_advance (by simp [he]) (by simp [he]), by simp [he]⟩
  · obtain ⟨hpending, hidle⟩ := not_or.mp haway
    have hw := h.away hpending hidle
    have hany := Ring.open_iff_anyBlocked.mp hw.isOpen
    have hcase : r.effect request (some p) (some id) = r.stay ∨
        (r.effect request (some p) (some id)).ports ≠ .keep ∧
          (r.advance now request (some p) (some id)).Withdrawn ∧
          (r.effect request (some p) (some id)).next ≠ .idle := by
      rcases hreq with rfl | rfl | rfl
      · by_cases hs : r.state = .forcedSwitch
        · exact .inl (by simp [Ring.effect, hs])
        · have he : r.effect .rapsFs (some p) (some id) = r.withdraw .openAll .forcedSwitch := by
            simp [Ring.effect, hs]
          refine .inr ⟨by simp [he], ⟨?_, ?_⟩, by simp [he]⟩
          · intro q
            simp [he, PortEffect.blocked]
          · simp [he, TxEffect.sending]
      · cases hs : r.state with
        | init => exact absurd hs h.coherent.not_init
        | pending => exact absurd hs hpending
        | idle => exact absurd hs hidle
        | protection | forcedSwitch => exact .inl (by simp [Ring.effect, hs])
        | manualSwitch =>
          have he : r.effect .rapsSf (some p) (some id) =
              r.withdraw .openNonfailed .manualSwitch := by simp [Ring.effect, hs]
          exact .inr ⟨by simp [he], h.healthy.withdrawn_advance (by simp [he]) (by simp [he]),
            by simp [he]⟩
      · cases hs : r.state with
        | init => exact absurd hs h.coherent.not_init
        | pending => exact absurd hs hpending
        | idle => exact absurd hs hidle
        | protection | forcedSwitch => exact .inl (by simp [Ring.effect, hs])
        | manualSwitch => exact .inl (by simp [Ring.effect, hs, hany])
    rcases hcase with hstay | ⟨_, hw', hnext⟩
    · exact ⟨hw.advance_of_stay hstay, by simpa [hstay, Ring.stay] using hidle⟩
    · exact ⟨hw', hnext⟩

theorem reaction (h : Listening r) (hraps : request.isRaps = true) (hid : id ≠ .zero) (now : Int32)
    (p : PortId) : Reaction r request (r.advance now request (some p) (some id)) := by
  cases request with
  | rapsNr => exact h.reaction_rapsNr hid now p
  | rapsNrRb => exact h.reaction_rapsNrRb now p id
  | rapsFs =>
    obtain ⟨hw, hs⟩ := h.withdrawn_of_switch (.inl rfl) now p id
    exact .opens hw (by simp) (by simp) fun _ => hs
  | rapsSf =>
    obtain ⟨hw, hs⟩ := h.withdrawn_of_switch (.inr (.inl rfl)) now p id
    exact .opens hw (by simp) (by simp) fun _ => hs
  | rapsMs =>
    obtain ⟨hw, hs⟩ := h.withdrawn_of_switch (.inr (.inr rfl)) now p id
    exact .opens hw (by simp) (by simp) fun _ => hs
  | _ => cases hraps

/-- No row that a heard request takes starts the guard timer, while no switch of this ring is
announced. -/
theorem effect_guard (h : Listening r) (hraps : request.isRaps = true) :
    (r.effect request (some p) (some id)).guard = .keep := by
  have hrow := r.row request (some p) (some id)
  generalize r.effect request (some p) (some id) = e at hrow
  cases hrow with
  | announce hreq hb =>
    rcases hreq with ⟨rfl, _⟩ | ⟨rfl, hs⟩
    · cases hraps
    · have hw := h.away (by simp [hs]) (by simp [hs])
      rw [Ring.open_iff_anyBlocked.mp hw.isOpen] at hb
      cases hb
  | fs | fsAgain | sf | ms | lapse | clearSf => cases hraps
  | _ => rfl

/-- **One row.** -/
theorem advance (h : Listening r) (hraps : request.isRaps = true) (hid : id ≠ .zero) (now : Int32)
    (p : PortId) : Listening (r.advance now request (some p) (some id)) where
  coherent := h.coherent.advance
  nodeId := h.nodeId
  localRequest := by
    rw [Ring.advance_localRequest]
    cases request <;> first | rfl | cases hraps
  healthy := h.healthy.advance
  guard := by
    have hact : (r.advance now request (some p) (some id)).timers.guard =
        (r.effect request (some p) (some id)).guard.apply now r.timers.guard := rfl
    rw [hact, h.effect_guard hraps]
    exact h.guard
  other := by
    show ((r.advance now request (some p) (some id)).port r.rpl.other).isBlocked = false
    cases h.reaction hraps hid now p with
    | opens hw => exact hw.isOpen _
    | keeps _ hb => exact (hb _).trans h.other
    | blocks _ _ hb => exact hb.2
  sending := by
    cases h.reaction hraps hid now p with
    | opens hw => exact .inl hw.silent
    | keeps _ _ ht =>
      rcases ht with ht | ht
      · exact .inl ht
      · rw [ht]
        exact h.sending
    | blocks _ _ _ ht => exact .inl ht
  away hpending hidle := by
    cases h.reaction hraps hid now p with
    | opens hw => exact hw
    | keeps hs => exact absurd hs hidle
    | blocks _ hs => exact absurd hs hidle

theorem process (h : Listening r) (hraps : request.isRaps = true) (hid : id ≠ .zero) (now : Int32)
    (p : PortId) : Listening (ringProcessRequest r now request (some p) (some id)) := by
  rw [h.process_eq hraps]
  split
  · exact h
  · exact h.advance hraps hid now p

theorem cfg_process (h : Listening r) (hraps : request.isRaps = true) (now : Int32) (p : PortId)
    (id : NodeId) : (ringProcessRequest r now request (some p) (some id)).cfg = r.cfg := by
  rw [h.process_eq hraps]
  split <;> rfl

/-- The phase goes as the listener's does: the role of the node makes no difference to it. -/
theorem phaseOf_effect (h : Listening r) (hraps : request.isRaps = true) (p : PortId) (id : NodeId) :
    phaseOf (r.effect request (some p) (some id)).next = (phaseOf r.state).next request := by
  cases hs : r.state with
  | init => exact absurd hs h.coherent.not_init
  | pending =>
    cases request with
    | rapsNr =>
      cases hb : r.isBelow (some id) <;> simp [Ring.effect, hs, hb, Ring.stay, phaseOf, Phase.next]
    | rapsNrRb =>
      cases hnb : r.cfg.isRplNeighbour <;> cases hown : r.cfg.isRplOwner <;>
        simp [Ring.effect, hs, hnb, hown, phaseOf, Phase.next]
    | rapsFs | rapsSf | rapsMs => simp [Ring.effect, hs, phaseOf, Phase.next]
    | _ => cases hraps
  | idle =>
    cases request with
    | rapsNr =>
      simp only [Ring.effect, hs]
      split <;> simp [Ring.stay, hs, phaseOf, Phase.next]
    | rapsNrRb | rapsFs | rapsSf | rapsMs => simp [Ring.effect, hs, phaseOf, Phase.next]
    | _ => cases hraps
  | protection | manualSwitch | forcedSwitch =>
    -- row 45 would lead to PENDING, but only with a port blocked
    have hw := h.away (by simp [hs]) (by simp [hs])
    have hany := Ring.open_iff_anyBlocked.mp hw.isOpen
    cases request with
    | rapsNr | rapsNrRb | rapsFs | rapsSf | rapsMs =>
      simp [Ring.effect, hs, hany, Ring.stay, phaseOf, Phase.next]
    | _ => cases hraps

/-- **The ring is the listener.** -/
theorem listenerOf_process (h : Listening r) (hraps : request.isRaps = true) (now : Int32)
    (p : PortId) (id : NodeId) :
    listenerOf (ringProcessRequest r now request (some p) (some id)) =
      (listenerOf r).hear (request, id) := by
  rw [h.process_eq hraps]
  unfold Listener.hear
  split
  · rfl
  · have hreq : request ≠ .invalid := by
      rintro rfl
      cases hraps
    simp [listenerOf, h.phaseOf_effect hraps, hreq]

end Listening

/-! ## What has been heard -/

/-- Only requests that leave the block of a ring with this role alone: R-APS(NR,RB) first, and after that
nothing but R-APS(NR) with or without RB, at the RPL owner; none at all elsewhere. -/
def KeepsBlock (isRplOwner : Bool) (heard : List RingRequest) : Prop :=
  heard = [] ∨ isRplOwner = true ∧ heard.head? = some .rapsNrRb ∧
    ∀ q ∈ heard, q = .rapsNr ∨ q = .rapsNrRb

instance (isRplOwner : Bool) (heard : List RingRequest) : Decidable (KeepsBlock isRplOwner heard) :=
  inferInstanceAs (Decidable (_ ∨ _ ∧ _ ∧ _))

namespace KeepsBlock

variable {isRplOwner : Bool} {heard : List RingRequest}

theorem mem_cases (h : KeepsBlock isRplOwner heard) (hq : request ∈ heard) :
    isRplOwner = true ∧ (request = .rapsNr ∨ request = .rapsNrRb) := by
  rcases h with rfl | ⟨hown, _, hall⟩
  · cases hq
  · exact ⟨hown, hall request hq⟩

/-- A block that has been given up is not taken back, and a block is kept by the RPL owner alone. -/
theorem append_iff : KeepsBlock isRplOwner (heard ++ [request]) ↔
    KeepsBlock isRplOwner heard ∧ isRplOwner = true ∧ (heard = [] → request = .rapsNrRb) ∧
      (request = .rapsNr ∨ request = .rapsNrRb) := by
  unfold KeepsBlock
  cases heard with
  | nil =>
    simp only [List.nil_append, List.head?_cons, Option.some.injEq, List.mem_singleton]
    constructor
    · rintro (h | ⟨hown, hhead, hall⟩)
      · cases h
      · exact ⟨.inl trivial, hown, fun _ => hhead, hall request rfl⟩
    · rintro ⟨_, hown, hfirst, _⟩
      refine .inr ⟨hown, hfirst trivial, ?_⟩
      rintro q rfl
      exact .inr (hfirst trivial)
  | cons q qs =>
    simp only [List.cons_append, List.head?_cons, reduceCtorEq, false_or, false_implies, true_and,
      List.forall_mem_cons, List.forall_mem_append, List.not_mem_nil, implies_true, and_true]
    tauto

end KeepsBlock

/-- Whoever has heard these requests in this role still blocks its port: the RPL neighbour if it has come
to rest on them, any other node if they have left its block alone. -/
def HoldsBlock (isRplOwner isRplNeighbour : Bool) (heard : List (RingRequest × NodeId)) : Prop :=
  if isRplNeighbour then heard = [] ∨ (Listener.after heard).phase = .idle
  else KeepsBlock isRplOwner (heard.map Prod.fst)

instance (isRplOwner isRplNeighbour : Bool) (heard : List (RingRequest × NodeId)) :
    Decidable (HoldsBlock isRplOwner isRplNeighbour heard) :=
  inferInstanceAs (Decidable (if isRplNeighbour then _ ∨ _ else _))

section heard

variable {heard : List (RingRequest × NodeId)}

/-- What the requests a ring has heard say about it. -/
structure Heard (r : Ring Int32) (heard : List (RingRequest × NodeId)) : Prop where
  listener : listenerOf r = .after heard
  elsewhere : r.cfg.isRplNeighbour = false →
    ((r.port r.rpl).isBlocked = true ↔ KeepsBlock r.cfg.isRplOwner (heard.map Prod.fst))
  /-- a block that has survived a request is that of IDLE -/
  idle : r.cfg.isRplNeighbour = false → heard ≠ [] → (r.port r.rpl).isBlocked = true →
    r.state = .idle
  neighbour : r.cfg.isRplNeighbour = true →
    ((r.port r.rpl).isBlocked = true ↔ heard = [] ∨ r.state = .idle)

/-- **What is blocked is a matter of what has been heard.** -/
theorem Heard.blocked_iff (hh : Heard r heard) (hl : Listening r) (p : PortId) :
    (r.port p).isBlocked = true ↔
      p = r.rpl ∧ HoldsBlock r.cfg.isRplOwner r.cfg.isRplNeighbour heard := by
  have hrpl : (r.port r.rpl).isBlocked = true ↔
      HoldsBlock r.cfg.isRplOwner r.cfg.isRplNeighbour heard := by
    unfold HoldsBlock
    cases hnb : r.cfg.isRplNeighbour with
    | true =>
      rw [if_pos rfl, ← hh.listener, listenerOf_idle_iff]
      exact hh.neighbour hnb
    | false => exact hh.elsewhere hnb
  rcases PortId.eq_or_eq_other r.rpl p with rfl | rfl
  · rw [hrpl]
    simp
  · simp [hl.other, PortId.other_ne]

/-- The second R-APS(NR,RB) after a switch closes the port of the RPL neighbour again, if it comes from a
second node. -/
example {id id' : NodeId} (h : id ≠ id') :
    ¬ HoldsBlock false true [(.rapsSf, id), (.rapsNrRb, id), (.rapsNrRb, id)] ∧
      HoldsBlock false true [(.rapsSf, id), (.rapsNrRb, id), (.rapsNrRb, id')] := by
  simp [HoldsBlock, Listener.after, Listener.hear, Phase.next, h]

namespace Heard

/-- Before it has heard anything a ring is PENDING. -/
theorem pending (hh : Heard r []) (hl : Listening r) : r.state = .pending := by
  have hphase : phaseOf r.state = .waiting := congrArg Listener.phase hh.listener
  cases hs : r.state with
  | pending => rfl
  | init => exact absurd hs hl.coherent.not_init
  | _ => simp [hs, phaseOf] at hphase

/-- A repetition counts for nothing. -/
theorem again (hh : Heard r heard) (hlast : (listenerOf r).last = some (request, id)) :
    Heard r (heard ++ [(request, id)]) := by
  rw [hh.listener, Listener.after_last] at hlast
  have hmem : (request, id) ∈ heard := List.mem_of_getLast? hlast
  have hne : heard ≠ [] := List.ne_nil_of_mem hmem
  refine ⟨?_, ?_, ?_, ?_⟩
  · rw [hh.listener, Listener.after_append, Listener.hear, if_pos]
    rwa [Listener.after_last]
  · intro hnb
    rw [hh.elsewhere hnb, List.map_append]
    refine ⟨fun hk => KeepsBlock.append_iff.mpr ?_, fun hk => (KeepsBlock.append_iff.mp hk).1⟩
    obtain ⟨hown, hreq⟩ := hk.mem_cases (List.mem_map_of_mem hmem)
    exact ⟨hk, hown, fun h => absurd (List.map_eq_nil_iff.mp h) hne, hreq⟩
  · intro hnb _ hb
    exact hh.idle hnb hne hb
  · intro hnb
    rw [hh.neighbour hnb]
    simp [hne]

/-- A request that takes its row. -/
theorem advance (hh : Heard r heard) (hl : Listening r) (hraps : request.isRaps = true)
    (hid : id ≠ .zero) (now : Int32) (p : PortId)
    (hlistener : listenerOf (r.advance now request (some p) (some id)) =
      .after (heard ++ [(request, id)])) :
    Heard (r.advance now request (some p) (some id)) (heard ++ [(request, id)]) := by
  have hreact := hl.reaction hraps hid now p
  -- a block that survives a request outside IDLE is the very first one
  have hgone : r.cfg.isRplNeighbour = false → heard ≠ [] → r.state ≠ .idle →
      ¬ KeepsBlock r.cfg.isRplOwner (heard.map Prod.fst) := by
    intro hnb hne hs hk
    exact hs (hh.idle hnb hne ((hh.elsewhere hnb).mpr hk))
  cases hreact with
  | opens hw hnr hrb hnbs =>
    have hshut : ((r.advance now request (some p) (some id)).port
        (r.advance now request (some p) (some id)).rpl).isBlocked = false := hw.isOpen _
    refine ⟨hlistener, ?_, ?_, ?_⟩
    · intro hnb
      rw [hshut, List.map_append]
      refine iff_of_false (by simp) ?_
      intro hk
      obtain ⟨hk, hown, hfirst, rfl | rfl⟩ := KeepsBlock.append_iff.mp hk
      · rcases hnr rfl with h | h
        · cases hown.symm.trans h
        · by_cases hne : heard = []
          · cases hfirst (List.map_eq_nil_iff.mpr hne)
          · exact hgone hnb hne h hk
      · rcases hrb rfl with h | h
        · cases hown.symm.trans h
        · have hb := (hh.elsewhere hnb).mpr hk
          rw [h.isOpen] at hb
          cases hb
    · intro _ _ hb
      rw [hshut] at hb
      cases hb
    · intro hnb
      rw [hshut]
      simpa using hnbs hnb
  | keeps hs hb _ hwhy =>
    have hkept : ((r.advance now request (some p) (some id)).port
        (r.advance now request (some p) (some id)).rpl).isBlocked = (r.port r.rpl).isBlocked := hb _
    refine ⟨hlistener, ?_, fun _ _ _ => hs, ?_⟩
    · intro hnb
      have hnb : r.cfg.isRplNeighbour = false := hnb
      rw [hkept, hh.elsewhere hnb, List.map_append]
      refine ⟨fun hk => KeepsBlock.append_iff.mpr ⟨hk, ?_⟩, fun hk => (KeepsBlock.append_iff.mp hk).1⟩
      rcases hwhy with ⟨hidle, hreq⟩ | ⟨_, hown, hreq⟩
      · cases heard with
        | nil => cases hidle.symm.trans (hh.pending hl)
        | cons q qs => exact ⟨(hk.mem_cases (.head _)).1, nofun, hreq⟩
      · exact ⟨hown, fun _ => hreq, .inr hreq⟩
    · intro hnb
      have hnb : r.cfg.isRplNeighbour = true := hnb
      rw [hkept, hh.neighbour hnb]
      rcases hwhy with ⟨hidle, _⟩ | ⟨hn, _⟩
      · exact iff_of_true (.inr hidle) (.inr hs)
      · cases hnb.symm.trans hn
  | blocks hnb hs hb _ =>
    refine ⟨hlistener, ?_, fun _ _ _ => hs, ?_⟩
    · intro hn
      cases hnb.symm.trans hn
    · intro _
      exact iff_of_true hb.1 (.inr hs)

/-- **One heard request.** -/
theorem process (hh : Heard r heard) (hl : Listening r) (hraps : request.isRaps = true)
    (hid : id ≠ .zero) (now : Int32) (p : PortId) :
    Heard (ringProcessRequest r now request (some p) (some id)) (heard ++ [(request, id)]) := by
  have hlistener : listenerOf (ringProcessRequest r now request (some p) (some id)) =
      .after (heard ++ [(request, id)]) := by
    rw [hl.listenerOf_process hraps, hh.listener, Listener.after_append]
  rw [hl.process_eq hraps] at hlistener ⊢
  by_cases hlast : (listenerOf r).last = some (request, id)
  · rw [if_pos hlast]
    exact hh.again hlast
  · rw [if_neg hlast] at hlistener ⊢
    exact hh.advance hl hraps hid now p hlistener

end Heard

end heard

/-- As `er_ring_create` leaves it, with the configuration written over it. -/
theorem Listening.configured (now : Int32) (ringId : UInt16) (rplOwner rplNeighbour version : UInt8)
    (rapsVid : Nat) (isRevertive : Bool) :
    Listening (configure (erRingCreate now ringId rplOwner rplNeighbour) version rapsVid
      isRevertive) := by
  have hinit : requests.init (configure (erRingCreate now ringId rplOwner rplNeighbour) version
      rapsVid isRevertive) := ⟨now, ringId, rplOwner, rplNeighbour, version, rapsVid, isRevertive, rfl⟩
  have ha := assigned now ringId rplOwner rplNeighbour version rapsVid isRevertive
  have hb := blank_ringBlank ringId rplOwner rplNeighbour
  refine ⟨(Sound.init hinit).coherent, ?_, ?_, (Settled.of_init hinit).healthy, ?_, ha.blocksOnly.2, ?_,
    ?_⟩
  · rw [erRingCreate_eq]
    rfl
  · rw [erRingCreate_eq]
    rfl
  · rw [erRingCreate_eq]
    rfl
  · rw [erRingCreate_eq]
    exact .inr (Ring.started_sending _ now)
  · intro hs
    rw [erRingCreate_eq] at hs
    exact absurd rfl hs

theorem Heard.configured (now : Int32) (ringId : UInt16) (rplOwner rplNeighbour version : UInt8)
    (rapsVid : Nat) (isRevertive : Bool) :
    Heard (configure (erRingCreate now ringId rplOwner rplNeighbour) version rapsVid isRevertive)
      [] := by
  have ha := assigned now ringId rplOwner rplNeighbour version rapsVid isRevertive
  refine ⟨?_, fun _ => ?_, fun _ h => absurd rfl h, fun _ => ?_⟩
  · rw [erRingCreate_eq]
    rfl
  · exact iff_of_true ha.blocksOnly.1 (.inl rfl)
  · exact iff_of_true ha.blocksOnly.1 (.inl rfl)

end node

namespace Life

/-! ## What a frame asks -/

/-- What a frame asks of the ring, on which port and in whose name. -/
def requestIn (host : ByteOrder) (er : ErRing) (bdgPort : Int) (data : List UInt8) :
    Option (RingRequest × PortId × NodeId) :=
  match recvPort er bdgPort with
  | none => none
  | some p =>
    if er.active && isRapsFrame data && !isLocalRapsFrame host data er.ring.cfg.nodeId then
      match rapsParse host data with
      | none => none
      | some raps => raps.ringRequest.map fun request => (request, p, raps.nodeId)
    else none

section recv

variable {host : ByteOrder} {hz now : Int32} {learning : List UInt8 → Int → Destination}
  {er : ErRing} {bdgPort : Int} {data : List UInt8}

/-- It is one of the five, and not the ring's own. -/
theorem requestIn_spec {request : RingRequest} {p : PortId} {id : NodeId}
    (h : requestIn host er bdgPort data = some (request, p, id)) :
    request.isRaps = true ∧ id ≠ er.ring.cfg.nodeId := by
  unfold requestIn at h
  split at h
  · cases h
  · split at h
    · rename_i hpass
      split at h
      · cases h
      · rename_i raps hparse
        obtain ⟨request', hreq, heq⟩ := Option.map_eq_some_iff.mp h
        cases heq
        refine ⟨raps.isRaps_of_ringRequest hreq, ?_⟩
        intro hid
        obtain ⟨hformat, _, _, hraps⟩ := rapsParse_eq_some_iff.mp hparse
        have hlocal : isLocalRapsFrame host data er.ring.cfg.nodeId = true := by
          rw [isLocalRapsFrame_iff, ← hid, hraps]
          exact ⟨hformat.length, rfl⟩
        simp [hlocal] at hpass
    · cases h

/-- A listening ring hears every frame that asks for something. -/
theorem erNetmapOnRecv_listening (h : Listening er.ring) :
    (Kernel.erNetmapOnRecv host hz now learning er bdgPort data).2 =
      match requestIn host er bdgPort data with
      | none => er
      | some (request, p, id) =>
        { er with ring := ringProcessRequest er.ring now request (some p) (some id) } := by
  have hcallback : (Kernel.erNetmapOnRecv host hz now learning er bdgPort data).2 =
      if er.active then (Kernel.erForwardLookup host hz now er (recvPort er bdgPort) data).2
      else er := by
    unfold Kernel.erNetmapOnRecv
    cases er.active with
    | false => rfl
    | true =>
      simp only [Bool.not_true, Bool.false_eq_true, if_false, if_true]
      split <;> rename_i heq <;> rw [heq]
  rw [hcallback]
  unfold requestIn
  cases hport : recvPort er bdgPort with
  | none =>
    have hnone : (Kernel.erForwardLookup host hz now er none data).2 = er := by
      unfold Kernel.erForwardLookup
      simp only [isKeepaliveFrame, Bool.false_eq_true, if_false]
      split <;> rfl
    rw [hnone, ite_self]
  | some p =>
    have hlookup : (Kernel.erForwardLookup host hz now er (some p) data).2 = _ :=
      lookup_eq er ⟨now, p, data⟩
    rw [hlookup, processRapsFrame_eq, h.guardHolds_eq, h.guard]
    obtain ⟨r, port0Idx, port1Idx, active⟩ := er
    cases active with
    | false => rfl
    | true =>
      cases hheard : isRapsFrame data && !isLocalRapsFrame host data r.cfg.nodeId with
      | false => simp [hheard]
      | true =>
        simp only [hheard, if_true, Bool.true_and, Bool.false_eq_true, if_false, processHeard]
        cases rapsParse host data with
        | none => rfl
        | some raps =>
          simp only
          cases raps.ringRequest <;> rfl

end recv

end Life

end Erps.Kernel
