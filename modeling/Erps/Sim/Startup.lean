import Mathlib.Data.Fintype.EquivFin
import Erps.Lib.Parties
import Erps.Ring.Quiet
import Erps.Sim.Network

/-!
# Start-up

A ring of freshly created nodes that nobody touches: no failures, no FS or MS. Frames are copied,
delayed, reordered and lost at will; all a delivery needs is that the frame was sent at some time.

Until the RPL owner reverts the ring is an election by node id (`exists_election`). The one place
where the two differ is the duplicate filter, and what it swallows has been heard before. Once the
owner has reverted nobody counts votes any more: IDLE alone says which ports are blocked, and that
was proved of a single node (`IdleSound`).
-/

set_option autoImplicit false

namespace Erps.Sim

open Bytes

/-! ## The system -/

inductive StartupEvent
  | transmit
  | clear
  | timer
  /-- a copy of a frame that was sent, received at `p` -/
  | deliver (data : List UInt8) (p : PortId)

structure StartupInput (N : Nat) where
  now : UInt64
  node : Fin N
  event : StartupEvent

/-- The nodes, the frames they have sent so far, and who has processed which request. -/
structure Startup (N : Nat) where
  nodes : Net N
  sent : List (List UInt8)
  processed : List (Fin N × Request)

section startup

variable {N : Nat}

namespace Startup

/-- Node `j` is now `r`. -/
def put (s : Startup N) (j : Fin N) (r : Ring UInt64) : Startup N :=
  { s with nodes := Function.update s.nodes j r }

def send (s : Startup N) (frames : List (List UInt8)) : Startup N :=
  { s with sent := frames ++ s.sent }

/-- Node `j` has processed `q`. -/
def log (s : Startup N) (j : Fin N) (q : Request) : Startup N :=
  { s with processed := (j, q) :: s.processed }

/-- A callback at node `j`. -/
def callback (host : ByteOrder) (s : Startup N) (j : Fin N) (i : Input) : Option (Startup N) :=
  (handle host (s.nodes j) i).map fun r =>
    match i.request host (s.nodes j) with
    | none => s.put j r
    | some q => (s.log j q).put j r

end Startup

def startupStep (host : ByteOrder) (s : Startup N) (x : StartupInput N) : Option (Startup N) :=
  match x.event with
  | .transmit =>
    let (r, frame) := sendRapsCb (s.nodes x.node)
    some ((s.send frame.toList).put x.node r)
  | .clear => s.callback host x.node ⟨x.now, .command .clear⟩
  | .timer => s.callback host x.node ⟨x.now, .timer⟩
  | .deliver data p =>
    if data ∈ s.sent then s.callback host x.node ⟨x.now, .frame data p⟩ else none

/-- At least two nodes as `ring_create` leaves them, with distinct ids and at most one RPL owner. -/
structure Fresh (s : Startup N) : Prop where
  two_le : 2 ≤ N
  created : ∀ i, Created (s.nodes i)
  nodeId_injective : Function.Injective fun i => (s.nodes i).cfg.nodeId
  owner_unique : ∀ i j, (s.nodes i).cfg.isRplOwner = true → (s.nodes j).cfg.isRplOwner = true →
    i = j
  sent : s.sent = []
  processed : s.processed = []

def startup (host : ByteOrder) : Lts (Startup N) (StartupInput N) :=
  .ofStep Fresh (startupStep host)

/-- Node `j` has processed the request `request` of node `i`. -/
def Startup.HasProcessed (s : Startup N) (j : Fin N) (request : RingRequest) (i : Fin N) : Prop :=
  ∃ p, (j, Request.fromNode request p (s.nodes i).cfg.nodeId) ∈ s.processed

/-- The RPL owner has blocked the RPL and says so. -/
def Startup.Reverted (s : Startup N) : Prop :=
  ∃ o, (s.nodes o).cfg.isRplOwner = true ∧ (s.nodes o).state = .idle

end startup

/-! ## One node -/

/-- What every node keeps. -/
structure Starting (r : Ring UInt64) : Prop where
  timed : OwnerTimed r
  dominant : Dominant r
  framed : r.Framed
  quiet : Quiet r

namespace Starting

variable {host : ByteOrder} {r r' : Ring UInt64} {i : Input}

theorem created (h : Created r) : Starting r := by
  obtain ⟨now, id, role, rfl⟩ := h.exists_started
  refine ⟨.started now role id, .started (blank_ringBlank role id) now,
    framed_started now role id, ?_⟩
  refine Quiet.started _ now ?_
  intro p
  rw [(blank_ringBlank role id).port p]

/-- A callback of the start-up either moves timers or takes its row. -/
theorem outcome_cases (hprep : i.event.prepare r = r) (ho : Outcome host r i r') :
    (∃ t, r' = withTimers r t ∧ ∀ q, i.request host r = some q → ¬ Takes r q) ∨
      ∃ t q, r' = withTimers (advance r i.now q) t ∧ i.request host r = some q ∧ Takes r q := by
  cases ho with
  | @still t hq =>
    rw [hprep] at hq ⊢
    exact .inl ⟨t, rfl, hq⟩
  | @taken t q hq ht =>
    rw [hprep] at ht ⊢
    exact .inr ⟨t, q, rfl, hq, ht⟩

theorem outcome (h : Starting r) (hprep : i.event.prepare r = r)
    (hquiet : ∀ q, i.request host r = some q → q.request.isQuiet = true)
    (h14 : SparesOwner host r i) (ho : Outcome host r i r') : Starting r' := by
  have htimed := h.timed.outcome h14 ho
  rcases outcome_cases hprep ho with ⟨t, rfl, _⟩ | ⟨t, q, rfl, hq, ht⟩
  · refine ⟨htimed, h.dominant.congr (alike_withTimers r t), h.framed, ?_⟩
    exact h.quiet.congr (alike_withTimers r t) (fun p => by rw [withTimers_port]) rfl
  · have hquiet' : Quiet (advance r i.now q) := h.quiet.advance (hquiet q hq)
    have ha := alike_withTimers (advance r i.now q) t
    refine ⟨htimed, ?_, h.framed.advance i.now q.request q.port q.remoteNodeId, ?_⟩
    · exact (h.dominant.advance ht.accepts q.port_isSome).congr ha
    · exact hquiet'.congr ha (fun p => by rw [withTimers_port]) rfl

end Starting

/-! ### Transmitting -/

theorem frame_of_sendRapsCb {r : Ring UInt64} {data : List UInt8}
    (h : (sendRapsCb r).2 = some data) : r.tx.isSendingRaps = true ∧ data = r.tx.rapsFrame := by
  unfold sendRapsCb at h
  split at h
  · cases h
  · rename_i hs
    simp only [Bool.not_eq_true', Bool.not_eq_false] at hs
    dsimp only at h
    split at h <;> cases h <;> exact ⟨hs, rfl⟩

theorem Starting.transmit {r : Ring UInt64} (h : Starting r) : Starting (sendRapsCb r).1 := by
  have ha := alike_sendRapsCb r
  obtain ⟨n, hn⟩ := sendRapsCb_eq r
  rw [hn] at ha ⊢
  refine ⟨⟨h.timed.coherent.congr ha, h.timed.idle.congr ha, h.timed.wtr⟩, h.dominant.congr ha,
    ?_, ?_⟩
  · exact ⟨h.framed.frame, h.framed.frameLen, h.framed.subcode, h.framed.nodeId, h.framed.request⟩
  · exact h.quiet.congr ha (fun p => by cases p <;> rfl) rfl

/-! ## The ring -/

section startup

variable {N : Nat} {host : ByteOrder} {s t : Startup N} {j : Fin N}

@[simp] theorem Startup.put_self (s : Startup N) (j : Fin N) (r : Ring UInt64) :
    (s.put j r).nodes j = r := Function.update_self ..

theorem Startup.put_of_ne (s : Startup N) {i j : Fin N} (h : i ≠ j) (r : Ring UInt64) :
    (s.put j r).nodes i = s.nodes i := Function.update_of_ne h ..

theorem Startup.mem_log {e : Fin N × Request} {q : Request} {r : Ring UInt64}
    (h : e ∈ ((s.log j q).put j r).processed) : e = (j, q) ∨ e ∈ s.processed := List.mem_cons.mp h

/-- The frame spells an R-APS(NR) of this node, with RB only if the node is the reverted owner. -/
def SentBy (r : Ring UInt64) (data : List UInt8) : Prop :=
  ∃ raps : Raps, data = rapsBytes raps ∧ raps.subcode = 0 ∧ raps.request = .nr ∧
    raps.nodeId = r.cfg.nodeId ∧
    (hasRb raps.flags = true → r.cfg.isRplOwner = true ∧ r.state = .idle)

/-- The requests node `j` can get. -/
inductive Brings (s : Startup N) (j : Fin N) : Request → Prop
  | clear : Brings s j (.bare .clear rfl rfl)
  | expiry (hown : (s.nodes j).cfg.isRplOwner = true) : Brings s j (.bare .wtrExpires rfl rfl)
  | nr (i : Fin N) (p : PortId) : Brings s j (.fromNode .rapsNr p (s.nodes i).cfg.nodeId)
  | nrRb (i : Fin N) (p : PortId) (hne : i ≠ j) (hown : (s.nodes i).cfg.isRplOwner = true)
      (hidle : (s.nodes i).state = .idle) :
      Brings s j (.fromNode .rapsNrRb p (s.nodes i).cfg.nodeId)

/-- The invariant of the start-up. -/
structure StartupSound (s : Startup N) : Prop where
  starting : ∀ i, Starting (s.nodes i)
  nodeId_injective : Function.Injective fun i => (s.nodes i).cfg.nodeId
  owner_unique : ∀ i j, (s.nodes i).cfg.isRplOwner = true → (s.nodes j).cfg.isRplOwner = true →
    i = j
  sent : ∀ data ∈ s.sent, ∃ i, SentBy (s.nodes i) data
  /-- the owner is the first to be IDLE -/
  reverted : ∀ i, (s.nodes i).state = .idle → s.Reverted
  /-- what the duplicate filter compares with was processed -/
  saved : ∀ i, (s.nodes i).prev.request.isRaps = true → ∃ p,
    (i, Request.fromNode (s.nodes i).prev.request p (s.nodes i).prev.remoteNodeId) ∈ s.processed
  settled : ∀ i p id, (i, Request.fromNode .rapsNrRb p id) ∈ s.processed →
    (s.nodes i).state = .idle

/-- **What a step of the start-up can do.** -/
inductive Moved (s : Startup N) (j : Fin N) : Startup N → Prop
  | transmitted :
      Moved s j ((s.send (sendRapsCb (s.nodes j)).2.toList).put j (sendRapsCb (s.nodes j)).1)
  | silent {u : Timers UInt64} (hr : Starting (withTimers (s.nodes j) u)) :
      Moved s j (s.put j (withTimers (s.nodes j) u))
  | ignored {u : Timers UInt64} {q : Request} (hr : Starting (withTimers (s.nodes j) u))
      (hq : Brings s j q) (hn : ¬ Takes (s.nodes j) q) :
      Moved s j ((s.log j q).put j (withTimers (s.nodes j) u))
  | taken {now : UInt64} {u : Timers UInt64} {q : Request}
      (hr : Starting (withTimers (advance (s.nodes j) now q) u)) (hq : Brings s j q)
      (ht : Takes (s.nodes j) q) :
      Moved s j ((s.log j q).put j (withTimers (advance (s.nodes j) now q) u))

theorem Brings.isQuiet {q : Request} (h : Brings s j q) : q.request.isQuiet = true := by
  cases h <;> rfl

/-- R-APS(NR,RB) comes from the owner, so it never reaches the owner. -/
theorem Brings.owner_eq_false {q : Request} (h : Brings s j q) (hs : StartupSound s)
    (hreq : q.request = .rapsNrRb) : (s.nodes j).cfg.isRplOwner = false := by
  cases h with
  | clear | expiry | nr => cases hreq
  | nrRb i p hne hown hidle =>
    apply Bool.eq_false_iff.mpr
    intro hown'
    exact hne (hs.owner_unique i j hown hown')

namespace StartupSound

theorem brings_of_frame (hs : StartupSound s) {data : List UInt8} (hsent : data ∈ s.sent)
    {now : UInt64} {p : PortId} {q : Request}
    (hq : Input.request host (s.nodes j) ⟨now, .frame data p⟩ = some q) : Brings s j q := by
  obtain ⟨i, raps, rfl, hsub, hnr, hid, hrb⟩ := hs.sent data hsent
  obtain ⟨hne, request, hreq, rfl⟩ := request_of_rapsBytes hsub (by simp [hnr]) hq
  rw [hid] at hne ⊢
  unfold Raps.ringRequest at hreq
  simp only [hnr] at hreq
  split at hreq
  · rename_i hflag
    obtain ⟨hown, hidle⟩ := hrb hflag
    cases hreq
    refine .nrRb i p ?_ hown hidle
    intro heq
    subst heq
    exact hne rfl
  · cases hreq
    exact .nr i p

theorem moved_of_callback (hs : StartupSound s) {i : Input}
    (hprep : i.event.prepare (s.nodes j) = s.nodes j)
    (hq : ∀ q, i.request host (s.nodes j) = some q → Brings s j q)
    (h : s.callback host j i = some t) : Moved s j t := by
  unfold Startup.callback at h
  obtain ⟨r', hr', rfl⟩ := Option.map_eq_some_iff.mp h
  have ho := handle_outcome (hs.starting j).timed.coherent hr'
  have hr : Starting r' :=
    (hs.starting j).outcome hprep (fun q hq' => (hq q hq').isQuiet)
      (fun q hq' hreq => (hq q hq').owner_eq_false hs hreq) ho
  rcases Starting.outcome_cases hprep ho with ⟨u, rfl, hn⟩ | ⟨u, q, rfl, hq', ht⟩
  · cases hreq : i.request host (s.nodes j) with
    | none => exact .silent hr
    | some q => exact .ignored hr (hq q hreq) (hn q hreq)
  · simp only [hq']
    exact .taken hr (hq q hq') ht

theorem moved_of_step (hs : StartupSound s) {x : StartupInput N}
    (h : startupStep host s x = some t) : Moved s x.node t := by
  obtain ⟨now, j, e⟩ := x
  cases e with
  | transmit =>
    cases h
    exact .transmitted
  | clear =>
    refine hs.moved_of_callback rfl ?_ h
    intro q hq
    cases hq
    exact .clear
  | timer =>
    refine hs.moved_of_callback rfl ?_ h
    intro q hq
    have htimed := (hs.starting j).timed
    simp only [Input.request] at hq
    split at hq
    · rename_i hexp
      cases hq
      exact .expiry (htimed.wtr (Bool.and_eq_true _ _ |>.mp hexp).1)
    · cases hq
  | deliver data p =>
    simp only [startupStep] at h
    split at h
    · rename_i hsent
      exact hs.moved_of_callback rfl (fun q hq => hs.brings_of_frame hsent hq) h
    · cases h

end StartupSound

namespace Moved

theorem nodes_of_ne (h : Moved s j t) {i : Fin N} (hi : i ≠ j) : t.nodes i = s.nodes i := by
  cases h <;> exact Startup.put_of_ne _ hi _

theorem starting (h : Moved s j t) (hs : StartupSound s) (i : Fin N) : Starting (t.nodes i) := by
  by_cases hi : i = j
  · subst hi
    cases h with
    | transmitted =>
      rw [Startup.put_self]
      exact (hs.starting i).transmit
    | silent hr | ignored hr | taken hr =>
      rw [Startup.put_self]
      exact hr
  · rw [h.nodes_of_ne hi]
    exact hs.starting i

theorem cfg (h : Moved s j t) (i : Fin N) : (t.nodes i).cfg = (s.nodes i).cfg := by
  by_cases hi : i = j
  · subst hi
    cases h with
    | transmitted =>
      rw [Startup.put_self]
      exact (alike_sendRapsCb _).cfg
    | silent | ignored | taken =>
      rw [Startup.put_self]
      rfl
  · rw [h.nodes_of_ne hi]

theorem idle (h : Moved s j t) {i : Fin N} (hidle : (s.nodes i).state = .idle) :
    (t.nodes i).state = .idle := by
  by_cases hi : i = j
  · subst hi
    cases h with
    | transmitted =>
      rw [Startup.put_self, (alike_sendRapsCb _).state]
      exact hidle
    | silent | ignored =>
      rw [Startup.put_self]
      exact hidle
    | taken hr hq =>
      rw [Startup.put_self]
      exact Ring.next_of_quiet_idle hq.isQuiet hidle
  · rwa [h.nodes_of_ne hi]

theorem reverted (h : Moved s j t) (hrev : s.Reverted) : t.Reverted := by
  obtain ⟨o, hown, hidle⟩ := hrev
  refine ⟨o, ?_, h.idle hidle⟩
  rwa [h.cfg]

theorem sentBy (h : Moved s j t) {i : Fin N} {data : List UInt8}
    (hsent : SentBy (s.nodes i) data) : SentBy (t.nodes i) data := by
  obtain ⟨raps, hdata, hsub, hnr, hid, hrb⟩ := hsent
  refine ⟨raps, hdata, hsub, hnr, ?_, ?_⟩
  · rwa [h.cfg]
  · intro hflag
    obtain ⟨hown, hidle⟩ := hrb hflag
    refine ⟨?_, h.idle hidle⟩
    rwa [h.cfg]

theorem processed (h : Moved s j t) {e : Fin N × Request} (he : e ∈ s.processed) :
    e ∈ t.processed := by
  cases h with
  | transmitted | silent => exact he
  | ignored | taken => exact List.mem_cons_of_mem _ he

end Moved

namespace StartupSound

/-- A node sends what it means to say, and RB only as the reverted owner. -/
theorem sentBy_of_transmit (hs : StartupSound s) {data : List UInt8}
    (h : (sendRapsCb (s.nodes j)).2 = some data) : SentBy (s.nodes j) data := by
  obtain ⟨hsend, rfl⟩ := frame_of_sendRapsCb h
  have hst := hs.starting j
  refine ⟨(s.nodes j).tx.raps, hst.framed.frame, hst.framed.subcode, hst.quiet.request,
    hst.framed.nodeId, ?_⟩
  intro hflag
  apply hst.timed.idle.sendsNrRb_iff.mp
  refine ⟨(s.nodes j).tx.raps.flags, ?_, hflag⟩
  unfold Ring.sending Transmission.sending
  rw [if_pos hsend, hst.quiet.request]

theorem sent_of_moved (hs : StartupSound s) (h : Moved s j t) :
    ∀ data ∈ t.sent, ∃ i, SentBy (t.nodes i) data := by
  have hold : ∀ data ∈ s.sent, ∃ i, SentBy (t.nodes i) data := by
    intro data hdata
    obtain ⟨i, hi⟩ := hs.sent data hdata
    exact ⟨i, h.sentBy hi⟩
  intro data hdata
  cases h with
  | silent | ignored | taken => exact hold data hdata
  | transmitted =>
    rcases List.mem_append.mp hdata with hdata | hdata
    · rw [Option.mem_toList] at hdata
      exact ⟨j, Moved.transmitted.sentBy (hs.sentBy_of_transmit hdata)⟩
    · exact hold data hdata

/-- The row that enters IDLE is the owner's reversion, or follows it. -/
theorem reverted_of_taken (hs : StartupSound s) {q : Request} (hq : Brings s j q)
    (ht : Takes (s.nodes j) q)
    (hidle : ((s.nodes j).effect q.request q.port q.remoteNodeId).next = .idle) :
    (s.nodes j).cfg.isRplOwner = true ∨ s.Reverted := by
  have hst := hs.starting j
  rcases hst.quiet.phase with hp | hp
  · cases hq with
    | clear => exact .inl (hst.timed.idle.owner_of_clear hp ht.accepts)
    | expiry hown => exact .inl hown
    | nrRb i p hne hown hidle' => exact .inr ⟨i, hown, hidle'⟩
    | nr i p =>
      have hnext : ((s.nodes j).effect .rapsNr (some p) (some (s.nodes i).cfg.nodeId)).next =
          .pending := Ring.next_of_quiet_pending rfl hp
      exact absurd (hnext.symm.trans hidle) (by simp)
  · exact .inr (hs.reverted j hp)

theorem reverted_of_moved (hs : StartupSound s) (h : Moved s j t) :
    ∀ i, (t.nodes i).state = .idle → t.Reverted := by
  intro i hidle
  by_cases hi : (s.nodes i).state = .idle
  · exact h.reverted (hs.reverted i hi)
  · have hij : i = j := by
      by_contra hne
      rw [h.nodes_of_ne hne] at hidle
      exact hi hidle
    subst hij
    have hidle' := hidle
    cases h with
    | transmitted =>
      rw [Startup.put_self, (alike_sendRapsCb _).state] at hidle
      exact absurd hidle hi
    | silent | ignored =>
      rw [Startup.put_self] at hidle
      exact absurd hidle hi
    | @taken now u q hr hq ht =>
      rw [Startup.put_self] at hidle
      rcases hs.reverted_of_taken hq ht hidle with hown | hrev
      · refine ⟨i, ?_, hidle'⟩
        rw [(Moved.taken hr hq ht).cfg]
        exact hown
      · exact (Moved.taken hr hq ht).reverted hrev

theorem saved_of_moved (hs : StartupSound s) (h : Moved s j t) (i : Fin N)
    (hraps : (t.nodes i).prev.request.isRaps = true) : ∃ p,
    (i, Request.fromNode (t.nodes i).prev.request p (t.nodes i).prev.remoteNodeId) ∈
      t.processed := by
  have hold : (t.nodes i).prev = (s.nodes i).prev → ∃ p,
      (i, Request.fromNode (t.nodes i).prev.request p (t.nodes i).prev.remoteNodeId) ∈
        t.processed := by
    intro hprev
    rw [hprev] at hraps ⊢
    obtain ⟨p, hp⟩ := hs.saved i hraps
    exact ⟨p, h.processed hp⟩
  by_cases hi : i = j
  · subst hi
    cases h with
    | transmitted =>
      apply hold
      rw [Startup.put_self]
      exact (alike_sendRapsCb _).prev
    | silent | ignored =>
      apply hold
      rw [Startup.put_self]
      rfl
    | taken hr hq ht =>
      rw [Startup.put_self] at hraps ⊢
      cases hq with
      | clear | expiry => cases hraps
      | nr k p | nrRb k p => exact ⟨p, List.mem_cons_self⟩
  · apply hold
    rw [h.nodes_of_ne hi]

/-- What the duplicate filter swallows was processed before. -/
theorem processed_of_ignored (hs : StartupSound s) {request : RingRequest}
    (hraps : request.isRaps = true) {p : PortId} {id : NodeId}
    (hn : ¬ Takes (s.nodes j) (.fromNode request p id)) :
    ∃ p', (j, Request.fromNode request p' id) ∈ s.processed := by
  have hst := hs.starting j
  have hl := hst.timed.idle.quiet hst.quiet.phase.symm
  obtain ⟨hreq, hid⟩ := Ring.prev_of_not_takes (Ring.accepts_of_raps hl hraps) hraps hn
  have hsaved := hs.saved j (by rw [hreq]; exact hraps)
  rwa [hreq, hid] at hsaved

theorem settled_of_moved (hs : StartupSound s) (h : Moved s j t) {i : Fin N} {p : PortId}
    {id : NodeId} (hp : (i, Request.fromNode .rapsNrRb p id) ∈ t.processed) :
    (t.nodes i).state = .idle := by
  have hold : (∃ p', (i, Request.fromNode .rapsNrRb p' id) ∈ s.processed) →
      (t.nodes i).state = .idle := by
    intro h
    obtain ⟨p', hp'⟩ := h
    exact h.idle (hs.settled i p' id hp')
  cases h with
  | transmitted | silent => exact hold ⟨p, hp⟩
  | ignored hr hq hn =>
    rcases Startup.mem_log hp with heq | hp
    · cases heq
      exact hold (hs.processed_of_ignored rfl hn)
    · exact hold ⟨p, hp⟩
  | taken hr hq ht =>
    rcases Startup.mem_log hp with heq | hp
    · cases heq
      rw [Startup.put_self]
      rcases (hs.starting j).quiet.phase with hs' | hs'
      · exact Ring.next_of_quiet_pending rfl hs'
      · exact Ring.next_of_quiet_idle rfl hs'
    · exact hold ⟨p, hp⟩

theorem moved (hs : StartupSound s) (h : Moved s j t) : StartupSound t where
  starting := h.starting hs
  nodeId_injective := by
    simp only [h.cfg]
    exact hs.nodeId_injective
  owner_unique i k hi hk := by
    rw [h.cfg] at hi hk
    exact hs.owner_unique i k hi hk
  sent := hs.sent_of_moved h
  reverted := hs.reverted_of_moved h
  saved := hs.saved_of_moved h
  settled _ _ _ := hs.settled_of_moved h

theorem fresh (h : Fresh s) : StartupSound s where
  starting i := .created (h.created i)
  nodeId_injective := h.nodeId_injective
  owner_unique := h.owner_unique
  sent data hdata := by
    rw [h.sent] at hdata
    cases hdata
  reverted i hidle := by
    obtain ⟨now, id, role, hi⟩ := (h.created i).exists_started
    rw [hi] at hidle
    cases hidle
  saved i hraps := by
    obtain ⟨now, id, role, hi⟩ := (h.created i).exists_started
    rw [hi] at hraps
    cases hraps
  settled i p id hp := by
    rw [h.processed] at hp
    cases hp

theorem of_reachable (h : (startup host).Reachable s) : StartupSound s := by
  refine h.invariant (I := StartupSound) (fun _ => .fresh) ?_
  intro s x t _ hs hst
  exact hs.moved (hs.moved_of_step hst)

end StartupSound

/-! ## The election -/

/-- The node id of each node; the greatest one wins. -/
def ids (s : Startup N) (i : Fin N) : NodeId := (s.nodes i).cfg.nodeId

/-- Until the owner reverts, the nodes that block a port are the candidates, and a candidate has
heard of the nodes whose R-APS(NR) it has processed. -/
structure Elects (s : Startup N) (a : Election.State (Fin N)) : Prop where
  standing : ∀ i, i ∈ a.standing ↔ (s.nodes i).HasBlock
  heard : ∀ i k, (i, k) ∈ a.heard ↔ s.HasProcessed i .rapsNr k

section hasProcessed

variable {i k : Fin N} {request : RingRequest}

theorem hasProcessed_of_eq (hcfg : ∀ i, (t.nodes i).cfg = (s.nodes i).cfg)
    (hp : t.processed = s.processed) :
    t.HasProcessed i request k ↔ s.HasProcessed i request k := by
  unfold Startup.HasProcessed
  rw [hcfg, hp]

theorem hasProcessed_of_log (hcfg : ∀ i, (t.nodes i).cfg = (s.nodes i).cfg) {q : Request}
    (hp : t.processed = (j, q) :: s.processed) :
    t.HasProcessed i request k ↔
      (i = j ∧ ∃ p, q = .fromNode request p (ids s k)) ∨ s.HasProcessed i request k := by
  unfold Startup.HasProcessed
  rw [hcfg, hp]
  constructor
  · intro h
    obtain ⟨p, h⟩ := h
    rcases List.mem_cons.mp h with heq | h
    · cases heq
      exact .inl ⟨rfl, p, rfl⟩
    · exact .inr ⟨p, h⟩
  · intro h
    rcases h with ⟨rfl, p, rfl⟩ | ⟨p, h⟩
    · exact ⟨p, List.mem_cons_self⟩
    · exact ⟨p, List.mem_cons_of_mem _ h⟩

end hasProcessed

namespace Elects

variable {a : Election.State (Fin N)}

theorem congr (he : Elects s a) (hb : ∀ i, (t.nodes i).HasBlock ↔ (s.nodes i).HasBlock)
    (hp : ∀ i k, t.HasProcessed i .rapsNr k ↔ s.HasProcessed i .rapsNr k) : Elects t a where
  standing i := by
    rw [hb]
    exact he.standing i
  heard i k := by
    rw [hp]
    exact he.heard i k

/-- A node that neither takes nor hears a vote stays what it is. -/
theorem of_still (he : Elects s a) (h : Moved s j t)
    (hb : (t.nodes j).HasBlock ↔ (s.nodes j).HasBlock)
    (hp : ∀ i k, t.HasProcessed i .rapsNr k ↔ s.HasProcessed i .rapsNr k) : Elects t a := by
  refine he.congr ?_ hp
  intro i
  by_cases hi : i = j
  · rw [hi]
    exact hb
  · rw [h.nodes_of_ne hi]

/-- The duplicate filter swallows only votes that were counted. -/
theorem of_ignored (he : Elects s a) (hs : StartupSound s)
    {u : Timers UInt64} {q : Request} (hr : Starting (withTimers (s.nodes j) u))
    (hq : Brings s j q) (hn : ¬ Takes (s.nodes j) q) :
    Elects ((s.log j q).put j (withTimers (s.nodes j) u)) a := by
  have h := Moved.ignored hr hq hn
  refine he.of_still h ?_ ?_
  · rw [Startup.put_self]
    exact (alike_withTimers _ _).hasBlock_iff
  · intro i k
    rw [hasProcessed_of_log h.cfg rfl, or_iff_right_iff_imp]
    intro h
    obtain ⟨rfl, p, rfl⟩ := h
    exact hs.processed_of_ignored rfl hn

/-- A vote that is taken is a candidate's hearing of another. -/
theorem of_taken_nr (he : Elects s a) (hs : StartupSound s) {now : UInt64} {u : Timers UInt64}
    {i : Fin N} {p : PortId} (hp : (s.nodes j).state = .pending)
    (h : Moved s j ((s.log j (.fromNode .rapsNr p (ids s i))).put j
      (withTimers (advance (s.nodes j) now (.fromNode .rapsNr p (ids s i))) u))) :
    Elects ((s.log j (.fromNode .rapsNr p (ids s i))).put j
      (withTimers (advance (s.nodes j) now (.fromNode .rapsNr p (ids s i))) u))
      (a.hear (ids s) j i) where
  standing k := by
    show k ∈ a.standing ∧ ¬ (k = j ∧ ids s j < ids s i) ↔ _
    rw [he.standing]
    by_cases hk : k = j
    · subst hk
      rw [Startup.put_self, (alike_withTimers _ _).hasBlock_iff]
      refine Iff.trans ?_ ((hs.starting k).quiet.hasBlock_advance_rapsNr hp (ids s i)).symm
      simp [ids]
    · rw [h.nodes_of_ne hk]
      simp [hk]
  heard k l := by
    rw [hasProcessed_of_log h.cfg rfl, ← he.heard]
    show (k, l) = (j, i) ∨ (k, l) ∈ a.heard ↔ _
    refine or_congr_left ?_
    rw [Prod.mk.injEq, and_congr_right_iff]
    intro heq
    subst heq
    constructor
    · intro heq
      subst heq
      exact ⟨p, rfl⟩
    · intro h
      obtain ⟨p', heq⟩ := h
      have hid : some (ids s i) = some (ids s l) := congrArg Request.remoteNodeId heq
      exact (hs.nodeId_injective (Option.some.inj hid)).symm

/-- **One step** of the ring before the owner reverts is at most one of the election. -/
theorem step (he : Elects s a) (hs : StartupSound s) (h : Moved s j t) (hrev : ¬ t.Reverted) :
    Elects t a ∨ ∃ i, Elects t (a.hear (ids s) j i) := by
  have hrev' : ¬ s.Reverted := fun hs' => hrev (h.reverted hs')
  cases h with
  | transmitted =>
    refine .inl (he.of_still .transmitted ?_ fun i k => hasProcessed_of_eq Moved.transmitted.cfg rfl)
    rw [Startup.put_self]
    exact (alike_sendRapsCb _).hasBlock_iff
  | silent hr =>
    refine .inl (he.of_still (.silent hr) ?_ fun i k => hasProcessed_of_eq (Moved.silent hr).cfg rfl)
    rw [Startup.put_self]
    exact (alike_withTimers _ _).hasBlock_iff
  | ignored hr hq hn => exact .inl (he.of_ignored hs hr hq hn)
  | @taken now u q hr hq ht =>
    have hp : (s.nodes j).state = .pending := by
      rcases (hs.starting j).quiet.phase with hp | hp
      · exact hp
      · exact absurd (hs.reverted j hp) hrev'
    have hm := Moved.taken hr hq ht
    cases hq with
    | nr i p => exact .inr ⟨i, he.of_taken_nr hs hp hm⟩
    | nrRb i p hne hown hidle => exact absurd ⟨i, hown, hidle⟩ hrev'
    | clear | expiry =>
      -- the owner reverts
      refine absurd (hs.reverted_of_moved hm j ?_) hrev
      rw [Startup.put_self]
      exact Ring.next_of_quiet_pending rfl hp

end Elects

/-- **Until the owner reverts, start-up is an election by node id.** -/
theorem exists_election (h : (startup host).Reachable s) (hrev : ¬ s.Reverted) :
    ∃ a, (Election.election (ids s)).Reachable a ∧ Elects s a := by
  refine h.invariant (I := fun s => ¬ s.Reverted →
    ∃ a, (Election.election (ids s)).Reachable a ∧ Elects s a) ?_ ?_ hrev
  · intro s hs _
    refine ⟨_, .init rfl, ?_, ?_⟩
    · intro i
      obtain ⟨now, id, role, hi⟩ := (hs.created i).exists_started
      have hb : (s.nodes i).HasBlock := by
        rw [hi]
        exact (Ring.started_blocksOnly _ now).hasBlock
      exact ⟨fun _ => hb, fun _ => Set.mem_univ i⟩
    · intro i k
      unfold Startup.HasProcessed
      simp [hs.processed]
  · intro s x t hr ih hst hrev
    have hs := StartupSound.of_reachable hr
    have hm := hs.moved_of_step hst
    have hids : ids t = ids s := by
      funext i
      unfold ids
      rw [hm.cfg]
    obtain ⟨a, ha, he⟩ := ih fun hs' => hrev (hm.reverted hs')
    rw [hids]
    rcases he.step hs hm hrev with he' | ⟨i, he'⟩
    · exact ⟨a, ha, he'⟩
    · exact ⟨_, ha.step (e := (x.node, i)) rfl, he'⟩

/-- Node ids are distinct, so the winner's is above all others. -/
theorem StartupSound.memcmp_of_best (hs : StartupSound s) {m : Fin N}
    (hm : Election.Best (ids s) m) {i : Fin N} (hi : i ≠ m) :
    memcmp (ids s i).bytes (ids s m).bytes < 0 := by
  rw [NodeId.memcmp_neg_iff]
  exact lt_of_le_of_ne (hm i) fun heq => hi (hs.nodeId_injective heq)

/-- A node that blocks a port blocks exactly one. -/
theorem Starting.isBlocked_iff_of_hasBlock {r : Ring UInt64} (h : Starting r) (hb : r.HasBlock) :
    ∃ p, ∀ q, (r.port q).isBlocked = true ↔ q = p := by
  obtain ⟨p, hp⟩ := hb
  obtain ⟨q, hq⟩ := h.dominant.not_both
  have hne : q ≠ p := by
    intro heq
    subst heq
    exact absurd hp (by simp [hq])
  refine ⟨p, fun q' => ?_⟩
  constructor
  · intro hq'
    by_contra hne'
    have hqq : q' = q := by cases p <;> cases q <;> cases q' <;> simp_all
    exact absurd hq' (by simp [hqq, hq])
  · intro heq
    subst heq
    exact hp

/-- An IDLE node blocks its RPL port, if it has one, and no other. -/
theorem OwnerTimed.isBlocked_iff_of_idle {r : Ring UInt64} (h : OwnerTimed r) (hs : r.state = .idle)
    (q : PortId) :
    (r.port q).isBlocked = true ↔
      (r.cfg.isRplOwner = true ∨ r.cfg.isRplNeighbour = true) ∧ r.cfg.rplPort = some q := by
  have hrpl := h.coherent.rplSet
  by_cases hrole : r.cfg.isRplOwner = true ∨ r.cfg.isRplNeighbour = true
  · have hb := h.idle.idle_rpl hs hrole
    have hport : r.cfg.rplPort = some r.rpl := by
      rcases hrole with hown | hnb
      · exact Ring.rplPort_of_owner hrpl hown
      · exact Ring.rplPort_of_neighbour hrpl hnb
    rw [hport, and_iff_right hrole, Option.some.injEq]
    constructor
    · intro hq
      rcases r.rpl.eq_or_eq_other q with heq | heq
      · exact heq.symm
      · rw [heq, hb.2] at hq
        cases hq
    · intro heq
      subst heq
      exact hb.1
  · simp only [not_or, Bool.not_eq_true] at hrole
    have hopen := h.idle.idle_plain hs hrole.1 hrole.2 q
    simp [hopen, hrole.1, hrole.2]

theorem Starting.isBlocked_iff_of_idle {r : Ring UInt64} (h : Starting r) (hs : r.state = .idle)
    (q : PortId) :
    (r.port q).isBlocked = true ↔
      (r.cfg.isRplOwner = true ∨ r.cfg.isRplNeighbour = true) ∧ r.cfg.rplPort = some q :=
  h.timed.isBlocked_iff_of_idle hs q

/-! ## What start-up comes to -/

/-- The candidate with the greatest id blocks a port, or the owner does. -/
theorem exists_blocked [Nonempty (Fin N)] (h : (startup host).Reachable s) :
    ∃ i p, ((s.nodes i).port p).isBlocked = true := by
  have hs := StartupSound.of_reachable h
  by_cases hrev : s.Reverted
  · obtain ⟨o, hown, hidle⟩ := hrev
    exact ⟨o, _, ((hs.starting o).timed.idle.idle_rpl hidle (.inl hown)).1⟩
  · obtain ⟨a, ha, he⟩ := exists_election h hrev
    obtain ⟨m, hm⟩ := Election.exists_best (ids s)
    exact ⟨m, (he.standing m).mp (Election.best_mem ha hm)⟩

/-- Once all have heard of all, the greatest id blocks alone. -/
theorem exists_only_blocked [Nonempty (Fin N)] (h : (startup host).Reachable s)
    (hrev : ¬ s.Reverted) (hall : ∀ i j, i ≠ j → s.HasProcessed j .rapsNr i) :
    ∃ m p, (∀ i, i ≠ m → memcmp (ids s i).bytes (ids s m).bytes < 0) ∧
      ∀ i q, ((s.nodes i).port q).isBlocked = true ↔ i = m ∧ q = p := by
  have hs := StartupSound.of_reachable h
  obtain ⟨a, ha, he⟩ := exists_election h hrev
  obtain ⟨m, hm⟩ := Election.exists_best (ids s)
  have hstand := Election.eq_best hs.nodeId_injective ha hm
    fun i j hij => (he.heard j i).mpr (hall i j hij)
  have hblock : ∀ i, (s.nodes i).HasBlock ↔ i = m := by
    intro i
    rw [← he.standing, hstand]
  obtain ⟨p, hp⟩ := (hs.starting m).isBlocked_iff_of_hasBlock ((hblock m).mpr rfl)
  refine ⟨m, p, fun i hi => hs.memcmp_of_best hm hi, fun i q => ?_⟩
  constructor
  · intro hq
    have hi := (hblock i).mp ⟨q, hq⟩
    rw [hi, hp] at hq
    exact ⟨hi, hq⟩
  · intro h
    obtain ⟨rfl, rfl⟩ := h
    exact (hp q).mpr rfl

/-- Once all have heard that the owner has reverted, all are IDLE. -/
theorem idle_of_processed (h : (startup host).Reachable s) {o : Fin N}
    (hidle : (s.nodes o).state = .idle) (hall : ∀ j, j ≠ o → s.HasProcessed j .rapsNrRb o)
    (i : Fin N) : (s.nodes i).state = .idle := by
  by_cases hi : i = o
  · rw [hi]
    exact hidle
  · obtain ⟨p, hp⟩ := hall i hi
    exact (StartupSound.of_reachable h).settled i p _ hp

/-- **Start-up.** Some port is always blocked. Once all have heard of all it is one port, at the node
with the greatest id, unless the owner has reverted; and once all have heard of that it is the ports
of the RPL, and the ring is IDLE. -/
theorem startup_election (h : (startup host).Reachable s) :
    (∃ i p, ((s.nodes i).port p).isBlocked = true) ∧
    (¬ s.Reverted → (∀ i j, i ≠ j → s.HasProcessed j .rapsNr i) →
      ∃ m p, (∀ i, i ≠ m → memcmp (ids s i).bytes (ids s m).bytes < 0) ∧
        ∀ i q, ((s.nodes i).port q).isBlocked = true ↔ i = m ∧ q = p) ∧
    (∀ o, (s.nodes o).cfg.isRplOwner = true → (s.nodes o).state = .idle →
      (∀ j, j ≠ o → s.HasProcessed j .rapsNrRb o) →
      (∀ i, (s.nodes i).state = .idle) ∧
      ∀ i q, ((s.nodes i).port q).isBlocked = true ↔
        ((s.nodes i).cfg.isRplOwner = true ∨ (s.nodes i).cfg.isRplNeighbour = true) ∧
          (s.nodes i).cfg.rplPort = some q) := by
  have hne : Nonempty (Fin N) := by
    obtain ⟨s₀, _, h₀, _⟩ := h
    exact ⟨⟨0, Nat.lt_of_lt_of_le Nat.zero_lt_two h₀.two_le⟩⟩
  refine ⟨exists_blocked h, exists_only_blocked h, ?_⟩
  intro o hown hidle hall
  have hall' := idle_of_processed h hidle hall
  have hs := StartupSound.of_reachable h
  exact ⟨hall', fun i => (hs.starting i).isBlocked_iff_of_idle (hall' i)⟩

end startup

/-! ## Two nodes -/

/-- The RPL owner, and a plain node with a greater id. -/
def twoNodes : Startup 2 where
  nodes
    | 0 => started 0 owner (nodeId 1)
    | 1 => started 0 plain (nodeId 2)
  sent := []
  processed := []

theorem fresh_twoNodes : Fresh twoNodes where
  two_le := le_refl 2
  created i := by
    match i with
    | 0 => exact created_started owner (nodeId 1)
    | 1 => exact created_started plain (nodeId 2)
  nodeId_injective := by
    have h : ∀ i j : Fin 2, (twoNodes.nodes i).cfg.nodeId = (twoNodes.nodes j).cfg.nodeId →
        i = j := by
      decide
    exact fun i j => h i j
  owner_unique := by decide
  sent := rfl
  processed := rfl

/-- Each hears the other's R-APS(NR). -/
def votes : List (StartupInput 2) :=
  [⟨1000, 0, .transmit⟩, ⟨1000, 1, .transmit⟩, ⟨2000, 0, .deliver (rapsOf 2 .nr 0) .port1⟩,
    ⟨2000, 1, .deliver (rapsOf 1 .nr 0) .port0⟩]

/-- The owner's WTR timer expires, and the other node hears of it. -/
def reversion : List (StartupInput 2) :=
  [⟨15000, 0, .timer⟩, ⟨16000, 0, .transmit⟩, ⟨17000, 1, .deliver (rapsOf 1 .nr rapsFlagRb) .port0⟩]

set_option maxRecDepth 20000 in
theorem startup_election_twoNodes :
    ∃ s t, Lts.exec (startupStep .little) twoNodes votes = some s ∧
      Lts.exec (startupStep .little) s reversion = some t ∧
      (∃ m p, ∀ i q, ((s.nodes i).port q).isBlocked = true ↔ i = m ∧ q = p) ∧
      ∀ i, (t.nodes i).state = .idle := by
  have hrun : ∃ s, Lts.exec (startupStep .little) twoNodes votes = some s ∧
      (s.nodes 0).state = .pending ∧ (s.nodes 1).state = .pending ∧
      (1, Request.fromNode .rapsNr .port0 (s.nodes 0).cfg.nodeId) ∈ s.processed ∧
      (0, Request.fromNode .rapsNr .port1 (s.nodes 1).cfg.nodeId) ∈ s.processed ∧
      ∃ t, Lts.exec (startupStep .little) s reversion = some t ∧
        (t.nodes 0).cfg.isRplOwner = true ∧ (t.nodes 0).state = .idle ∧
        (1, Request.fromNode .rapsNrRb .port0 (t.nodes 0).cfg.nodeId) ∈ t.processed :=
    ⟨_, rfl, rfl, rfl, .head _, .tail _ (.head _), _, rfl, rfl, rfl, .head _⟩
  obtain ⟨s, hs, h₀, h₁, h₁₀, h₀₁, t, ht, hown, hidle, hrb⟩ := hrun
  have hvotes : (startup .little).Run twoNodes votes s := Lts.run_of_exec hs
  have hreach : (startup .little).Reachable s := ⟨_, _, fresh_twoNodes, hvotes⟩
  have hreach' : (startup .little).Reachable t :=
    ⟨_, _, fresh_twoNodes, hvotes.append (Lts.run_of_exec ht)⟩
  have hrev : ¬ s.Reverted := by
    intro h
    obtain ⟨o, _, ho⟩ := h
    match o with
    | 0 => exact absurd (h₀.symm.trans ho) (by simp)
    | 1 => exact absurd (h₁.symm.trans ho) (by simp)
  have hall : ∀ i j, i ≠ j → s.HasProcessed j .rapsNr i := by
    intro i j hij
    match i, j with
    | 0, 1 => exact ⟨.port0, h₁₀⟩
    | 1, 0 => exact ⟨.port1, h₀₁⟩
    | 0, 0 | 1, 1 => exact absurd rfl hij
  have hall' : ∀ j, j ≠ 0 → t.HasProcessed j .rapsNrRb 0 := by
    intro j hj
    match j with
    | 0 => exact absurd rfl hj
    | 1 => exact ⟨.port0, hrb⟩
  obtain ⟨m, p, _, hblock⟩ := (startup_election hreach).2.1 hrev hall
  exact ⟨s, t, hs, ht, ⟨m, p, hblock⟩, ((startup_election hreach').2.2 0 hown hidle hall').1⟩

end Erps.Sim
