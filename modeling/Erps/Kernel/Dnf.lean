import Erps.Kernel.Runs

/-!
# The DNF flag

A message that announces a block tells the other nodes to flush what they have learnt, unless it
carries DNF. The rows choose the flag from one port, the one they block, before they open the other.
Two invariants make that enough: the two ports are never blocked together, and FORCED_SWITCH without a
local FS behind it has both of them open, so row 45, which never sets DNF, always has a port to block.
-/

set_option autoImplicit false

namespace Erps

namespace Ring

variable {τ : Type} {r : Ring τ}

theorem hasDnf_dnfIf (p : PortId) : hasDnf (r.dnfIf p) = (r.port p).isBlocked := by
  unfold dnfIf
  cases (r.port p).isBlocked <;> rfl

theorem hasDnf_rb_dnfIf (p : PortId) :
    hasDnf (rapsFlagRb ||| r.dnfIf p) = (r.port p).isBlocked := by
  unfold dnfIf
  cases (r.port p).isBlocked <;> rfl

/-- With one port open, moving the block to `p` is no change exactly if it is there already. -/
theorem blocked_only_iff (hopen : ∃ q, (r.port q).isBlocked = false) (p : PortId) :
    (r.port p).isBlocked = true ↔
      ∀ q, (PortEffect.only p).blocked r q = (r.port q).isBlocked := by
  constructor
  · intro hp q
    obtain ⟨q', hq'⟩ := hopen
    rcases p.eq_or_eq_other q with rfl | rfl
    · rw [hp]
      simp [PortEffect.blocked]
    · have hother : (r.port p.other).isBlocked = false := by
        rcases p.eq_or_eq_other q' with rfl | rfl
        · rw [hp] at hq'
          cases hq'
        · exact hq'
      rw [hother]
      simp [PortEffect.blocked, p.other_ne]
  · intro h
    rw [← h p]
    simp [PortEffect.blocked]

end Ring

/-- The messages that other nodes may have to flush on: R-APS SF, FS and MS, and NR with RB. -/
def Flushes (request : RapsRequest) (flags : UInt8) : Prop :=
  request = .sf ∨ request = .fs ∨ request = .ms ∨ (request = .nr ∧ hasRb flags = true)

theorem not_flushes_nr : ¬ Flushes .nr 0 := by
  intro h
  rcases h with h | h | h | ⟨_, h⟩ <;> cases h

/-- **One row.** The message of a row carries DNF exactly if the row leaves the blocks in place. -/
theorem Dominant.hasDnf_iff {τ : Type} {r : Ring τ} (hd : Dominant r) {req : RingRequest}
    {port : Option PortId} {remote : Option NodeId} (ha : r.accepts req = true)
    {request : RapsRequest} {flags : UInt8}
    (htx : (r.effect req port remote).tx = .start request flags) (hf : Flushes request flags) :
    hasDnf flags = true ↔
      ∀ p, (r.effect req port remote).ports.blocked r p = (r.port p).isBlocked := by
  have hrow := r.row req port remote
  generalize r.effect req port remote = e at hrow htx ⊢
  cases hrow with
  | fs | sf | ms =>
    cases htx
    rw [Ring.hasDnf_dnfIf]
    exact Ring.blocked_only_iff hd.not_both _
  | fsAgain hs =>
    cases htx
    -- an FS that gets here is the first local one, so there is no block yet
    have hl : r.localRequest ≠ .fs := by
      intro hl
      cases Ring.eq_clear_of_accepts ha hl
    have hopen := hd.forced_open hs hl (Ring.named port)
    rw [hasDnf_zero]
    constructor
    · intro h
      cases h
    · intro h
      have hp := h (Ring.named port)
      rw [hopen] at hp
      simp [PortEffect.blocked] at hp
  | revert =>
    cases htx
    rw [Ring.hasDnf_rb_dnfIf]
    exact Ring.blocked_only_iff hd.not_both _
  | announce | clearSf =>
    cases htx
    exact absurd hf not_flushes_nr
  | rbIdle => cases hown : r.cfg.isRplOwner <;> simp [hown] at htx
  | _ => cases htx

namespace Kernel

/-- The call makes `start_tx(request, flags)`: whatever was transmitted before, the transmission
becomes what `start_tx` makes of it. -/
def StartsTx (r : Ring Int32) (c : Call) (request : RapsRequest) (flags : UInt8) : Prop :=
  ∀ tx, (handle { r with tx := tx } c).tx = tx.start request flags

/-- A call that makes `start_tx` takes a row that does. -/
theorem StartsTx.takes {r : Ring Int32} (hc : Coherent r) {c : Call} {request : RapsRequest}
    {flags : UInt8} (h : StartsTx r c request flags) :
    r.Takes c.req.request c.req.port c.req.remoteNodeId ∧
      (r.effect c.req.request c.req.port c.req.remoteNodeId).tx = .start request flags := by
  -- on a silent node a row that does not start anything leaves it silent
  have hsilent := h { r.tx with isSendingRaps := false }
  have hc' : Coherent { r with tx := { r.tx with isSendingRaps := false } } :=
    ⟨hc.not_init, hc.rplSet, hc.retained⟩
  rcases hc'.processed_cases (processed hc' c.now c.req) with ⟨_, heq⟩ | ⟨ht, heq⟩
  · have htx := congrArg (fun r => r.tx.isSendingRaps) heq
    have hsend := congrArg Transmission.isSendingRaps hsilent
    rw [Transmission.start_isSendingRaps] at hsend
    cases hsend.symm.trans htx
  · have htakes : r.Takes c.req.request c.req.port c.req.remoteNodeId :=
      ⟨ht.accepts, ht.not_dupe, ht.not_impossible⟩
    refine ⟨htakes, ?_⟩
    have heff : ({ r with tx := { r.tx with isSendingRaps := false } } : Ring Int32).effect
        c.req.request c.req.port c.req.remoteNodeId =
          r.effect c.req.request c.req.port c.req.remoteNodeId := by
      cases c.req.request <;> rfl
    have htx := congrArg Ring.tx heq
    rw [Ring.advance_tx, heff] at htx
    have hstart := htx.symm.trans hsilent
    cases he : (r.effect c.req.request c.req.port c.req.remoteNodeId).tx with
    | keep | stop =>
      rw [he] at hstart
      have hsend := congrArg Transmission.isSendingRaps hstart
      rw [Transmission.start_isSendingRaps] at hsend
      cases hsend
    | start request' flags' =>
      rw [he] at hstart
      have hreq := congrArg (fun tx => tx.raps.request) hstart
      have hflags := congrArg (fun tx => tx.raps.flags) hstart
      simp only [TxEffect.apply, Transmission.start_request, Transmission.start_flags]
        at hreq hflags
      rw [hreq, hflags]

/-- **DNF tells the truth.** -/
theorem dnf_truthful {r : Ring Int32} (hr : requests.Reachable r) {c : Call}
    {request : RapsRequest} {flags : UInt8} (hs : StartsTx r c request flags)
    (hf : Flushes request flags) :
    hasDnf flags = true ↔
      ∀ p, ((handle r c).port p).isBlocked = (r.port p).isBlocked := by
  have hd := Sound.of_reachable hr
  obtain ⟨ht, htx⟩ := hs.takes hd.coherent
  have hport : ∀ p, ((handle r c).port p).isBlocked =
      (r.effect c.req.request c.req.port c.req.remoteNodeId).ports.blocked r p := by
    intro p
    rcases hd.coherent.processed_cases (processed hd.coherent c.now c.req) with ⟨hn, _⟩ | ⟨_, heq⟩
    · exact absurd ht hn
    · show ((ringProcessRequest r c.now c.req.request c.req.port c.req.remoteNodeId).port p).isBlocked
        = _
      rw [heq, Ring.advance_port]
  simp only [hport]
  exact hd.dominant.hasDnf_iff ht.accepts htx hf

/-- A plain node blocks port0 from the start: an FS there carries DNF, an FS on port1 does not. -/
theorem dnf_truthful_plainNode :
    (∀ p, ((handle plainNode (.at0 (.onPort .fs .port0 rfl))).port p).isBlocked =
      (plainNode.port p).isBlocked) ∧
    ¬ ∀ p, ((handle plainNode (.at0 (.onPort .fs .port1 rfl))).port p).isBlocked =
      (plainNode.port p).isBlocked := by
  have hfs : ∀ flags, Flushes .fs flags := fun _ => .inr (.inl rfl)
  constructor
  · exact (dnf_truthful (.init init_plainNode) (fun _ => rfl) (hfs rapsFlagDnf)).mp rfl
  · intro h
    have hdnf := (dnf_truthful (.init init_plainNode) (fun _ => rfl) (hfs 0)).mpr h
    cases hdnf

end Kernel

end Erps
