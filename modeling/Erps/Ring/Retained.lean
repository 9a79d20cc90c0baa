import Erps.Ring.Request
import Erps.Ring.Row

/-!
# The retained request

What every run of `ring_process_request` keeps, in either copy of it, about the retained local
request. One equation carries most of it:

    local_request  =  the previous request, if that was SF, FS or MS, and INVALID otherwise

(`Coherent.retained`). It makes the duplicate filter harmless: a local request that passes the
priority filter is never a duplicate, and an accepted duplicate changes nothing at all
(`Coherent.processed_cases`). `Dominant` is then what a retained FS or SF says about the state, the
ports and the transmission, together with what the absence of one says.
-/

set_option autoImplicit false

namespace Erps

variable {τ : Type}

/-! ## Transmission -/

@[simp] theorem Transmission.start_isSendingRaps (tx : Transmission) (request : RapsRequest)
    (flags : UInt8) : (tx.start request flags).isSendingRaps = true := by
  unfold Transmission.start
  split <;> rfl

@[simp] theorem Transmission.start_request (tx : Transmission) (request : RapsRequest)
    (flags : UInt8) : (tx.start request flags).raps.request = request := by
  unfold Transmission.start
  split
  · rfl
  · rename_i h
    simp only [ne_eq, not_or, not_not] at h
    exact h.1

@[simp] theorem Transmission.start_flags (tx : Transmission) (request : RapsRequest)
    (flags : UInt8) : (tx.start request flags).raps.flags = flags := by
  unfold Transmission.start
  split
  · rfl
  · rename_i h
    simp only [ne_eq, not_or, not_not] at h
    exact h.2

/-- What is transmitted after an effect on the transmission. -/
def TxEffect.sending (before : Option (RapsRequest × UInt8)) :
    TxEffect → Option (RapsRequest × UInt8)
  | .keep => before
  | .start request flags => some (request, flags)
  | .stop => none

theorem TxEffect.apply_sending (e : TxEffect) (tx : Transmission) :
    (e.apply tx).sending = e.sending tx.sending := by
  cases e with
  | keep | stop => rfl
  | start request flags => simp [TxEffect.apply, TxEffect.sending, Transmission.sending]

namespace Ring

@[simp] theorem advance_sending (r : Ring τ) (now : τ) (req : RingRequest) (port : Option PortId)
    (remote : Option NodeId) :
    (r.advance now req port remote).sending =
      (r.effect req port remote).tx.sending r.sending := by
  simp only [sending, advance_tx, TxEffect.apply_sending]

/-- What is on the air after a row was there before, or is started by it. -/
theorem sending_advance_cases {r : Ring τ} {now : τ} {req : RingRequest} {port : Option PortId}
    {remote : Option NodeId} {request : RapsRequest} {flags : UInt8}
    (h : (r.advance now req port remote).sending = some (request, flags)) :
    ((r.effect req port remote).tx = .keep ∧ r.sending = some (request, flags)) ∨
      (r.effect req port remote).tx = .start request flags := by
  rw [advance_sending] at h
  cases he : (r.effect req port remote).tx with
  | stop =>
    rw [he] at h
    cases h
  | keep =>
    rw [he] at h
    exact .inl ⟨rfl, h⟩
  | start request' flags' =>
    rw [he] at h
    cases h
    exact .inr rfl

/-! ## What passes the filter -/

theorem lt_of_accepts {r : Ring τ} {req : RingRequest} (h : r.accepts req = true)
    (hsf : r.localRequest ≠ .sf) : r.localRequest.code < req.code := by
  simp only [accepts, Bool.and_eq_true, Bool.or_eq_true, decide_eq_true_eq] at h
  rcases h.2 with h | h
  · exact h
  · exact absurd h.1 hsf

/-- Nothing but a CLEAR gets past a retained FS. -/
theorem eq_clear_of_accepts {r : Ring τ} {req : RingRequest} (h : r.accepts req = true)
    (hfs : r.localRequest = .fs) : req = .clear := by
  have hlt := lt_of_accepts h (by simp [hfs])
  rw [hfs] at hlt
  cases req <;> simp [RingRequest.code] at hlt
  rfl

theorem state_ne_of_accepts_sf {r : Ring τ} (h : r.accepts .sf = true) :
    r.state ≠ .forcedSwitch := by
  intro hs
  simp [accepts, hs] at h

/-- A CLEAR needs an MS or FS to clear, or an RPL owner that waits to revert. -/
theorem cases_of_accepts_clear {r : Ring τ} (h : r.accepts .clear = true) :
    r.localRequest = .ms ∨ r.localRequest = .fs ∨
      (r.cfg.isRplOwner = true ∧ (r.state = .pending ∨ r.state = .init)) := by
  have hden : r.clearDenied = false := by
    simp only [accepts, decide_true, Bool.true_and, Bool.and_eq_true, Bool.not_eq_true'] at h
    exact h.1.2
  by_cases hl : r.localRequest = .ms ∨ r.localRequest = .fs
  · rcases hl with hl | hl
    · exact .inl hl
    · exact .inr (.inl hl)
  · simp only [clearDenied, if_neg hl] at hden
    split at hden
    · rename_i hown
      refine .inr (.inr ⟨hown, ?_⟩)
      cases hs : r.state <;> simp_all
    · simp at hden

/-- Only CLEAR_SF, R-APS(FS) and FS get past a retained SF. -/
theorem cases_of_accepts_of_sf {r : Ring τ} {req : RingRequest} (h : r.accepts req = true)
    (hsf : r.localRequest = .sf) (hs : r.state = .protection) :
    req = .clearSf ∨ req = .rapsFs ∨ req = .fs := by
  have hcl : req ≠ .clear := by
    intro heq
    subst heq
    rcases cases_of_accepts_clear h with h' | h' | ⟨_, h' | h'⟩
    · simp [hsf] at h'
    · simp [hsf] at h'
    · simp [hs] at h'
    · simp [hs] at h'
  simp only [accepts, Bool.and_eq_true] at h
  have hlast := h.2
  cases req <;> simp [hsf, RingRequest.code] at hlast hcl ⊢

/-- With an MS retained every request that passes replaces or ends it, and CLEAR_SF is the only one
the state machine has no row for. -/
theorem cases_of_accepts_of_ms {r : Ring τ} {req : RingRequest} (h : r.accepts req = true)
    (hms : r.localRequest = .ms) :
    req = .rapsMs ∨ req = .rapsSf ∨ req = .clearSf ∨ req = .sf ∨ req = .rapsFs ∨ req = .fs ∨
      req = .clear := by
  have hlt := lt_of_accepts h (by simp [hms])
  rw [hms] at hlt
  cases req <;> simp [RingRequest.code] at hlt ⊢

end Ring

/-! ## Coherence of the retained and the previous request -/

/-- No row leads back to INIT. -/
theorem Ring.effect_next_ne_init {r : Ring τ} {req : RingRequest} {port : Option PortId}
    {remote : Option NodeId} (hinit : r.state ≠ .init) :
    (r.effect req port remote).next ≠ .init := by
  have hrow := r.row req port remote
  generalize r.effect req port remote = e at hrow ⊢
  cases hrow with
  | stay => exact hinit
  | _ =>
    intro h
    cases h

/-- The retained request follows the previous one. -/
structure Coherent (r : Ring τ) : Prop where
  not_init : r.state ≠ .init
  rplSet : r.cfg.RplSet
  retained : r.localRequest = r.prev.request.retained

namespace Coherent

variable {r r' : Ring τ} {now : τ} {req : RingRequest} {port : Option PortId}
  {remote : Option NodeId}

theorem congr (ha : r.Alike r') (hc : Coherent r) : Coherent r' where
  not_init := by
    rw [ha.state]
    exact hc.not_init
  rplSet := by
    rw [ha.cfg]
    exact hc.rplSet
  retained := by
    rw [ha.localRequest, ha.prev]
    exact hc.retained

/-- A local request that passes the filter differs from the previous one, or it would still be
retained and too weak to pass. -/
theorem prev_request_ne (hc : Coherent r) (ha : r.accepts req = true)
    (hret : req.retained = req) : r.prev.request ≠ req := by
  intro hprev
  have hlocal : r.localRequest = req := by rw [hc.retained, hprev, hret]
  simp only [Ring.accepts, hlocal, Nat.lt_irrefl, decide_false, Bool.false_or, Bool.and_eq_true,
    decide_eq_true_eq] at ha
  have hsf := ha.2.1
  have hclear := ha.2.2
  rw [hsf] at hclear
  exact absurd hclear (by simp)

/-- **An accepted duplicate changes nothing.** So a request either leaves the ring alone or takes its
row. -/
theorem processed_cases (hc : Coherent r) (hp : Processed r now req port remote r') :
    (¬ r.Takes req port remote ∧ r' = r) ∨
      (r.Takes req port remote ∧ r' = r.advance now req port remote) := by
  cases hp with
  | dropped h => exact .inl ⟨fun ht => absurd ht.accepts (by simp [h]), rfl⟩
  | row ht => exact .inr ⟨ht, rfl⟩
  | dupe ha hd =>
    refine .inl ⟨fun ht => ?_, ?_⟩
    · rcases hd with hd | hd
      · exact absurd ht.not_dupe (by simp [hd])
      · exact absurd ht.not_impossible (by simp [hd])
    · have hprev := Ring.prev_request_of_dupe hd
      rw [← hprev, ← hc.retained]

/-- An accepted FS, SF or MS always takes its row. -/
theorem eq_advance_of_local (hc : Coherent r) (ha : r.accepts req = true)
    (hret : req.retained = req) (hp : Processed r now req port remote r') :
    r' = r.advance now req port remote := by
  cases hp with
  | dropped h => exact absurd h (by simp [ha])
  | row => rfl
  | dupe _ hd => exact absurd (Ring.prev_request_of_dupe hd) (hc.prev_request_ne ha hret)

theorem advance (hc : Coherent r) : Coherent (r.advance now req port remote) where
  not_init := Ring.effect_next_ne_init hc.not_init
  rplSet := hc.rplSet
  retained := rfl

theorem processed (hc : Coherent r) (hp : Processed r now req port remote r') : Coherent r' := by
  rcases hc.processed_cases hp with ⟨_, rfl⟩ | ⟨_, rfl⟩
  · exact hc
  · exact hc.advance

end Coherent

/-! ## What rows announce, and where they lead -/

namespace Ring

variable (r : Ring τ) (req : RingRequest) (port : Option PortId) (remote : Option NodeId)

/-- Only an FS row announces FS, only an SF row SF and only an MS row MS. -/
theorem effect_start {request : RapsRequest} {flags : UInt8}
    (h : (r.effect req port remote).tx = .start request flags) :
    request = .nr ∨ (req = .fs ∧ request = .fs) ∨ (req = .sf ∧ request = .sf) ∨
      (req = .ms ∧ request = .ms) := by
  have hrow := r.row req port remote
  generalize r.effect req port remote = e at hrow h
  cases hrow with
  | fs | fsAgain =>
    cases h
    exact .inr (.inl ⟨rfl, rfl⟩)
  | sf =>
    cases h
    exact .inr (.inr (.inl ⟨rfl, rfl⟩))
  | ms =>
    cases h
    exact .inr (.inr (.inr ⟨rfl, rfl⟩))
  | announce | clearSf | revert =>
    cases h
    exact .inl rfl
  | rbIdle => cases hown : r.cfg.isRplOwner <;> simp [hown] at h
  | _ => cases h

/-- FORCED_SWITCH is entered by FS, or by R-APS(FS) with both ports opened; any other row that ends
there started there and did nothing. -/
theorem effect_next_forcedSwitch (h : (r.effect req port remote).next = .forcedSwitch) :
    req = .fs ∨ (r.effect req port remote).ports = .openAll ∨
      (r.state = .forcedSwitch ∧ req ≠ .clear ∧ r.effect req port remote = r.stay) := by
  have hrow := r.row req port remote
  generalize r.effect req port remote = e at hrow h ⊢
  cases hrow with
  | stay hs =>
    have hst : r.state = .forcedSwitch := h
    refine .inr (.inr ⟨hst, ?_, rfl⟩)
    intro hreq
    simp [hreq, stays, hst] at hs
  | fs | fsAgain => exact .inl rfl
  | rapsFs => exact .inr (.inl rfl)
  | _ => cases h

/-- Only row 45 blocks a port without opening the other. -/
theorem effect_ports_add {p : PortId} (h : (r.effect req port remote).ports = .add p) :
    req = .fs ∧ r.state = .forcedSwitch := by
  have hrow := r.row req port remote
  generalize r.effect req port remote = e at hrow h
  cases hrow with
  | fsAgain hs => exact ⟨rfl, hs⟩
  | _ => cases h

end Ring

/-! ## What a retained FS or SF means -/

/-- `p` is the port of the previous request, alone blocked, and `request` is on the air. -/
structure Enforced (r : Ring τ) (request : RapsRequest) (p : PortId) : Prop where
  prev_port : r.prev.port = some p
  blocksOnly : r.BlocksOnly p
  sends : r.Sends request

/-- A retained FS or SF is in force, neither is on the air without being retained, and a forced
switch that is not local holds no port. -/
structure Dominant (r : Ring τ) : Prop where
  fs : r.localRequest = .fs → r.state = .forcedSwitch ∧ ∃ p, Enforced r .fs p
  sf : r.localRequest = .sf → r.state = .protection ∧ ∃ p, Enforced r .sf p
  sends_fs : r.Sends .fs → r.localRequest = .fs
  sends_sf : r.Sends .sf → r.localRequest = .sf
  forced_open : r.state = .forcedSwitch → r.localRequest ≠ .fs → r.Open
  not_both : ∃ p, (r.port p).isBlocked = false

namespace Dominant

variable {r r' : Ring τ} {now : τ} {req : RingRequest} {port : Option PortId}
  {remote : Option NodeId}

theorem congr (ha : r.Alike r') (hd : Dominant r) : Dominant r' := by
  have henf : ∀ request p, Enforced r request p → Enforced r' request p := by
    intro request p h
    obtain ⟨hport, hblock, hsend⟩ := h
    refine ⟨?_, (ha.blocksOnly_iff p).mpr hblock, (ha.sends_iff request).mpr hsend⟩
    rw [ha.prev]
    exact hport
  refine ⟨?_, ?_, ?_, ?_, ?_, ?_⟩
  · rw [ha.localRequest, ha.state]
    intro hl
    obtain ⟨hs, p, he⟩ := hd.fs hl
    exact ⟨hs, p, henf _ p he⟩
  · rw [ha.localRequest, ha.state]
    intro hl
    obtain ⟨hs, p, he⟩ := hd.sf hl
    exact ⟨hs, p, henf _ p he⟩
  · rw [ha.localRequest, ha.sends_iff]
    exact hd.sends_fs
  · rw [ha.localRequest, ha.sends_iff]
    exact hd.sends_sf
  · rw [ha.localRequest, ha.state, ha.open_iff]
    exact hd.forced_open
  · simp only [ha.blocked]
    exact hd.not_both

/-- What `switchEffect` leaves behind. -/
theorem enforced_of_switch {request : RapsRequest} {p : PortId} (next : RingState)
    (he : r.effect req (some p) remote = r.switchEffect request p next) :
    Enforced (r.advance now req (some p) remote) request p := by
  refine ⟨rfl, ⟨?_, ?_⟩, ⟨r.dnfIf p, ?_⟩⟩
  · simp [he, Ring.switchEffect, PortEffect.blocked]
  · simp [he, Ring.switchEffect, PortEffect.blocked, p.other_ne]
  · simp [he, Ring.switchEffect, TxEffect.sending]

/-- An FS that passes the filter is in force afterwards, the one in a remotely caused forced switch
included: row 45 blocks its port and opens none, and there is none to open. -/
theorem enforced_fs (hd : Dominant r) {p : PortId} (hl : r.localRequest ≠ .fs) :
    Enforced (r.advance now .fs (some p) remote) .fs p := by
  by_cases hs : r.state = .forcedSwitch
  · have hopen := hd.forced_open hs hl
    have he : r.effect .fs (some p) remote =
        ⟨.add p, .start .fs 0, .forcedSwitch, .keep, .keep, .keep⟩ := by
      simp [Ring.effect, hs, Ring.named]
    refine ⟨rfl, ⟨?_, ?_⟩, ⟨0, ?_⟩⟩
    · simp [he, PortEffect.blocked]
    · simp [he, PortEffect.blocked, p.other_ne, hopen p.other]
    · simp [he, TxEffect.sending]
  · exact enforced_of_switch .forcedSwitch (by simp [Ring.effect, hs, Ring.named])

theorem enforced_sf {p : PortId} (hs : r.state ≠ .forcedSwitch) :
    Enforced (r.advance now .sf (some p) remote) .sf p :=
  enforced_of_switch .protection (by simp [Ring.effect, hs, Ring.named])

/-- With an FS retained, only a CLEAR has an effect, and it announces the block it finds. -/
theorem effect_of_fs (hd : Dominant r) (hfs : r.localRequest = .fs) (ha : r.accepts req = true)
    (port : Option PortId) (remote : Option NodeId) :
    r.effect req port remote = r.announceEffect := by
  obtain ⟨hs, p, _, hb, _⟩ := hd.fs hfs
  have hany : r.anyBlocked = true := Ring.hasBlock_iff.mp hb.hasBlock
  rw [Ring.eq_clear_of_accepts ha hfs]
  simp [Ring.effect, hs, hany]

/-- With an SF retained, every accepted request replaces or ends what is on the air. -/
theorem effect_tx_of_sf (hd : Dominant r) (hsf : r.localRequest = .sf)
    (ha : r.accepts req = true) : (r.effect req port remote).tx ≠ .keep := by
  obtain ⟨hs, _⟩ := hd.sf hsf
  rcases Ring.cases_of_accepts_of_sf ha hsf hs with rfl | rfl | rfl <;>
    simp [Ring.effect, hs, Ring.withdraw, Ring.switchEffect]

theorem sends_advance {request : RapsRequest}
    (h : (r.advance now req port remote).Sends request) :
    ((r.effect req port remote).tx = .keep ∧ r.Sends request) ∨
      ∃ flags, (r.effect req port remote).tx = .start request flags := by
  obtain ⟨flags, h⟩ := h
  rcases Ring.sending_advance_cases h with ⟨he, hs⟩ | he
  · exact .inl ⟨he, flags, hs⟩
  · exact .inr ⟨flags, he⟩

theorem advance (hd : Dominant r) (ha : r.accepts req = true)
    (hport : req.namesPort = true → port.isSome = true) :
    Dominant (r.advance now req port remote) where
  fs h := by
    have hreq : req = .fs := by cases req <;> simp [RingRequest.retained] at h ⊢
    subst hreq
    obtain ⟨p, rfl⟩ := Option.isSome_iff_exists.mp (hport rfl)
    have hl : r.localRequest ≠ .fs := by
      intro hfs
      exact absurd (Ring.eq_clear_of_accepts ha hfs) (by simp)
    refine ⟨?_, p, hd.enforced_fs hl⟩
    simp only [Ring.advance_state, Ring.effect]
    split <;> rfl
  sf h := by
    have hreq : req = .sf := by cases req <;> simp [RingRequest.retained] at h ⊢
    subst hreq
    obtain ⟨p, rfl⟩ := Option.isSome_iff_exists.mp (hport rfl)
    have hs := Ring.state_ne_of_accepts_sf ha
    refine ⟨?_, p, enforced_sf hs⟩
    simp only [Ring.advance_state, Ring.effect, if_neg hs]
    rfl
  sends_fs h := by
    rcases sends_advance h with ⟨hk, hs⟩ | ⟨flags, hs⟩
    · have he := hd.effect_of_fs (hd.sends_fs hs) ha port remote
      simp [he, Ring.announceEffect] at hk
    · rcases r.effect_start req port remote hs with h | ⟨rfl, _⟩ | ⟨_, h⟩ | ⟨_, h⟩
      · cases h
      · rfl
      · cases h
      · cases h
  sends_sf h := by
    rcases sends_advance h with ⟨hk, hs⟩ | ⟨flags, hs⟩
    · exact absurd hk (hd.effect_tx_of_sf (hd.sends_sf hs) ha)
    · rcases r.effect_start req port remote hs with h | ⟨_, h⟩ | ⟨rfl, _⟩ | ⟨_, h⟩
      · cases h
      · cases h
      · rfl
      · cases h
  forced_open hs hl q := by
    rcases r.effect_next_forcedSwitch req port remote hs with rfl | ho | ⟨hs', hne, hstay⟩
    · exact absurd rfl hl
    · simp [ho, PortEffect.blocked]
    · have hl' : r.localRequest ≠ .fs := fun hfs => hne (Ring.eq_clear_of_accepts ha hfs)
      simp [hstay, Ring.stay, PortEffect.blocked, hd.forced_open hs' hl' q]
  not_both := by
    obtain ⟨q, hq⟩ := hd.not_both
    cases he : (r.effect req port remote).ports with
    | keep | openNonfailed => exact ⟨q, by simp [he, PortEffect.blocked, hq]⟩
    | only p => exact ⟨p.other, by simp [he, PortEffect.blocked, p.other_ne]⟩
    | release p => exact ⟨p, by simp [he, PortEffect.blocked]⟩
    | openAll => exact ⟨q, by simp [he, PortEffect.blocked]⟩
    | add p =>
      -- row 45: the port is added to none
      obtain ⟨rfl, hs⟩ := r.effect_ports_add req port remote he
      have hl : r.localRequest ≠ .fs := by
        intro hfs
        exact absurd (Ring.eq_clear_of_accepts ha hfs) (by simp)
      exact ⟨p.other, by simp [he, PortEffect.blocked, p.other_ne, hd.forced_open hs hl p.other]⟩

theorem processed (hd : Dominant r) (hc : Coherent r)
    (hp : Processed r now req port remote r')
    (hport : req.namesPort = true → port.isSome = true) : Dominant r' := by
  rcases hc.processed_cases hp with ⟨_, rfl⟩ | ⟨ht, rfl⟩
  · exact hd
  · exact hd.advance ht.accepts hport

end Dominant

end Erps
